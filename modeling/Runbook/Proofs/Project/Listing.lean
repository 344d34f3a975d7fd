import Mathlib.Data.Char
import Mathlib.Data.List.Lex
import Mathlib.Data.Prod.Lex
import Mathlib.Tactic.Common
import Runbook.Proofs.Project.Search

/-! The projects in several directories. They are listed in one way, in whatever order the
directories are given, and their entries are found. -/
namespace Runbook.Project

/-- What decides the place of a project in a list. -/
def key (p : Project) : Text ×ₗ Text := toLex (p.name, p.path.toText)

open Classical in
/-- A list of the projects in some directories: in order, and each as often as it is found. -/
structure Listed (s : Surroundings) (types : List ProjectType) (dirs : List Text)
    (found : List Project) : Prop where
  sorted : found.Pairwise fun p q => p.key ≤ q.key
  counts : ∀ p, found.count p = dirs.countP fun d => FoundIn s types d p

variable {s s' : Surroundings} {types : List ProjectType} {dirs dirs' : List Text} {d : Text}

/-! ### The order -/

lemma precedes_iff {s t : Text} : Text.precedes s t = true ↔ s < t := by
  induction s generalizing t with
  | nil => cases t <;> simp [Text.precedes]
  | cons a s ih =>
    cases t with
    | nil => simp
    | cons b t =>
      rw [Text.precedes_cons, List.cons_lt_cons_iff, ih]
      rfl

lemma before_iff {p q : Project} : before p q = true ↔ p.key ≤ q.key := by
  rw [← not_lt, key, key, Prod.Lex.toLex_lt_toLex, before, Bool.not_eq_true', ← Bool.not_eq_true,
    not_iff_not]
  simp [precedes_iff]

lemma pairwise_mergeSort (ps : List Project) :
    (ps.mergeSort before).Pairwise fun p q => p.key ≤ q.key := by
  have htrans (p q r : Project) (hpq : before p q = true) (hqr : before q r = true) :
      before p r = true := before_iff.mpr ((before_iff.mp hpq).trans (before_iff.mp hqr))
  have htotal (p q : Project) : (before p q || before q p) = true := by
    rw [Bool.or_eq_true, before_iff, before_iff]
    exact le_total _ _
  exact (List.pairwise_mergeSort htrans htotal ps).imp before_iff.mp

/-- A list in order, no two of whose projects share their place in it, is what they are sorted
to. -/
lemma mergeSort_eq {ps sorted : List Project} (same : ps.Perm sorted)
    (ordered : sorted.Pairwise fun p q => before p q = true)
    (distinct : ∀ p ∈ sorted, ∀ q ∈ sorted, before p q = true → before q p = true → p = q) :
    ps.mergeSort before = sorted := by
  refine List.Perm.eq_of_pairwise (fun p q hp hq hpq hqp => ?_) (pairwise_mergeSort ps)
    (ordered.imp before_iff.mp) ((List.mergeSort_perm ps _).trans same)
  have hp' : p ∈ sorted := same.mem_iff.mp ((List.mergeSort_perm ps _).mem_iff.mp hp)
  exact distinct p hp' q hq (before_iff.mpr hpq) (before_iff.mpr hqp)

/-! ### The projects in all directories -/

lemma forAll_cons_ok_iff {α β : Type} {f : α → Noted β} {x : α} {xs : List α} {ys : List β} :
    (Noted.forAll f (x :: xs)).result = .ok ys ↔ ∃ z zs, (f x).result = .ok z ∧
      (Noted.forAll f xs).result = .ok zs ∧ ys = z :: zs := by
  rw [Noted.forAll, Noted.bind_result]
  constructor
  · intro h
    obtain ⟨z, hz, h⟩ := bind_ok h
    rw [Noted.bind_result] at h
    obtain ⟨zs, hzs, h⟩ := bind_ok h
    exact ⟨z, zs, hz, hzs, (Except.ok.inj h).symm⟩
  · rintro ⟨z, zs, hz, hzs, rfl⟩
    rw [hz]
    change ((Noted.forAll f xs).bind _).result = _
    rw [Noted.bind_result, hzs]
    rfl

lemma exists_forAll_iff {α β : Type} {f : α → Noted β} {xs : List α} :
    (∃ ys, (Noted.forAll f xs).result = .ok ys) ↔ ∀ x ∈ xs, ∃ y, (f x).result = .ok y := by
  induction xs with
  | nil => exact iff_of_true ⟨[], rfl⟩ (List.forall_mem_nil _)
  | cons x xs ih =>
    rw [List.forall_mem_cons, ← ih]
    constructor
    · rintro ⟨ys, h⟩
      obtain ⟨z, zs, hz, hzs, -⟩ := forAll_cons_ok_iff.mp h
      exact ⟨⟨z, hz⟩, zs, hzs⟩
    · rintro ⟨⟨z, hz⟩, zs, hzs⟩
      exact ⟨z :: zs, forAll_cons_ok_iff.mpr ⟨z, zs, hz, hzs, rfl⟩⟩

lemma forAll_result {α β : Type} (f : α → Noted β) (xs : List α) :
    (Noted.forAll f xs).result = xs.mapM fun x => (f x).result := by
  induction xs with
  | nil =>
    rw [List.mapM_nil]
    rfl
  | cons x xs ih =>
    rw [List.mapM_cons, ← ih, Noted.forAll, Noted.bind_result]
    exact congrArg _ (funext fun y => Noted.bind_result _ _)

lemma all_ok_iff {found : List Project} : (all s types dirs).result = .ok found ↔
    ∃ parts, (Noted.forAll (search s types) dirs).result = .ok parts ∧
      found = parts.flatten.mergeSort before := by
  change ((Noted.forAll (search s types) dirs).bind _).result = _ ↔ _
  rw [Noted.bind_result]
  constructor
  · intro h
    obtain ⟨parts, hparts, h⟩ := bind_ok h
    exact ⟨parts, hparts, (Except.ok.inj h).symm⟩
  · rintro ⟨parts, hparts, rfl⟩
    rw [hparts]
    rfl

open Classical in
lemma count_forAll (sound : s.files.Sound) (settled : ∀ d ∈ dirs, Settled s types d)
    {parts : List (List Project)} (h : (Noted.forAll (search s types) dirs).result = .ok parts)
    (p : Project) : parts.flatten.count p = dirs.countP fun d => FoundIn s types d p := by
  induction dirs generalizing parts with
  | nil =>
    obtain rfl := Except.ok.inj h
    rfl
  | cons d dirs ih =>
    obtain ⟨hd, hdirs⟩ := List.forall_mem_cons.mp settled
    obtain ⟨ps, rest, hps, hrest, rfl⟩ := forAll_cons_ok_iff.mp h
    obtain ⟨hnodup, hmem⟩ := search_finds sound hd hps
    rw [List.flatten_cons, List.count_append, ih hdirs hrest, List.countP_cons, hnodup.count,
      Nat.add_comm]
    simp only [hmem, decide_eq_true_eq]

theorem exists_all_iff (sound : s.files.Sound) (settled : ∀ d ∈ dirs, Settled s types d) :
    (∃ found, (all s types dirs).result = .ok found) ↔ ∀ d ∈ dirs, s.Searchable d := by
  have hparts : (∃ found, (all s types dirs).result = .ok found) ↔
      ∃ parts, (Noted.forAll (search s types) dirs).result = .ok parts := by
    constructor
    · rintro ⟨found, h⟩
      obtain ⟨parts, hparts, -⟩ := all_ok_iff.mp h
      exact ⟨parts, hparts⟩
    · rintro ⟨parts, hparts⟩
      exact ⟨_, all_ok_iff.mpr ⟨parts, hparts, rfl⟩⟩
  rw [hparts, exists_forAll_iff]
  exact forall₂_congr fun d hd => exists_search_iff sound (settled d hd)

/-- Nothing but the length of a path keeps the projects in some directories from being listed, once
it is known where these are. -/
theorem all_error (sound : s.files.Sound) (settled : ∀ d ∈ dirs, Settled s types d)
    (expandable : ∀ d ∈ dirs, ∃ base, s.expand d = .ok base) {failure : Failure}
    (h : (all s types dirs).result = .error failure) : failure = .nameTooLong := by
  change ((Noted.forAll (search s types) dirs).bind _).result = _ at h
  rw [Noted.bind_result] at h
  rcases bind_error_iff.mp h with hparts | ⟨parts, -, hsorted⟩
  · rw [forAll_result] at hparts
    obtain ⟨d, hd, hsearch⟩ := mapM_error hparts
    obtain ⟨base, hbase⟩ := expandable d hd
    exact search_error sound (settled d hd) hbase hsearch
  · cases hsorted

theorem listed_of_all (sound : s.files.Sound) (settled : ∀ d ∈ dirs, Settled s types d)
    {found : List Project} (h : (all s types dirs).result = .ok found) :
    Listed s types dirs found := by
  obtain ⟨parts, hparts, rfl⟩ := all_ok_iff.mp h
  refine ⟨pairwise_mergeSort _, fun p => ?_⟩
  rw [(List.mergeSort_perm _ _).count_eq, count_forAll sound settled hparts]

/-! ### One list only -/

lemma FoundIn.regular {p : Project} (h : FoundIn s types d p) : p.path.Regular := by
  obtain ⟨base, -, e, hbase, -, -, -, hpath⟩ := h.inside
  obtain ⟨t, -, rfl⟩ := map_ok hbase
  rw [hpath]
  exact (Path.regular_ofText _).child e.1

lemma Listed.exists_foundIn {found : List Project} (h : Listed s types dirs found) {p : Project}
    (hp : p ∈ found) : ∃ d ∈ dirs, FoundIn s types d p := by
  have hcount := List.count_pos_iff.mpr hp
  rw [h.counts, List.countP_pos_iff] at hcount
  simpa using hcount

/-- The key of a project that is found tells the project. -/
lemma eq_of_key {d' : Text} {p q : Project} (hp : FoundIn s types d p)
    (hq : FoundIn s types d' q) (h : p.key = q.key) : p = q := by
  have htext : p.path.toText = q.path.toText := congrArg (fun k => (ofLex k).2) h
  have hpath : p.path = q.path := hp.regular.ext hq.regular htext
  have htypes : p.types = q.types := by rw [hp.types_eq, hq.types_eq, hpath]
  cases p
  cases q
  rw [Project.mk.injEq]
  exact ⟨hpath, htypes⟩

theorem Listed.unique {found found' : List Project} (h : Listed s types dirs found)
    (h' : Listed s types dirs found') : found = found' := by
  refine List.Perm.eq_of_pairwise (fun p q hp hq hpq hqp => ?_) h.sorted h'.sorted ?_
  · obtain ⟨d, -, hd⟩ := h.exists_foundIn hp
    obtain ⟨d', -, hd'⟩ := h'.exists_foundIn hq
    exact eq_of_key hd hd' (le_antisymm hpq hqp)
  · exact List.perm_iff_count.mpr fun p => (h.counts p).trans (h'.counts p).symm

/-- The order of the directories and of their entries makes no difference to what is listed. -/
lemma Listed.relisted {found : List Project} (h : Listed s types dirs found)
    (relisted : s.Relisted s') (reordered : dirs.Perm dirs')
    (settled : ∀ d ∈ dirs, Settled s types d) (settled' : ∀ d ∈ dirs, Settled s' types d) :
    Listed s' types dirs' found := by
  refine ⟨h.sorted, fun p => ?_⟩
  rw [h.counts, ← reordered.countP_eq]
  refine List.countP_congr fun d hd => ?_
  simp only [decide_eq_true_eq]
  exact ⟨foundIn_relisted relisted (settled d hd) (settled' d hd),
    foundIn_relisted relisted.symm (settled' d hd) (settled d hd)⟩

/-- Whether there is a list does not depend on any order either. -/
lemma exists_all_relisted_iff (relisted : s.Relisted s') (reordered : dirs.Perm dirs')
    (settled' : ∀ d ∈ dirs', Settled s' types d) :
    (∃ found, (all s' types dirs').result = .ok found) ↔ ∀ d ∈ dirs, s.Searchable d := by
  rw [exists_all_iff relisted.files.right settled']
  constructor
  · intro h d hd
    exact searchable_relisted relisted.symm (h d (reordered.mem_iff.mp hd))
  · intro h d hd
    exact searchable_relisted relisted (h d (reordered.mem_iff.mpr hd))

/-- The projects in some directories are listed unless something there cannot be looked up. The list
is in order, it has every project as often as it is found, and it is the same in whatever order the
directories are given and list their entries. Where it is known what all directories are but not all
can be looked up, a path is too long, whatever the order. -/
theorem all_canonical (s : Surroundings) (types : List ProjectType) (dirs : List Text)
    (sound : s.files.Sound) (settled : ∀ d ∈ dirs, Settled s types d) :
    ((∃ found, (all s types dirs).result = .ok found) ↔ ∀ d ∈ dirs, s.Searchable d) ∧
    (∀ found, (all s types dirs).result = .ok found → Listed s types dirs found ∧
      ∀ s' dirs', s.Relisted s' → dirs.Perm dirs' → (∀ d ∈ dirs, Settled s' types d) →
        (all s' types dirs').result = .ok found) ∧
    ((∀ d ∈ dirs, ∃ base, s.expand d = .ok base) → ¬ (∀ d ∈ dirs, s.Searchable d) →
      ∀ s' dirs', s.Relisted s' → dirs.Perm dirs' → (∀ d ∈ dirs, Settled s' types d) →
        (all s' types dirs').result = .error .nameTooLong) := by
  have hreordered {s' dirs'} (reordered : dirs.Perm dirs')
      (settled' : ∀ d ∈ dirs, Settled s' types d) : ∀ d ∈ dirs', Settled s' types d :=
    fun d hd => settled' d (reordered.mem_iff.mpr hd)
  refine ⟨exists_all_iff sound settled, fun found h => ?_, ?_⟩
  · have hlisted := listed_of_all sound settled h
    refine ⟨hlisted, fun s' dirs' relisted reordered settled' => ?_⟩
    have settled'' := hreordered reordered settled'
    have hsearchable := (exists_all_iff sound settled).mp ⟨found, h⟩
    obtain ⟨found', h'⟩ := (exists_all_relisted_iff relisted reordered settled'').mpr hsearchable
    have hlisted' := hlisted.relisted relisted reordered settled settled'
    rw [h', hlisted'.unique (listed_of_all relisted.files.right settled'' h')]
  · intro expandable missing s' dirs' relisted reordered settled'
    have settled'' := hreordered reordered settled'
    have expandable' : ∀ d ∈ dirs', ∃ base, s'.expand d = .ok base := fun d hd =>
      relisted.expand_eq d ▸ expandable d (reordered.mem_iff.mpr hd)
    cases h : (all s' types dirs').result with
    | ok found =>
      exact absurd ((exists_all_relisted_iff relisted reordered settled'').mp ⟨found, h⟩) missing
    | error failure => rw [all_error relisted.files.right settled'' expandable' h]

/-- A directory for projects in which some have one name. -/
def yard : List (Text × Tree) := [
  ("b", .directory [(".git", .directory [])]),
  ("a", .directory [("shell.nix", .file []), (".git", .directory [])]),
  ("x", .directory [("a", .directory [(".git", .directory [])])]),
  ("f", .file [])]

def forwards : Surroundings where
  files := .directory yard
  directory := []

def backwards : Surroundings := { forwards with files := .directory yard.reverse }

def git : ProjectType := ⟨"git", [".git"], "Git repository"⟩

def nix : ProjectType := ⟨"nix", ["*.nix"], "Nix project"⟩

lemma relisted_yard : forwards.Relisted backwards := by
  have hempty : (Tree.directory []).Sound :=
    .directory (by decide) (List.forall_mem_nil _) (List.forall_mem_nil _)
  have hgit : (Tree.directory [(".git", .directory [])]).Sound :=
    .directory (by decide) (by decide) (List.forall_mem_singleton.mpr hempty)
  have hyard : ∀ e ∈ yard, e.2.Sound := by
    refine List.forall_mem_cons.mpr ⟨hgit, List.forall_mem_cons.mpr ⟨?_,
      List.forall_mem_cons.mpr ⟨?_, List.forall_mem_singleton.mpr (.file [])⟩⟩⟩
    · exact .directory (by decide) (by decide)
        (List.forall_mem_cons.mpr ⟨.file [], List.forall_mem_singleton.mpr hempty⟩)
    · exact .directory (by decide) (by decide) (List.forall_mem_singleton.mpr hgit)
  have hleft : (Tree.directory yard).Sound := .directory (by decide) (by decide) hyard
  have hright : (Tree.directory yard.reverse).Sound :=
    .directory (by decide) (by decide) fun e he => hyard e (List.mem_reverse.mp he)
  exact ⟨⟨hleft, hright, Tree.alike_directory hleft.distinct yard.reverse_perm.symm⟩, rfl⟩

/-- Where projects are looked for: there, in one of its directories, and there again. -/
def searched : List Text := ["/", "/x", "/"]

/-- What is found. -/
def listing : List Project := [⟨⟨1, ["a"]⟩, [git, nix]⟩, ⟨⟨1, ["a"]⟩, [git, nix]⟩,
  ⟨⟨1, ["x", "a"]⟩, [git]⟩, ⟨⟨1, ["b"]⟩, [git]⟩, ⟨⟨1, ["b"]⟩, [git]⟩]

/-- A name that is longer than names of files can be. -/
def overlong : Text := List.replicate 256 'n'

/-- All that is listed at a path can be told to have a type or not. -/
def told (s : Surroundings) (types : List ProjectType) (base : Path) : Bool :=
  (s.entries base).toOption.all fun es =>
    es.all fun e => types.all fun t => (t.fits s (base.child e.1)).isOk

lemma settled_of_told {base : Path} (hbase : s.expand d = .ok base)
    (h : told s types base = true) : Settled s types d := by
  rintro p ⟨base', es, e, hbase', hes, he, -, rfl⟩ t ht
  obtain rfl := Except.ok.inj (hbase.symm.trans hbase')
  rw [told, hes] at h
  have hfits := List.all_eq_true.mp (List.all_eq_true.mp h e he) t ht
  cases hb : t.fits s (base.child e.1) with
  | error _ =>
    rw [hb] at hfits
    cases hfits
  | ok b => exact ⟨b, rfl⟩

lemma expand_searched (s : Surroundings) (hd : d ∈ overlong :: searched) :
    s.expand d = .ok (.ofText d) := by
  have plain : ∀ d ∈ overlong :: searched, '~' ∉ d ∧ '$' ∉ d := by decide +kernel
  exact Surroundings.expand_plain (plain d hd).1 (plain d hd).2

lemma settled_searched (h : ∀ d ∈ overlong :: searched, told s types (.ofText d) = true) :
    ∀ d ∈ overlong :: searched, Settled s types d :=
  fun d hd => settled_of_told (expand_searched s hd) (h d hd)

lemma all_forwards : (all forwards [git, nix] searched).result = .ok listing := by
  have hparts : (Noted.forAll (search forwards [git, nix]) searched).result =
      .ok [[⟨⟨1, ["b"]⟩, [git]⟩, ⟨⟨1, ["a"]⟩, [git, nix]⟩], [⟨⟨1, ["x", "a"]⟩, [git]⟩],
        [⟨⟨1, ["b"]⟩, [git]⟩, ⟨⟨1, ["a"]⟩, [git, nix]⟩]] := by
    decide +kernel
  refine all_ok_iff.mpr ⟨_, hparts, (mergeSort_eq ?_ ?_ ?_).symm⟩
  all_goals decide +kernel

/-- Once with and once without a directory that cannot be looked up. -/
theorem all_canonical_yard :
    forwards.files.Sound ∧ (∀ d ∈ overlong :: searched, Settled forwards [git, nix] d) ∧
    forwards.Relisted backwards ∧ searched.Perm ["/x", "/", "/"] ∧
    (∀ d ∈ overlong :: searched, Settled backwards [git, nix] d) ∧
    (all forwards [git, nix] searched).result = .ok listing ∧
    Listed forwards [git, nix] searched listing ∧
    (all backwards [git, nix] ["/x", "/", "/"]).result = .ok listing ∧
    (∀ d ∈ overlong :: searched, ∃ base, forwards.expand d = .ok base) ∧
    ¬ (∀ d ∈ overlong :: searched, forwards.Searchable d) ∧
    (overlong :: searched).Perm (searched ++ [overlong]) ∧
    (all backwards [git, nix] (searched ++ [overlong])).result = .error .nameTooLong := by
  have sound : forwards.files.Sound := relisted_yard.files.left
  have settled : ∀ d ∈ overlong :: searched, Settled forwards [git, nix] d :=
    settled_searched (by decide +kernel)
  have settled' : ∀ d ∈ overlong :: searched, Settled backwards [git, nix] d :=
    settled_searched (by decide +kernel)
  have reordered : searched.Perm ["/x", "/", "/"] := by decide
  obtain ⟨hlisted, hsame⟩ := (all_canonical forwards [git, nix] searched sound
    (List.forall_mem_cons.mp settled).2).2.1 listing all_forwards
  have expandable : ∀ d ∈ overlong :: searched, ∃ base, forwards.expand d = .ok base :=
    fun d hd => ⟨_, expand_searched forwards hd⟩
  have missing : ¬ (∀ d ∈ overlong :: searched, forwards.Searchable d) := by
    intro h
    obtain ⟨base, es, hbase, hes, -⟩ := h overlong List.mem_cons_self
    obtain rfl := Except.ok.inj (hbase.symm.trans (expand_searched _ List.mem_cons_self))
    have hlost : (forwards.entries (.ofText overlong)).isOk = false := by decide +kernel
    rw [hes] at hlost
    cases hlost
  have reordered' : (overlong :: searched).Perm (searched ++ [overlong]) :=
    (List.perm_append_singleton overlong searched).symm
  have hlost := (all_canonical forwards [git, nix] (overlong :: searched) sound settled).2.2
    expandable missing backwards _ relisted_yard reordered' settled'
  exact ⟨sound, settled, relisted_yard, reordered, settled', all_forwards, hlisted,
    hsame backwards _ relisted_yard reordered (List.forall_mem_cons.mp settled').2, expandable,
    missing, reordered', hlost⟩

/-- A directory of such a name is not passed over as a missing one is. -/
theorem all_overlong :
    forwards.files.Sound ∧ (∀ d ∈ [overlong], Settled forwards [git] d) ∧
      (all forwards [git] [overlong]).result = .error .nameTooLong := by
  have settled : Settled forwards [git] overlong :=
    settled_of_told (expand_searched forwards List.mem_cons_self) (by decide +kernel)
  exact ⟨relisted_yard.files.left, List.forall_mem_singleton.mpr settled, by decide +kernel⟩

end Runbook.Project
