import Mathlib.Tactic.Common
import Runbook.Project
import Runbook.Proofs.Files.Glob

/-! The projects in one directory: each sub-directory with the types that it has, if it has any.
They do not depend on the order in which directories list their entries. -/
namespace Runbook

lemma Noted.bind_result {α β : Type} (x : Noted α) (f : α → Noted β) :
    (x.bind f).result = x.result.bind fun a => (f a).result := by
  rw [Noted.bind]
  cases x.result <;> rfl

namespace Surroundings

/-- A path is that of a directory in the directory that a text stands for. -/
def Subdirectory (s : Surroundings) (d : Text) (p : Path) : Prop :=
  ∃ base es e, s.expand d = .ok base ∧ s.entries base = .ok es ∧ e ∈ es ∧
    e.2.isDirectory = true ∧ p = base.child e.1

/-- The path that a text stands for can be looked up, and so can all that is listed there. -/
def Searchable (s : Surroundings) (d : Text) : Prop :=
  ∃ base es, s.expand d = .ok base ∧ s.entries base = .ok es ∧
    ∀ e ∈ es, ∃ b, s.isDirectory (base.child e.1) = .ok b

end Surroundings

namespace Project

/-- It can be told of every sub-directory which types it has. -/
def Settled (s : Surroundings) (types : List ProjectType) (d : Text) : Prop :=
  ∀ p, s.Subdirectory d p → ∀ t ∈ types, ∃ b, t.fits s p = .ok b

/-- The types of a directory among those that are declared. -/
def fitting (s : Surroundings) (types : List ProjectType) (p : Path) : List ProjectType :=
  types.filter fun t => t.fits s p = .ok true

/-- A project is one of those in a directory: a sub-directory with all of its types, and some. -/
structure FoundIn (s : Surroundings) (types : List ProjectType) (d : Text) (p : Project) :
    Prop where
  inside : s.Subdirectory d p.path
  types_eq : p.types = fitting s types p.path
  typed : p.types ≠ []

variable {s s' : Surroundings} {types : List ProjectType} {d : Text}

/-! ### The search in a directory -/

lemma typesOf_settled {p : Path} (h : ∀ t ∈ types, ∃ b, t.fits s p = .ok b) :
    typesOf s types p = .ok (fitting s types p) := by
  induction types with
  | nil => rfl
  | cons t types ih =>
    obtain ⟨⟨b, hb⟩, hrest⟩ := List.forall_mem_cons.mp h
    rw [typesOf, hb, fitting, List.filter_cons, hb]
    dsimp only
    rw [ih hrest]
    cases b <;> rfl

/-- The project of an entry of a directory, if it is one. -/
def ofEntry (s : Surroundings) (types : List ProjectType) (base : Path) (e : Text × Tree) :
    Option Project :=
  if e.2.isDirectory && !(fitting s types (base.child e.1)).isEmpty then
    some ⟨base.child e.1, fitting s types (base.child e.1)⟩
  else none

section Entries

variable {base : Path} {es : List (Text × Tree)} {e : Text × Tree} {p : Project}

lemma ofEntry_eq_some_iff : ofEntry s types base e = some p ↔ e.2.isDirectory = true ∧
    p.path = base.child e.1 ∧ p.types = fitting s types p.path ∧ p.types ≠ [] := by
  obtain ⟨path, own⟩ := p
  rw [ofEntry]
  constructor
  · intro h
    split at h
    · next hentry =>
      obtain ⟨rfl, rfl⟩ := Project.mk.inj (Option.some.inj h)
      simpa using hentry
    · cases h
  · rintro ⟨hdirectory, rfl, hown, hne⟩
    obtain rfl : own = fitting s types (base.child e.1) := hown
    rw [if_pos]
    simpa [hdirectory] using hne

lemma at?_entry (sound : s.files.Sound) (hes : s.entries base = .ok es) (he : e ∈ es)
    (settled : e.2.isDirectory = true → ∀ t ∈ types, ∃ b, t.fits s (base.child e.1) = .ok b) :
    at? s types (base.child e.1) =
      (s.isDirectory (base.child e.1)).map fun _ => ofEntry s types base e := by
  rw [at?]
  cases hdirectory : s.isDirectory (base.child e.1) with
  | error _ => rfl
  | ok b =>
    have hb := Surroundings.isDirectory_child sound hes he hdirectory
    cases b with
    | true =>
      change of? s types (base.child e.1) = .ok (ofEntry s types base e)
      rw [of?, typesOf_settled (settled hb.symm), ofEntry, ← hb]
      cases fitting s types (base.child e.1) <;> rfl
    | false =>
      rw [ofEntry, ← hb]
      rfl

lemma mapM_error {α β : Type} {f : α → Except Failure β} {xs : List α} {failure : Failure}
    (h : xs.mapM f = .error failure) : ∃ x ∈ xs, f x = .error failure := by
  induction xs with
  | nil =>
    rw [List.mapM_nil] at h
    cases h
  | cons x xs ih =>
    rw [List.mapM_cons] at h
    rcases bind_error_iff.mp h with hx | ⟨y, -, h⟩
    · exact ⟨x, List.mem_cons_self, hx⟩
    · rcases bind_error_iff.mp h with hxs | ⟨ys, -, h⟩
      · obtain ⟨x', hmem, hx'⟩ := ih hxs
        exact ⟨x', List.mem_cons_of_mem x hmem, hx'⟩
      · cases h

lemma mapM_map_ok_iff {α β : Type} {ask : α → Except Failure Bool} {answer : α → β}
    {f : α → Except Failure β} {xs : List α} (h : ∀ x ∈ xs, f x = (ask x).map fun _ => answer x)
    {ys : List β} :
    xs.mapM f = .ok ys ↔ (∀ x ∈ xs, ∃ b, ask x = .ok b) ∧ ys = xs.map answer := by
  induction xs generalizing ys with
  | nil =>
    rw [List.mapM_nil]
    constructor
    · intro h
      exact ⟨List.forall_mem_nil _, (Except.ok.inj h).symm⟩
    · rintro ⟨-, rfl⟩
      rfl
  | cons x xs ih =>
    obtain ⟨hx, hxs⟩ := List.forall_mem_cons.mp h
    rw [List.mapM_cons, hx, List.forall_mem_cons]
    cases hask : ask x with
    | error e => exact iff_of_false nofun fun h => nomatch h.1.1
    | ok b =>
      change (xs.mapM f).bind (fun ys => .ok (answer x :: ys)) = .ok ys ↔ _
      constructor
      · intro h
        obtain ⟨zs, hzs, h⟩ := bind_ok h
        obtain ⟨hall, rfl⟩ := (ih hxs).mp hzs
        exact ⟨⟨⟨b, rfl⟩, hall⟩, (Except.ok.inj h).symm⟩
      · rintro ⟨⟨-, hall⟩, rfl⟩
        rw [(ih hxs).mpr ⟨hall, rfl⟩]
        rfl

/-- What is no directory has no entries, so that it need not be told apart. -/
lemma within_result (s : Surroundings) (types : List ProjectType) (base : Path) :
    (within s types base).result = (s.entries base).bind fun es =>
      (es.mapM fun e => at? s types (base.child e.1)).map (·.filterMap id) := by
  have hlisted (es : List (Text × Tree)) : ((Noted.ofExcept
      (es.mapM fun e => at? s types (base.child e.1))).bind fun found =>
        (pure (found.filterMap id) : Noted (List Project))).result =
      (es.mapM fun e => at? s types (base.child e.1)).map (·.filterMap id) := by
    rw [Noted.bind_result]
    change (es.mapM fun e => at? s types (base.child e.1)).bind _ = _
    cases es.mapM fun e => at? s types (base.child e.1) <;> rfl
  change ((Noted.ofExcept (s.isDirectory base)).bind _).result = _
  rw [Noted.bind_result, Surroundings.entries]
  change ((s.tree? base).map _).bind _ = _
  cases s.tree? base with
  | error e => rfl
  | ok found =>
    cases found with
    | none => rfl
    | some t =>
      cases t with
      | file => rfl
      | directory es => exact hlisted es

/-- The projects in a directory, once everything in it can be looked up. -/
lemma within_ok_iff (sound : s.files.Sound) {ps : List Project}
    (settled : ∀ es, s.entries base = .ok es → ∀ e ∈ es, e.2.isDirectory = true →
      ∀ t ∈ types, ∃ b, t.fits s (base.child e.1) = .ok b) :
    (within s types base).result = .ok ps ↔ ∃ es, s.entries base = .ok es ∧
      (∀ e ∈ es, ∃ b, s.isDirectory (base.child e.1) = .ok b) ∧
      ps = es.filterMap (ofEntry s types base) := by
  have hmapM {es : List (Text × Tree)} (hes : s.entries base = .ok es) {found} :
      (es.mapM fun e => at? s types (base.child e.1)) = .ok found ↔
        (∀ e ∈ es, ∃ b, s.isDirectory (base.child e.1) = .ok b) ∧
          found = es.map (ofEntry s types base) :=
    mapM_map_ok_iff fun e he => at?_entry sound hes he (settled es hes e he)
  have hid (es : List (Text × Tree)) : (es.map (ofEntry s types base)).filterMap id =
      es.filterMap (ofEntry s types base) := by
    rw [List.filterMap_map]
    rfl
  rw [within_result]
  constructor
  · intro h
    obtain ⟨es, hes, h⟩ := bind_ok h
    obtain ⟨found, hfound, rfl⟩ := map_ok h
    obtain ⟨hall, rfl⟩ := (hmapM hes).mp hfound
    exact ⟨es, hes, hall, hid es⟩
  · rintro ⟨es, hes, hall, rfl⟩
    rw [hes]
    change (es.mapM fun e => at? s types (base.child e.1)).map _ = _
    rw [(hmapM hes).mpr ⟨hall, rfl⟩]
    exact congrArg Except.ok (hid es)

lemma within_error (sound : s.files.Sound) {failure : Failure}
    (settled : ∀ es, s.entries base = .ok es → ∀ e ∈ es, e.2.isDirectory = true →
      ∀ t ∈ types, ∃ b, t.fits s (base.child e.1) = .ok b)
    (h : (within s types base).result = .error failure) : failure = .nameTooLong := by
  rw [within_result] at h
  rcases bind_error_iff.mp h with hes | ⟨es, hes, hfound⟩
  · exact Surroundings.entries_error hes
  · obtain ⟨e, he, hentry⟩ := mapM_error (map_error_iff.mp hfound)
    rw [at?_entry sound hes he (settled es hes e he), map_error_iff] at hentry
    exact Surroundings.isDirectory_error hentry

/-- No project in a directory is found twice. -/
lemma nodup_entries (sound : s.files.Sound) (hes : s.entries base = .ok es) :
    (es.filterMap (ofEntry s types base)).Nodup := by
  have hsound := Surroundings.entries_sound sound hes
  have hdistinct : es.Pairwise fun e e' => e.1 ≠ e'.1 := List.pairwise_map.mp hsound.distinct
  refine List.pairwise_filterMap.mpr (hdistinct.imp_of_mem ?_)
  rintro e e' he he' hne p hp p' hp' rfl
  obtain ⟨-, hpath, -⟩ := ofEntry_eq_some_iff.mp hp
  obtain ⟨-, hpath', -⟩ := ofEntry_eq_some_iff.mp hp'
  exact hne (Path.child_inj (hsound.entry he).1 (hsound.entry he').1
    (hpath.symm.trans hpath')).2

end Entries

/-- The projects in the directory that a text stands for. -/
def search (s : Surroundings) (types : List ProjectType) (d : Text) : Noted (List Project) :=
  (Noted.ofExcept (s.expand d)).bind (within s types)

lemma Settled.entries (settled : Settled s types d) {base : Path} (hbase : s.expand d = .ok base)
    (es : List (Text × Tree)) (hes : s.entries base = .ok es) (e : Text × Tree) (he : e ∈ es)
    (hdirectory : e.2.isDirectory = true) :
    ∀ t ∈ types, ∃ b, t.fits s (base.child e.1) = .ok b :=
  settled (base.child e.1) ⟨base, es, e, hbase, hes, he, hdirectory, rfl⟩

lemma search_ok_iff (sound : s.files.Sound) (settled : Settled s types d) {ps : List Project} :
    (search s types d).result = .ok ps ↔ ∃ base es, s.expand d = .ok base ∧
      s.entries base = .ok es ∧ (∀ e ∈ es, ∃ b, s.isDirectory (base.child e.1) = .ok b) ∧
      ps = es.filterMap (ofEntry s types base) := by
  rw [search, Noted.bind_result]
  have hwithin {base : Path} (hbase : s.expand d = .ok base) :
      (within s types base).result = .ok ps ↔ ∃ es, s.entries base = .ok es ∧
        (∀ e ∈ es, ∃ b, s.isDirectory (base.child e.1) = .ok b) ∧
        ps = es.filterMap (ofEntry s types base) :=
    within_ok_iff sound (settled.entries hbase)
  constructor
  · intro h
    obtain ⟨base, hbase, h⟩ := bind_ok h
    obtain ⟨es, hrest⟩ := (hwithin hbase).mp h
    exact ⟨base, es, hbase, hrest⟩
  · rintro ⟨base, es, hbase, hrest⟩
    change (s.expand d).bind _ = _
    rw [hbase]
    exact (hwithin hbase).mpr ⟨es, hrest⟩

/-- Nothing but the length of a path keeps the projects in a directory from being found. -/
lemma search_error (sound : s.files.Sound) (settled : Settled s types d) {base : Path}
    (hbase : s.expand d = .ok base) {failure : Failure}
    (h : (search s types d).result = .error failure) : failure = .nameTooLong := by
  rw [search, Noted.bind_result] at h
  change (s.expand d).bind _ = _ at h
  rw [hbase] at h
  exact within_error sound (settled.entries hbase) h

theorem exists_search_iff (sound : s.files.Sound) (settled : Settled s types d) :
    (∃ ps, (search s types d).result = .ok ps) ↔ s.Searchable d := by
  constructor
  · rintro ⟨ps, h⟩
    obtain ⟨base, es, hbase, hes, hall, -⟩ := (search_ok_iff sound settled).mp h
    exact ⟨base, es, hbase, hes, hall⟩
  · rintro ⟨base, es, hbase, hes, hall⟩
    exact ⟨_, (search_ok_iff sound settled).mpr ⟨base, es, hbase, hes, hall, rfl⟩⟩

/-- What is found in a directory are its projects, each once. -/
theorem search_finds (sound : s.files.Sound) (settled : Settled s types d) {ps : List Project}
    (h : (search s types d).result = .ok ps) : ps.Nodup ∧ ∀ p, p ∈ ps ↔ FoundIn s types d p := by
  obtain ⟨base, es, hbase, hes, -, rfl⟩ := (search_ok_iff sound settled).mp h
  refine ⟨nodup_entries sound hes, fun p => ?_⟩
  rw [List.mem_filterMap]
  constructor
  · rintro ⟨e, he, hp⟩
    obtain ⟨hdirectory, hpath, htypes, hne⟩ := ofEntry_eq_some_iff.mp hp
    exact ⟨⟨base, es, e, hbase, hes, he, hdirectory, hpath⟩, htypes, hne⟩
  · rintro ⟨⟨base', es', e, hbase', hes', he, hdirectory, hpath⟩, htypes, hne⟩
    obtain rfl := Except.ok.inj (hbase.symm.trans hbase')
    obtain rfl := Except.ok.inj (hes.symm.trans hes')
    exact ⟨e, he, ofEntry_eq_some_iff.mpr ⟨hdirectory, hpath, htypes, hne⟩⟩

/-! ### Entries in another order -/

section Relisted

variable (h : s.Relisted s')
include h

lemma hasMarker_unique {p : Path} {marker : Text} {b c : Bool}
    (hb : hasMarker s p marker = .ok b) (hc : hasMarker s' p marker = .ok c) : b = c := by
  rw [hasMarker] at hb hc
  split at hb
  · next hwild =>
    rw [if_pos hwild] at hc
    cases hparts : Glob.parse marker with
    | error e =>
      rw [hparts] at hb
      cases hb
    | ok parts =>
      rw [hparts] at hb hc
      obtain ⟨there, hthere, hb⟩ := bind_ok hb
      obtain ⟨there', hthere', hc⟩ := bind_ok hc
      rw [← h.isDirectory_eq] at hthere'
      obtain rfl := Except.ok.inj (hthere.symm.trans hthere')
      cases there with
      | true => exact Glob.found_unique h hb hc
      | false => exact Except.ok.inj (hb.symm.trans hc)
  · next hwild =>
    rw [if_neg hwild, ← h.has_eq] at hc
    exact Except.ok.inj (hb.symm.trans hc)

lemma hasSomeMarker_unique {p : Path} {markers : List Text} {b c : Bool}
    (hb : hasSomeMarker s p markers = .ok b) (hc : hasSomeMarker s' p markers = .ok c) :
    b = c := by
  induction markers with
  | nil => exact Except.ok.inj (hb.symm.trans hc)
  | cons m ms ih =>
    rw [hasSomeMarker] at hb hc
    cases hm : hasMarker s p m with
    | error e =>
      rw [hm] at hb
      cases hb
    | ok found =>
      cases hm' : hasMarker s' p m with
      | error e =>
        rw [hm'] at hc
        cases hc
      | ok found' =>
        obtain rfl := hasMarker_unique h hm hm'
        rw [hm] at hb
        rw [hm'] at hc
        cases found with
        | true => exact Except.ok.inj (hb.symm.trans hc)
        | false => exact ih hb hc

lemma subdirectory_relisted {p : Path} (hp : s.Subdirectory d p) : s'.Subdirectory d p := by
  obtain ⟨base, es, e, hbase, hes, he, hdirectory, rfl⟩ := hp
  obtain ⟨es', hes'⟩ := h.exists_entries hes
  obtain ⟨e', he', hsame⟩ := h.exists_entry hes hes' he
  exact ⟨base, es', (e.1, e'), h.expand_eq d ▸ hbase, hes', he', hsame ▸ hdirectory, rfl⟩

lemma searchable_relisted (hd : s.Searchable d) : s'.Searchable d := by
  obtain ⟨base, es, hbase, hes, hall⟩ := hd
  obtain ⟨es', hes'⟩ := h.exists_entries hes
  refine ⟨base, es', h.expand_eq d ▸ hbase, hes', fun e' he' => ?_⟩
  obtain ⟨e, he, -⟩ := h.symm.exists_entry hes' hes he'
  rw [← h.isDirectory_eq]
  exact hall (e'.1, e) he

lemma foundIn_relisted (settled : Settled s types d) (settled' : Settled s' types d)
    {p : Project} (hp : FoundIn s types d p) : FoundIn s' types d p := by
  have inside := subdirectory_relisted h hp.inside
  have hfitting : fitting s types p.path = fitting s' types p.path := by
    refine List.filter_congr fun t ht => ?_
    obtain ⟨b, hb⟩ := settled p.path hp.inside t ht
    obtain ⟨c, hc⟩ := settled' p.path inside t ht
    obtain rfl := hasSomeMarker_unique h hb hc
    rw [hb, hc]
  exact ⟨inside, hp.types_eq.trans hfitting, hp.typed⟩

end Relisted
end Project
end Runbook
