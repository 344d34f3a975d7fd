import Mathlib.Tactic.Common
import Runbook.Files.Surroundings
import Runbook.Proofs.Files.Tree

/-! What a path leads to where the program runs. It does not depend on the order in which
directories list their entries. -/
namespace Runbook

lemma map_ok {α β : Type} {x : Except Failure α} {f : α → β} {b : β} (h : x.map f = .ok b) :
    ∃ a, x = .ok a ∧ f a = b := by
  cases x with
  | error e => cases h
  | ok a => exact ⟨a, rfl, Except.ok.inj h⟩

lemma map_error_iff {α β : Type} {x : Except Failure α} {f : α → β} {e : Failure} :
    x.map f = .error e ↔ x = .error e := by
  cases x <;> simp [Except.map]

lemma bind_ok {α β : Type} {x : Except Failure α} {f : α → Except Failure β} {r : β}
    (h : x.bind f = .ok r) : ∃ a, x = .ok a ∧ f a = .ok r := by
  cases x with
  | error e => cases h
  | ok a => exact ⟨a, rfl, h⟩

lemma bind_error_iff {α β : Type} {x : Except Failure α} {f : α → Except Failure β} {e : Failure} :
    x.bind f = .error e ↔ x = .error e ∨ ∃ a, x = .ok a ∧ f a = .error e := by
  cases x <;> simp [Except.bind]

namespace Surroundings

/-- The same surroundings, but that directories may list their entries in other orders. -/
structure Relisted (s s' : Surroundings) : Prop where
  files : s.files.Relisted s'.files
  same : { s with files := s'.files } = s'

variable {s s' : Surroundings} {p : Path} {failure : Failure}

/-- Where the parts of a path are looked for first. -/
def start (s : Surroundings) (p : Path) : Place := if p.isAbsolute then [] else s.directory

lemma expandVariables_dollar (s : Surroundings) (r : Text) :
    s.expandVariables ('$' :: r) =
      match reference? r with
      | some (name, rest) =>
        match s.lookup? name with
        | some v => v ++ s.expandVariables rest
        | none => '$' :: r.take (r.length - rest.length) ++ s.expandVariables rest
      | none => '$' :: s.expandVariables r := by
  rw [expandVariables]
  split
  · next name rest hread => cases hname : s.lookup? name <;> simp only [hread, hname]
  · next hread => simp only [hread]

lemma expandVariables_plain {t : Text} (h : '$' ∉ t) : s.expandVariables t = t := by
  induction t with
  | nil => rw [expandVariables]
  | cons c t ih =>
    obtain ⟨hc, ht⟩ := not_or.mp (mt List.mem_cons.mpr h)
    rw [expandVariables, ih ht]
    exact fun hdollar => hc hdollar.symm

/-- A text without any signs stands for the path that it writes. -/
lemma expand_plain {t : Text} (hhome : '~' ∉ t) (hdollar : '$' ∉ t) :
    s.expand t = .ok (.ofText t) := by
  have hraw : s.expandHome t = .ok t := by
    unfold expandHome
    split
    · simp at hhome
    · rfl
  rw [expand, hraw]
  exact congrArg (Except.ok ∘ Path.ofText) (expandVariables_plain hdollar)

lemma find?_eq (s : Surroundings) (p : Path) :
    s.find? p = if p.hasNull then .ok none
      else if p.isLong || s.files.meets Path.isLongName (s.start p) p.parts then
        .error .nameTooLong
      else .ok (s.files.walk? (s.start p) p.parts) := rfl

/-- Nothing but its length, or that of a name on its way, keeps a path from being looked up. -/
lemma find?_error (h : s.find? p = .error failure) : failure = .nameTooLong := by
  rw [find?_eq] at h
  split at h
  · cases h
  · split at h
    · cases h
      rfl
    · cases h

lemma has_error (h : s.has p = .error failure) : failure = .nameTooLong :=
  find?_error (map_error_iff.mp h)

lemma tree?_error (h : s.tree? p = .error failure) : failure = .nameTooLong :=
  find?_error (map_error_iff.mp h)

lemma isDirectory_error (h : s.isDirectory p = .error failure) : failure = .nameTooLong :=
  tree?_error (map_error_iff.mp h)

lemma entries_error (h : s.entries p = .error failure) : failure = .nameTooLong :=
  tree?_error (map_error_iff.mp h)

/-- What a path leads to, where that can be asked for. -/
lemma tree?_ok {found : Option Tree} (h : s.tree? p = .ok found) :
    found = if p.hasNull then none else
      (s.files.walk? (s.start p) p.parts).bind s.files.at? := by
  rw [tree?, find?_eq] at h
  split at h
  · next hnull =>
    rw [if_pos hnull]
    exact (Except.ok.inj h).symm
  · next hnull =>
    rw [if_neg hnull]
    by_cases hlong : (p.isLong || s.files.meets Path.isLongName (s.start p) p.parts) = true
    · rw [if_pos hlong] at h
      cases h
    · rw [if_neg hlong] at h
      exact (Except.ok.inj h).symm

lemma tree?_sound (sound : s.files.Sound) {t : Tree} (h : s.tree? p = .ok (some t)) : t.Sound := by
  have hplace := tree?_ok h
  split at hplace
  · cases hplace
  · obtain ⟨place, -, ht⟩ := Option.bind_eq_some_iff.mp hplace.symm
    exact sound.at? ht

lemma exists_tree {es : List (Text × Tree)} (h : s.entries p = .ok es) {e : Text × Tree}
    (he : e ∈ es) : ∃ t, s.tree? p = .ok (some t) ∧ e ∈ t.entries := by
  obtain ⟨found, htree, rfl⟩ := map_ok h
  cases found with
  | none => cases he
  | some t => exact ⟨t, htree, he⟩

/-- What is listed is listed by a directory, or is nothing. -/
lemma entries_sound (sound : s.files.Sound) {es : List (Text × Tree)} (h : s.entries p = .ok es) :
    (Tree.directory es).Sound := by
  obtain ⟨found, htree, rfl⟩ := map_ok h
  cases found with
  | none => exact .directory List.nodup_nil (List.forall_mem_nil _) (List.forall_mem_nil _)
  | some t =>
    have ht := tree?_sound sound htree
    exact .directory ht.distinct (fun e he => (ht.entry he).1) fun e he => (ht.entry he).2

/-- The way to an entry of a directory leads to what is listed. -/
lemma tree?_child (sound : s.files.Sound) {es : List (Text × Tree)} (hes : s.entries p = .ok es)
    {e : Text × Tree} (he : e ∈ es) {found : Option Tree}
    (h : s.tree? (p.child e.1) = .ok found) : found = some e.2 := by
  obtain ⟨t, htree, he⟩ := exists_tree hes he
  have hplace := tree?_ok htree
  split at hplace
  · cases hplace
  next hnull =>
  obtain ⟨place, hwalk, ht⟩ := Option.bind_eq_some_iff.mp hplace.symm
  have hsound := sound.at? ht
  have hname := (hsound.entry he).1
  have hnext : s.files.at? (place ++ [e.1]) = some e.2 := by
    rw [Tree.at?_append, ht, Option.bind_some, Tree.at?_singleton]
    exact hsound.mem_entries_iff.mp he
  have hstep : s.files.walk? place [e.1] = some (place ++ [e.1]) := by
    have hdirectory : t.isDirectory = true := by
      cases t with
      | file => cases he
      | directory => rfl
    rw [Tree.walk?_cons, Path.step, if_neg hname.2.2.1, ht, hnext, Option.any_some, hdirectory,
      Tree.walk?, hnext]
    rfl
  have hnull' : ¬ (p.child e.1).hasNull = true := by
    rw [Path.child_name hname, Path.hasNull, List.any_append, List.any_cons, List.any_nil,
      Bool.or_false, Bool.or_eq_true, not_or]
    exact ⟨hnull, by simpa using hname.2.2.2.2⟩
  rw [tree?_ok h, if_neg hnull', Path.child_name hname]
  change (s.files.walk? (s.start p) (p.parts ++ [e.1])).bind s.files.at? = _
  rw [Tree.walk?_append, hwalk, Option.bind_some, hstep, Option.bind_some, hnext]

lemma isDirectory_child (sound : s.files.Sound) {es : List (Text × Tree)}
    (hes : s.entries p = .ok es) {e : Text × Tree} (he : e ∈ es) {found : Bool}
    (h : s.isDirectory (p.child e.1) = .ok found) : found = e.2.isDirectory := by
  obtain ⟨o, htree, rfl⟩ := map_ok h
  rw [tree?_child sound hes he htree]
  rfl

/-! ### Entries in another order -/

namespace Relisted

lemma directory_eq (h : s.Relisted s') : s.directory = s'.directory := by
  rw [← h.same]

lemma symm (h : s.Relisted s') : s'.Relisted s :=
  ⟨h.files.symm, by rw [← h.same]⟩

lemma expandVariables_eq (h : s.Relisted s') (t : Text) :
    s.expandVariables t = s'.expandVariables t := by
  have hlookup (name : Text) : s.lookup? name = s'.lookup? name := by rw [← h.same]; rfl
  induction t using Surroundings.expandVariables.induct s with
  | case1 => rw [expandVariables, expandVariables]
  | case2 r name rest hread _ home hhome ih =>
    rw [expandVariables_dollar, expandVariables_dollar, hread]
    dsimp only
    rw [← hlookup, ih]
  | case3 r name rest hread _ hnone ih =>
    rw [expandVariables_dollar, expandVariables_dollar, hread]
    dsimp only
    rw [← hlookup, ih]
  | case4 r hread ih =>
    rw [expandVariables_dollar, expandVariables_dollar, hread]
    exact congrArg ('$' :: ·) ih
  | case5 c r hc ih => rw [expandVariables, expandVariables, ih] <;> exact hc

/-- What a text stands for does not depend on any files. -/
lemma expand_eq (h : s.Relisted s') (d : Text) : s.expand d = s'.expand d := by
  have hhome : s.expandHome d = s'.expandHome d := by rw [← h.same]; rfl
  rw [expand, expand, hhome]
  exact congrArg (Except.map · _) (funext fun t => by rw [h.expandVariables_eq])

lemma find?_eq (h : s.Relisted s') (p : Path) : s.find? p = s'.find? p := by
  rw [Surroundings.find?_eq, Surroundings.find?_eq, start, start, h.files.alike.meets_eq,
    h.files.alike.walk?_eq, h.directory_eq]

lemma has_eq (h : s.Relisted s') (p : Path) : s.has p = s'.has p := by
  rw [has, has, h.find?_eq]

/-- A path leads to the same in both, if it leads anywhere. -/
lemma tree? (h : s.Relisted s') (p : Path) :
    (∃ e, s.tree? p = .error e ∧ s'.tree? p = .error e) ∨
    (s.tree? p = .ok none ∧ s'.tree? p = .ok none) ∨
    ∃ t t', s.tree? p = .ok (some t) ∧ s'.tree? p = .ok (some t') ∧ t.Relisted t' := by
  rw [Surroundings.tree?, Surroundings.tree?, h.find?_eq]
  cases s'.find? p with
  | error e => exact .inl ⟨e, rfl, rfl⟩
  | ok found =>
    refine .inr ?_
    cases found with
    | none => exact .inl ⟨rfl, rfl⟩
    | some place =>
      change ((Except.ok (s.files.at? place) : Except Failure _) = _ ∧
        (Except.ok (s'.files.at? place) : Except Failure _) = _) ∨
        ∃ t t', (Except.ok (s.files.at? place) : Except Failure _) = _ ∧
          (Except.ok (s'.files.at? place) : Except Failure _) = _ ∧ _
      cases ht : s.files.at? place with
      | none =>
        have hnone := h.files.alike.isSome_eq place
        rw [ht] at hnone
        exact .inl ⟨rfl, congrArg Except.ok (by simpa using hnone.symm)⟩
      | some t =>
        obtain ⟨t', ht', hrelisted⟩ := h.files.at? ht
        exact .inr ⟨t, t', rfl, congrArg Except.ok ht', hrelisted⟩

lemma isDirectory_eq (h : s.Relisted s') (p : Path) : s.isDirectory p = s'.isDirectory p := by
  rw [isDirectory, isDirectory]
  rcases h.tree? p with ⟨e, he, he'⟩ | ⟨hnone, hnone'⟩ | ⟨t, t', ht, ht', hrelisted⟩
  · rw [he, he']
  · rw [hnone, hnone']
  · rw [ht, ht']
    exact congrArg Except.ok hrelisted.alike.isDirectory_eq

lemma exists_entries (h : s.Relisted s') {es : List (Text × Tree)} (hes : s.entries p = .ok es) :
    ∃ es', s'.entries p = .ok es' := by
  obtain ⟨found, htree, -⟩ := map_ok hes
  rcases h.tree? p with ⟨e, herror, -⟩ | ⟨-, hnone⟩ | ⟨t, t', -, ht, -⟩
  · cases htree.symm.trans herror
  · exact ⟨[], by rw [entries, hnone]; rfl⟩
  · exact ⟨t'.entries, by rw [entries, ht]; rfl⟩

/-- What a path lists in one, it lists in the other. -/
lemma exists_entry (h : s.Relisted s') {es es' : List (Text × Tree)} (hes : s.entries p = .ok es)
    (hes' : s'.entries p = .ok es') {e : Text × Tree} (he : e ∈ es) :
    ∃ e', (e.1, e') ∈ es' ∧ e.2.isDirectory = e'.isDirectory := by
  obtain ⟨t, ht, he⟩ := exists_tree hes he
  obtain ⟨found, htree, rfl⟩ := map_ok hes'
  rcases h.tree? p with ⟨e, herror, -⟩ | ⟨hnone, -⟩ | ⟨u, u', hu, hu', hrelisted⟩
  · cases ht.symm.trans herror
  · cases ht.symm.trans hnone
  · cases ht.symm.trans hu
    cases htree.symm.trans hu'
    exact hrelisted.exists_entry he

lemma mem_directories (h : s.Relisted s') {ways ways' : List Place}
    (hways : s.directories p = .ok ways) (hways' : s'.directories p = .ok ways') {way : Place} :
    way ∈ ways ↔ way ∈ ways' := by
  obtain ⟨found, htree, rfl⟩ := map_ok hways
  obtain ⟨found', htree', rfl⟩ := map_ok hways'
  rcases h.tree? p with ⟨e, herror, -⟩ | ⟨hnone, hnone'⟩ | ⟨t, t', ht, ht', hrelisted⟩
  · cases htree.symm.trans herror
  · cases htree.symm.trans hnone
    cases htree'.symm.trans hnone'
    rfl
  · cases htree.symm.trans ht
    cases htree'.symm.trans ht'
    exact hrelisted.mem_directories

end Relisted
end Surroundings
end Runbook
