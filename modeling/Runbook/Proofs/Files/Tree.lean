import Mathlib.Tactic.Common
import Runbook.Files.Tree
import Runbook.Proofs.Files.Path
import Runbook.Proofs.Lookup

/-! Trees of files as they can be: every directory has each name once. What stands where in such a
tree does not depend on the order in which directories list their entries. -/
namespace Runbook

namespace Tree

/-- No directory in the tree has a name twice, and all names are proper. -/
inductive Sound : Tree → Prop
  | file (bytes : List UInt8) : Sound (.file bytes)
  | directory {es : List (Text × Tree)} (distinct : (es.map Prod.fst).Nodup)
      (names : ∀ e ∈ es, IsName e.1) (inside : ∀ e ∈ es, Sound e.2) : Sound (.directory es)

/-- The bytes of a file; a directory has none. -/
def content : Tree → Option (List UInt8)
  | file bytes => some bytes
  | directory _ => none

/-- At every place there is the same in both trees: nothing, a directory, or a file with the same
bytes. Directories may list their entries in different orders. -/
def Alike (t u : Tree) : Prop := ∀ place, (t.at? place).map content = (u.at? place).map content

variable {t u : Tree} {place rest : Place} {name : Text}

lemma isDirectory_eq (t : Tree) : t.isDirectory = t.content.isNone := by cases t <;> rfl

lemma at?_append (t : Tree) (place rest : Place) :
    t.at? (place ++ rest) = (t.at? place).bind (·.at? rest) := by
  induction place generalizing t with
  | nil => rfl
  | cons name place ih =>
    rw [List.cons_append, at?, at?]
    cases t.child? name with
    | none => rfl
    | some e => exact ih e

lemma at?_singleton (t : Tree) (name : Text) : t.at? [name] = t.child? name := by
  rw [at?]
  cases t.child? name <;> rfl

/-! ### Sound trees -/

lemma Sound.mem_entries_iff (h : t.Sound) {e : Tree} :
    (name, e) ∈ t.entries ↔ t.child? name = some e := by
  cases h with
  | file => exact iff_of_false List.not_mem_nil nofun
  | directory distinct => exact (lookup_eq_some_of_nodup distinct).symm

lemma Sound.entry (h : t.Sound) {e : Text × Tree} (he : e ∈ t.entries) :
    IsName e.1 ∧ e.2.Sound := by
  cases h with
  | file => cases he
  | directory _ names inside => exact ⟨names e he, inside e he⟩

lemma Sound.distinct (h : t.Sound) : (t.entries.map Prod.fst).Nodup := by
  cases h with
  | file => exact List.nodup_nil
  | directory distinct => exact distinct

lemma Sound.at? (h : t.Sound) (hu : t.at? place = some u) : u.Sound := by
  induction place generalizing t with
  | nil =>
    obtain rfl := Option.some.inj hu
    exact h
  | cons name place ih =>
    rw [Tree.at?] at hu
    obtain ⟨e, he, hrest⟩ := Option.bind_eq_some_iff.mp hu
    exact ih (h.entry (h.mem_entries_iff.mpr he)).2 hrest

lemma mem_below {es : List (Text × Tree)} :
    place ∈ directories.below es ↔ ∃ e ∈ es, ∃ rest ∈ e.2.directories, place = e.1 :: rest := by
  induction es with
  | nil => simp [directories.below]
  | cons e es ih =>
    obtain ⟨name, t⟩ := e
    rw [directories.below, List.mem_append, List.mem_map, ih]
    simp [eq_comm]

/-- The directories of a sound tree are the places at which there is a directory. -/
theorem Sound.mem_directories_iff (h : t.Sound) :
    place ∈ t.directories ↔ (t.at? place).any isDirectory = true := by
  induction h generalizing place with
  | file bytes =>
    refine iff_of_false List.not_mem_nil ?_
    cases place <;> simp [Tree.at?, child?, entries, isDirectory, isFile]
  | @directory es distinct names inside ih =>
    rw [directories, List.mem_cons, mem_below]
    cases place with
    | nil => exact iff_of_true (.inl rfl) rfl
    | cons name rest =>
      have hchild (e : Tree) : (Tree.directory es).child? name = some e ↔ (name, e) ∈ es :=
        lookup_eq_some_of_nodup distinct
      rw [Tree.at?]
      constructor
      · rintro (hnil | ⟨⟨name', e⟩, he, rest', hrest, hplace⟩)
        · cases hnil
        · obtain ⟨rfl, rfl⟩ := List.cons.inj hplace
          rw [(hchild e).mpr he]
          exact (ih _ he).mp hrest
      · intro hany
        cases hfound : (Tree.directory es).child? name with
        | none =>
          rw [hfound] at hany
          cases hany
        | some e =>
          rw [hfound] at hany
          have he := (hchild e).mp hfound
          exact .inr ⟨(name, e), he, rest, (ih _ he).mpr hany, rfl⟩

/-! ### Trees in another order -/

namespace Alike

lemma symm (h : t.Alike u) : u.Alike t := fun place => (h place).symm

/-- Below a place, too, there is the same in both trees. -/
lemma at? (h : t.Alike u) {t' : Tree} (ht : t.at? place = some t') :
    ∃ u', u.at? place = some u' ∧ t'.Alike u' := by
  have hplace := h place
  rw [ht, Option.map_some] at hplace
  obtain ⟨u', hu, -⟩ := Option.map_eq_some_iff.mp hplace.symm
  refine ⟨u', hu, fun rest => ?_⟩
  have hrest := h (place ++ rest)
  rwa [at?_append, at?_append, ht, hu] at hrest

lemma isSome_eq (h : t.Alike u) (place : Place) :
    (t.at? place).isSome = (u.at? place).isSome := by
  have hplace := congrArg Option.isSome (h place)
  rwa [Option.isSome_map, Option.isSome_map] at hplace

lemma any_isDirectory_eq (h : t.Alike u) (place : Place) :
    (t.at? place).any isDirectory = (u.at? place).any isDirectory := by
  have hany (o : Option Tree) : o.any isDirectory = (o.map content).any Option.isNone := by
    rw [Option.any_map]
    exact congrArg o.any (funext isDirectory_eq)
  rw [hany, hany, h place]

lemma isDirectory_eq (h : t.Alike u) : t.isDirectory = u.isDirectory := h.any_isDirectory_eq []

end Alike

/-- The entries of one directory in another order. -/
theorem alike_directory {es es' : List (Text × Tree)} (distinct : (es.map Prod.fst).Nodup)
    (h : es.Perm es') : (directory es).Alike (directory es') := by
  intro place
  cases place with
  | nil => rfl
  | cons name rest =>
    have hchild : (directory es).child? name = (directory es').child? name :=
      lookup_eq_of_perm distinct h name
    rw [at?, at?, hchild]

/-- Two sound trees with the same in them. -/
structure Relisted (t u : Tree) : Prop where
  left : t.Sound
  right : u.Sound
  alike : t.Alike u

namespace Relisted

lemma symm (h : t.Relisted u) : u.Relisted t := ⟨h.right, h.left, h.alike.symm⟩

lemma at? (h : t.Relisted u) {t' : Tree} (ht : t.at? place = some t') :
    ∃ u', u.at? place = some u' ∧ t'.Relisted u' := by
  obtain ⟨u', hu, halike⟩ := h.alike.at? ht
  exact ⟨u', hu, h.left.at? ht, h.right.at? hu, halike⟩

/-- What a directory lists in one tree, it lists in the other. -/
lemma exists_entry (h : t.Relisted u) {e : Tree} (he : (name, e) ∈ t.entries) :
    ∃ e', (name, e') ∈ u.entries ∧ e.isDirectory = e'.isDirectory := by
  rw [h.left.mem_entries_iff, ← at?_singleton] at he
  obtain ⟨e', he', halike⟩ := h.alike.at? he
  rw [at?_singleton, ← h.right.mem_entries_iff] at he'
  exact ⟨e', he', halike.isDirectory_eq⟩

lemma mem_directories (h : t.Relisted u) : place ∈ t.directories ↔ place ∈ u.directories := by
  rw [h.left.mem_directories_iff, h.right.mem_directories_iff, h.alike.any_isDirectory_eq]

end Relisted

/-! ### Ways through a tree -/

lemma walk?_cons (t : Tree) (place : Place) (part : Text) (parts : List Text) :
    t.walk? place (part :: parts) =
      if (t.at? place).any isDirectory && (t.at? (Path.step place part)).isSome then
        t.walk? (Path.step place part) parts
      else none := by
  rw [walk?]
  cases t.at? place with
  | none => rfl
  | some u => cases u <;> simp [isDirectory, isFile]

lemma meets_cons (kind : Text → Bool) (t : Tree) (place : Place) (part : Text)
    (parts : List Text) :
    t.meets kind place (part :: parts) = ((t.at? place).any isDirectory && (kind part ||
      (t.at? (Path.step place part)).isSome && t.meets kind (Path.step place part) parts)) := by
  rw [meets]
  cases t.at? place with
  | none => rfl
  | some u => cases u <;> simp [isDirectory, isFile]

lemma Alike.walk?_eq (h : t.Alike u) (place : Place) (parts : List Text) :
    t.walk? place parts = u.walk? place parts := by
  induction parts generalizing place with
  | nil => rw [walk?, walk?, h.isSome_eq]
  | cons part parts ih =>
    rw [walk?_cons, walk?_cons, h.any_isDirectory_eq, h.isSome_eq, ih]

lemma Alike.meets_eq (h : t.Alike u) (kind : Text → Bool) (place : Place) (parts : List Text) :
    t.meets kind place parts = u.meets kind place parts := by
  induction parts generalizing place with
  | nil => rfl
  | cons part parts ih =>
    rw [meets_cons, meets_cons, h.any_isDirectory_eq, h.isSome_eq, ih]

lemma walk?_append (t : Tree) (place : Place) (parts more : List Text) :
    t.walk? place (parts ++ more) = (t.walk? place parts).bind (t.walk? · more) := by
  induction parts generalizing place with
  | nil =>
    rw [List.nil_append, walk?]
    split
    · rfl
    · next hnone =>
      have hnone : t.at? place = none := by simpa using hnone
      cases more with
      | nil => simp [walk?, hnone]
      | cons part more => simp [walk?_cons, hnone]
  | cons part parts ih =>
    rw [List.cons_append, walk?_cons, walk?_cons]
    split
    · exact ih _
    · rfl

end Tree
end Runbook
