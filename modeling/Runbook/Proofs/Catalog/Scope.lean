import Mathlib.Data.List.Sort
import Runbook.Catalog.Scope
import Runbook.Proofs.Catalog.Section

/-! The headings that are open after some sections, and the types in force there. -/
namespace Runbook
open Catalog

namespace Tags

/-- Sets with the same tags are equal. -/
theorem ext_mem {ts us : Tags} (h : ∀ t, t ∈ ts ↔ t ∈ us) : ts = us := by
  have hirrefl : Std.Irrefl fun s t => (Text.precedes s t : Prop) := ⟨fun s => by simp⟩
  have hantisymm : Std.Antisymm fun s t => (Text.precedes s t : Prop) := by
    refine ⟨fun s t hst hts => ?_⟩
    have hss := Text.precedes_trans hst hts
    simp at hss
  obtain ⟨ts, hts⟩ := ts
  obtain ⟨us, hus⟩ := us
  have hlist : ts = us := hts.eq_of_mem_iff hus h
  subst hlist
  rfl

end Tags

namespace Catalog.Section

/-- One more section closes those that are not less deep, and is open itself. -/
theorem opened_concat (ss : List Section) (s : Section) :
    opened (ss ++ [s]) = (opened ss).filter (·.level < s.level) ++ [s] := by
  induction ss with
  | nil => rfl
  | cons h ss ih =>
    rw [List.cons_append, opened, opened, ih, List.all_append]
    by_cases hdeeper : ss.all (h.level < ·.level) = true
    · by_cases hs : h.level < s.level
      · simp [hdeeper, hs]
      · simp [hdeeper, hs]
    · simp [hdeeper]

/-- The open headings as they are kept while a document is read. -/
def scope (ss : List Section) : Scope :=
  (opened ss).map fun s => ((s.level : Int), Tags.ofList s.types)

lemma enter_scope (ss : List Section) (s : Section) :
    (scope ss).enter s.level (.ofList s.types) = scope (ss ++ [s]) := by
  rw [scope, scope, opened_concat, Scope.enter, Scope.lineage, List.filter_map, List.map_append]
  congr 3
  funext h
  simp

lemma types_scope (ss : List Section) :
    (scope ss).types = .ofList ((opened ss).flatMap types) := by
  refine Tags.ext_mem fun t => ?_
  simp [scope]

end Catalog.Section
end Runbook
