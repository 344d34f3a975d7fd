import Runbook.Tags

/-! The project types in force under a heading: its own and those of the headings above it. -/
namespace Runbook.Catalog

/-- The headings that are open, outermost first, each with its level and its own types. -/
abbrev Scope := List (Int × Tags)

namespace Scope

/-- The open headings that a heading of some level leaves open: those of lower levels. -/
def lineage (scope : Scope) (level : Int) : Scope := scope.filter (·.1 < level)

/-- The types of all open headings. -/
def types (scope : Scope) : Tags := scope.foldr (fun h ts => h.2 ∪ ts) ∅

/-- A heading opens, with its own types. -/
def enter (scope : Scope) (level : Int) (own : Tags) : Scope :=
  scope.lineage level ++ [(level, own)]

@[simp] theorem mem_types {t : Text} {scope : Scope} :
    t ∈ scope.types ↔ ∃ h ∈ scope, t ∈ h.2 := by
  induction scope with
  | nil => simp [types]
  | cons h hs ih =>
    simp only [types] at ih ⊢
    simp [ih]

end Scope
end Runbook.Catalog
