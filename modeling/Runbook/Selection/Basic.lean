import Runbook.Text.Basic

/-! What is offered for selection, and what comes back. -/
namespace Runbook

/-- An entry that can be chosen: the title is shown, the value is returned. -/
structure Candidate where
  title : Text
  value : Text
  deriving DecidableEq, Repr

/-- A candidate that is shown as its value. -/
def Candidate.plain (s : Text) : Candidate := ⟨s, s⟩

/-- How a selection is made; nothing leaves a choice to the selector. -/
structure SelectionOptions where
  exact : Option Bool := none
  ignoreCase : Option Bool := none
  multiple : Bool := false
  query : Option Text := none
  prompt : Option Text := none
  header : Option Text := none
  deriving DecidableEq, Repr

inductive Selection where
  | chosen (values : List Text)
  /-- Nothing fits. -/
  | empty
  /-- The user turned away. -/
  | cancelled
  deriving DecidableEq, Repr

/-- A selection of these values, or the empty one when there are none. -/
def Selection.ofValues (values : List Text) : Selection :=
  if values.isEmpty then .empty else .chosen values

end Runbook
