import Runbook.Text.Basic

/-! Placeholders: the sites of a command that are filled with values chosen from the output of
another command. -/
namespace Runbook

/-- How the output of a command is cut into candidates. -/
inductive Format where
  /-- One candidate for each line. -/
  | lines
  /-- The words of each line at these positions, counted from one. -/
  | fields (positions : List Nat)
  /-- The columns of a table at these positions, or whole lines when there are none. -/
  | columns (header : Bool) (positions : List Nat)
  /-- The members of a JSON document. -/
  | json
  deriving DecidableEq, Repr

/-- Where the chosen values go. -/
inductive Target where
  | input
  | argument
  | environment (name : Text)
  deriving DecidableEq, Repr

/-- A placeholder names the command whose output offers its values. -/
structure Placeholder where
  target : Target
  name : Text
  format : Format := .lines
  /-- The query that the selection starts with. -/
  filter : Option Text := none
  /-- Several values may be chosen. -/
  multiple : Bool := false
  /-- All values are taken and nothing is chosen. -/
  takesAll : Bool := false
  deriving DecidableEq, Repr

/-- What a modifier asks for. -/
inductive Modifier where
  | format (f : Format)
  | filter (word : Text)
  | takeAll
  | multiple
  deriving DecidableEq, Repr

namespace Placeholder

/-- The placeholder with one more modifier; a format can be given only once. -/
def add (p : Placeholder) : Modifier → Option Placeholder
  | .format f => if p.format = .lines then some { p with format := f } else none
  | .filter w => some { p with filter := some w }
  | .takeAll => some { p with takesAll := true }
  | .multiple => some { p with multiple := true }

/-- The placeholder with several modifiers, one after another. -/
def addAll (p : Placeholder) : List Modifier → Option Placeholder
  | [] => some p
  | m :: ms => (p.add m).bind (addAll · ms)

end Placeholder
end Runbook
