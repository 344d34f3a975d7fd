import Runbook.Json.Printer
import Runbook.Json.Reader
import Runbook.Placeholder.Basic
import Runbook.Selection.Basic

/-! From the output of a command to candidates, by the format of a placeholder. -/
namespace Runbook

/-- Candidates under an optional header. -/
structure Menu where
  candidates : List Candidate
  header : Option Text := none
  deriving DecidableEq, Repr

namespace Menu

/-- The values of all candidates. -/
def values (m : Menu) : List Text := m.candidates.map Candidate.value

/-- The parts at some positions, counted from one, with a space between them. Positions without a
part are passed over. -/
def pick (parts : List Text) (positions : List Nat) : Text :=
  Text.unwords (positions.filterMap fun n => if n = 0 then none else parts[n - 1]?)

/-- The columns of a line. A row of tabs separates them, and so does a row of two or more spaces;
inside a row of either, its character is passed over. -/
def columns (inside : Option Char) : Text → List Text
  | [] => [[]]
  | c :: s =>
    if inside = some c then columns inside s
    else if c = '\t' || c = ' ' && s.head? = some ' ' then [] :: columns (some c) s
    else match columns none s with
      | [] => [[c]]
      | w :: ws => (c :: w) :: ws

/-- The lines that are not blank. -/
def rows (output : Text) : List Text := (Text.lines output).filter (!Text.isBlankText ·)

/-- The text of a JSON value: a string as it is, anything else as a document. -/
def jsonText : Value → Text
  | .text s => s
  | v => Json.write v

/-- The candidates of a JSON document: the members of an object, valued by their names, the items
of a list, or the document itself. -/
def ofJson : Value → List Candidate
  | .map entries => entries.map fun e => ⟨Json.nameOf e.1 ++ " - " ++ jsonText e.2, Json.nameOf e.1⟩
  | .list items => items.map fun v => .plain (jsonText v)
  | v => [.plain (jsonText v)]

/-- The menu that a command's output offers. -/
def ofOutput (format : Format) (output : Text) : Except Json.Problem Menu :=
  let rows := rows output
  match format with
  | .json => (Json.parse output).map fun v => ⟨ofJson v, none⟩
  | .lines => .ok ⟨rows.map .plain, none⟩
  | .fields positions => .ok ⟨rows.map fun l => ⟨l, pick (Text.words l) positions⟩, none⟩
  | .columns header positions =>
    let entry (l : Text) : Candidate :=
      if positions.isEmpty then .plain l else ⟨l, pick (columns none (Text.trim l)) positions⟩
    if header then .ok ⟨(rows.drop 1).map entry, rows.head?⟩ else .ok ⟨rows.map entry, none⟩

end Menu
end Runbook
