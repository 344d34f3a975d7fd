import Runbook.Placeholder.Basic
import Runbook.Value

/-! What a command is started with. -/
namespace Runbook

structure Inputs where
  /-- The lines of standard input. -/
  lines : List Text := []
  arguments : List Text := []
  /-- Variables by name, each once. -/
  environment : List (Text × Text) := []
  deriving DecidableEq, Repr

namespace Inputs

/-- Standard input, if there is any. -/
def text? (i : Inputs) : Option Text :=
  if i.lines.isEmpty then none else some (Text.unlines i.lines)

/-- The inputs with the values that were chosen for a placeholder. A variable holds the values with
spaces between them; one that is set again keeps the later value. -/
def add (i : Inputs) (target : Target) (values : List Text) : Inputs :=
  match target with
  | .input => { i with lines := i.lines ++ values }
  | .argument => { i with arguments := i.arguments ++ values }
  | .environment name => { i with environment := Value.put i.environment name (Text.unwords values) }

end Inputs
end Runbook
