import Runbook.Command
import Runbook.Files.Path
import Runbook.Resolution.Dialogue
import Runbook.Resolution.Inputs

/-! What running a command does to the world outside: scripts are written and removed, and child
processes started. -/
namespace Runbook

/-- A child process to be started. Arguments with a null character, for which no process can be
started at all, are outside the model. -/
structure Call where
  argv : List Text
  /-- Its directory, unless it is the current one. -/
  directory : Option Path := none
  /-- The variables that are set besides those of the surroundings, if any can be. -/
  environment : Option (List (Text × Text)) := none
  input : Option Text := none
  deriving DecidableEq, Repr

/-- How a child process ended. -/
structure Outcome where
  code : Int
  output : Text
  errors : Text
  deriving DecidableEq, Repr

inductive Deed where
  /-- A script is written to a new file, whose name is chosen between a beginning and an end; the
  answer is its path. -/
  | writeScript (start finish content : Text)
  | removeScript (path : Text)
  /-- A process is run to its end; there is no outcome if its program is missing. Nothing is said of
  calls whose arguments have a null character in them. -/
  | run (call : Call)
  /-- A process is started and left alone; the answer is whether its program is there. -/
  | detach (call : Call)
  deriving DecidableEq, Repr

instance : Asking Deed where
  Answer
    | .writeScript .. => Text
    | .removeScript _ => Unit
    | .run _ => Option Outcome
    | .detach _ => Bool

/-- A dialogue and something that is done after it, also when it fails. -/
def Dialogue.endingWith {Q α : Type} [Asking Q] (d : Dialogue Q α) (last : Dialogue Q Unit) :
    Dialogue Q α :=
  match d with
  | .done a => last.bind fun _ => .done a
  | .fail e => last.bind fun _ => .fail e
  | .ask q next => .ask q fun a => (next a).endingWith last

/-- How commands are started. -/
structure ExecOptions where
  useDirenv : Bool := false
  useNix : Bool := false
  /-- The terminal for commands that are started outside of one. -/
  terminal : Option Text := none
  /-- No terminal is ever opened. -/
  forceTerminal : Bool := false
  deriving DecidableEq, Repr

end Runbook
