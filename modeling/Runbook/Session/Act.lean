import Runbook.Execution.Running
import Runbook.Session.Basic

/-! A session down to its acts: what is written, and what is done with scripts and processes. -/
namespace Runbook

inductive Act where
  | print (text : Text)
  | report (text : Text)
  | deed (d : Deed)

instance : Asking Act where
  Answer
    | .deed d => Asking.Answer d
    | _ => Unit

/-- What is in force for the questions of a session. -/
structure Means where
  backend : Backend := .fzf
  directory : Path := {}
  options : ExecOptions := {}

/-- Deeds as acts, with what comes out of them. -/
def Dialogue.acts {α : Type} (d : Dialogue Deed α) : Dialogue Act (Except Failure α) :=
  (d.rephrase fun q => Dialogue.query (Act.deed q)).attempt

/-- The acts that answer a question. -/
def Means.answer (m : Means) (s : Surroundings) :
    (q : Resolution.Question) → Dialogue Act (Asking.Answer q)
  | .output c inputs _ => (Execution.evaluate s c inputs m.directory m.options).acts
  | .selection o cs => (m.backend.select o cs).acts

/-- The acts of a session, from some means on. -/
def Means.perform {α : Type} (m : Means) (s : Surroundings) : Dialogue Request α → Dialogue Act α
  | .done a => .done a
  | .fail e => .fail e
  | .ask (.print text) next => .ask (.print text) fun u => m.perform s (next u)
  | .ask (.report text) next => .ask (.report text) fun u => m.perform s (next u)
  | .ask (.chooseWith backend) next => { m with backend }.perform s (next ())
  | .ask (.evaluateIn directory options) next =>
    { m with directory, options }.perform s (next ())
  | .ask (.about q) next => (m.answer s q).bind fun a => m.perform s (next a)
  | .ask (.run c inputs directory o extra interactive) next =>
    (Execution.run s c inputs directory o extra interactive).acts.bind fun a => m.perform s (next a)
  | .ask (.edit l) next => (Execution.edit s l).acts.bind fun a => m.perform s (next a)

/-- All acts of an invocation, up to its exit code. -/
def CommandLine.Invocation.acts (i : Invocation) (s : Surroundings) (interactive : Bool) :
    Dialogue Act Int :=
  ({} : Means).perform s (i.perform s interactive)

end Runbook
