import Runbook.Proofs.Session.Ending

/-! The course of an invocation up to the one deed that it ends with. A session makes up its mind
first, by choices alone; then the inputs of the chosen command are resolved, if it is to be run; and
only after that anything is done. -/
namespace Runbook
open CommandLine Resolution

/-! ### The phases -/

/-- What is left to do when the project and the command are chosen. -/
inductive Intent where
  | print (text : Text)
  | edit (location : Location)
  | execute (project : Project) (command : Command) (extra : List Text)

/-- The deed at the end, with all that it takes. -/
inductive Errand where
  | print (text : Text)
  | edit (location : Location)
  | run (command : Command) (inputs : Inputs) (directory : Path) (options : ExecOptions)
    (extra : List Text) (interactive : Bool)

namespace Errand

def request : Errand → Request
  | print text => .print text
  | edit location => .edit location
  | run c inputs directory options extra interactive =>
    .run c inputs directory options extra interactive

/-- The exit code of the program after the deed. -/
def status : (e : Errand) → Asking.Answer e.request → Except Failure Int
  | print _, _ => .ok 0
  | edit _, a => a
  | run .., a => a

def carryOut (e : Errand) : Dialogue Request Int := .ask e.request fun a => .ofExcept (e.status a)

end Errand

namespace Session

/-- The session of a configuration. -/
def started (s : Surroundings) (interactive : Bool) (config : Config) : Session :=
  ⟨s, config, .inForce (s.filled? "NIXON_DEBUG").isSome config.logLevel, interactive⟩

/-- What a command in a project comes to. -/
def intentIn (s : Session) (p : Project) (r : RunCommand) : Dialogue Request Intent :=
  if r.list then .done (.print (s.listing p))
  else
    (s.consult (Choice.command s.selectionOptions p s.config.commands r.command)).bind fun c =>
      if r.select then .done (.print (c.shown ++ ['\n']))
      else if r.edit then
        match c.location with
        | none => .fail (.noLocation c.name)
        | some l => .done (.edit l)
      else .done (.execute p c r.arguments)

/-- What a sub-command comes to. -/
def intent (s : Session) : Subcommand → Dialogue Request Intent
  | .run r =>
    (Dialogue.ofExcept (Project.around s.surroundings s.types s.directory)).bind fun p =>
      (reported s.level [.projectFound p.path.toText]).bind fun _ => s.intentIn p r
  | .project r =>
    (withNotes s.level (Project.all s.surroundings s.types s.config.projectDirs)).bind fun ps =>
      if r.list then .done (.print (projectListing (r.project.getD []) ps))
      else
        (s.consult (Choice.project s.selectionOptions s.surroundings s.types ps r.project)).bind
          fun p =>
            if r.select then .done (.print (p.path.toText ++ ['\n']))
            else s.intentIn p { command := r.command, arguments := r.arguments }
  | .eval e =>
    (Dialogue.ofExcept (Project.around s.surroundings s.types s.directory)).bind fun p =>
      (Dialogue.ofExcept (sourceCommand e)).bind fun c => .done (.execute p c [])

/-- The deed for an intent; the inputs of a command that is to be run are resolved for it. -/
def prepare (s : Session) : Intent → Dialogue Request Errand
  | .print text => .done (.print text)
  | .edit location => .done (.edit location)
  | .execute p c extra =>
    .ask (.evaluateIn p.path s.execOptions) fun _ =>
      (s.consult ((s.context p).resolve [] c)).bind fun inputs =>
        .done (.run c inputs p.path s.execOptions extra s.interactive)

end Session

/-- The arguments for the command that a sub-command runs. -/
def CommandLine.Subcommand.extra : Subcommand → List Text
  | .run r => r.arguments
  | .project r => r.arguments
  | .eval _ => []

/-- Something is only shown. -/
def CommandLine.Subcommand.showsOnly : Subcommand → Bool
  | .run r => r.list || r.select
  | .project r => r.list || r.select
  | .eval _ => false

namespace CommandLine.Invocation

/-- The configuration that an invocation loads. -/
def loading (i : Invocation) (s : Surroundings) : Dialogue Request Config :=
  withNotes (.inForce (s.filled? "NIXON_DEBUG").isSome i.logLevel)
    (Config.load s (.ofPlace s.directory) (i.config.map Path.ofText) (some i.settings))

/-- The request for a backend that suits a configuration. -/
def backendRequest (interactive : Bool) (config : Config) : Request :=
  .chooseWith (config.backend.getD (Backend.standard interactive))

/-- An invocation up to the deed at its end. -/
def prepare (i : Invocation) (s : Surroundings) (interactive : Bool) (sub : Subcommand) :
    Dialogue Request Errand :=
  (i.loading s).bind fun config =>
    .ask (backendRequest interactive config) fun _ =>
      ((Session.started s interactive config).intent sub).bind
        (Session.started s interactive config).prepare

end CommandLine.Invocation

/-! ### The phases make up the invocation -/

namespace Session

/-- What is done for an intent. -/
def pursue (s : Session) (intent : Intent) : Dialogue Request Int :=
  (s.prepare intent).bind Errand.carryOut

lemma pursue_execute (s : Session) (p : Project) (c : Command) (extra : List Text) :
    s.pursue (.execute p c extra) = s.execute p c extra := by
  unfold pursue prepare execute
  change Dialogue.ask _ _ = Dialogue.ask _ _
  congr 1
  funext u
  exact Dialogue.bind_assoc _ _ _

lemma runIn_eq (s : Session) (p : Project) (r : RunCommand) :
    s.runIn p r = (s.intentIn p r).bind s.pursue := by
  unfold runIn intentIn
  split
  · rfl
  · apply Dialogue.bind_eq_bind
    intro c
    split
    · rfl
    · split
      · cases c.location <;> rfl
      · exact (s.pursue_execute p c r.arguments).symm

lemma perform_eq (s : Session) (sub : Subcommand) :
    s.perform (some sub) = (s.intent sub).bind s.pursue := by
  cases sub with
  | run r =>
    apply Dialogue.bind_eq_bind
    intro p
    apply Dialogue.bind_eq_bind
    intro u
    exact s.runIn_eq p r
  | project r =>
    apply Dialogue.bind_eq_bind
    intro ps
    split
    · rfl
    · apply Dialogue.bind_eq_bind
      intro p
      split
      · rfl
      · exact s.runIn_eq p _
  | eval e =>
    apply Dialogue.bind_eq_bind
    intro p
    apply Dialogue.bind_eq_bind
    intro c
    exact (s.pursue_execute p c []).symm

end Session

namespace CommandLine.Invocation

/-- An invocation carries out what it has prepared, and tells about the failures of both. -/
theorem perform_eq (i : Invocation) (s : Surroundings) (interactive : Bool) {sub : Subcommand}
    (named : i.subcommand = some sub) :
    i.perform s interactive =
      ((i.prepare s interactive sub).bind Errand.carryOut).rescue told := by
  change ((i.loading s).bind fun config =>
    .ask (backendRequest interactive config) fun _ =>
      (Session.started s interactive config).perform i.subcommand).rescue told = _
  rw [named]
  congr 1
  apply Dialogue.bind_eq_bind
  intro config
  change Dialogue.ask _ _ = Dialogue.ask _ _
  congr 1
  funext u
  rw [Session.perform_eq]
  exact (Dialogue.bind_assoc _ _ _).symm

end CommandLine.Invocation

end Runbook
