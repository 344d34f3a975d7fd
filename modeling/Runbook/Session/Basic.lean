import Runbook.CommandLine.Invocation
import Runbook.Execution.Deed
import Runbook.Selection.Backend
import Runbook.Session.Choice
import Runbook.Settings.Files

/-! One use of the program, as a dialogue with the world outside. -/
namespace Runbook
open CommandLine Resolution

/-- What the program asks of the world outside. -/
inductive Request where
  /-- A text is written to the output. -/
  | print (text : Text)
  /-- A text is written where messages go. -/
  | report (text : Text)
  /-- The user will choose with a backend. -/
  | chooseWith (backend : Backend)
  /-- Commands will be evaluated in a directory. -/
  | evaluateIn (directory : Path) (options : ExecOptions)
  | about (question : Question)
  | run (command : Command) (inputs : Inputs) (directory : Path) (options : ExecOptions)
    (extra : List Text) (interactive : Bool)
  | edit (location : Location)

instance : Asking Request where
  Answer
    | .about q => Asking.Answer q
    | .run .. => Except Failure Int
    | .edit _ => Except Failure Int
    | _ => Unit

structure Session where
  surroundings : Surroundings
  config : Config
  /-- The level from which on messages are shown. -/
  level : Level
  /-- The program was started from a terminal. -/
  interactive : Bool

/-- The program writes a text and is done. -/
def printed (text : Text) : Dialogue Request Int := .ask (.print text) fun _ => .done 0

/-- Notes are for debugging. -/
def reported (level : Level) : List Note → Dialogue Request Unit
  | [] => .done ()
  | n :: ns => .ask (.report (level.line .debug n.message)) fun _ => reported level ns

/-- Something with its notes reported. -/
def withNotes {α : Type} (level : Level) (x : Noted α) : Dialogue Request α :=
  (reported level x.notes).bind fun _ => .ofExcept x.result

namespace Session

def selectionOptions (s : Session) : SelectionOptions where
  exact := s.config.exactMatch
  ignoreCase := s.config.ignoreCase

def execOptions (s : Session) : ExecOptions where
  useDirenv := s.config.useDirenv.getD false
  useNix := s.config.useNix.getD false
  terminal := s.config.terminal
  forceTerminal := s.config.forceTerminal.getD false

/-- The current directory. -/
def directory (s : Session) : Path := .ofPlace s.surroundings.directory

def types (s : Session) : List ProjectType := s.config.projectTypes

/-- A question is put as it is, an evaluation after a note of it. -/
def put (s : Session) : (q : Question) → Dialogue Request (Asking.Answer q)
  | .output c inputs wantedBy =>
    (reported s.level [.evaluating c.name wantedBy]).bind fun _ =>
      Dialogue.query (Request.about (.output c inputs wantedBy))
  | .selection o cs => Dialogue.query (Request.about (.selection o cs))

/-- The questions of a course are requests of the session. -/
def consult {α : Type} (s : Session) : Course α → Dialogue Request α := Dialogue.rephrase s.put

/-- The commands of a project refer to one another. -/
def context (s : Session) (p : Project) : Context where
  index := .ofList (p.usable s.config.commands)
  options := s.selectionOptions

/-- Resolves a command and runs it. -/
def execute (s : Session) (p : Project) (c : Command) (extra : List Text) :
    Dialogue Request Int :=
  .ask (.evaluateIn p.path s.execOptions) fun _ =>
    (s.consult ((s.context p).resolve [] c)).bind fun inputs =>
      .ask (.run c inputs p.path s.execOptions extra s.interactive) .ofExcept

/-- The commands that are offered in a project, one a line. -/
def listing (s : Session) (p : Project) : Text :=
  Text.unlines ((p.offered s.config.commands).map (Command.captioned ['\t']))

/-- A command in a project. -/
def runIn (s : Session) (p : Project) (r : RunCommand) : Dialogue Request Int :=
  if r.list then printed (s.listing p)
  else
    (s.consult (Choice.command s.selectionOptions p s.config.commands r.command)).bind fun c =>
      if r.select then printed (c.shown ++ ['\n'])
      else if r.edit then
        match c.location with
        | none => .fail (.noLocation c.name)
        | some l => .ask (.edit l) .ofExcept
      else s.execute p c r.arguments

/-- A command in the current project. -/
def run (s : Session) (r : Option RunCommand) : Dialogue Request Int :=
  (Dialogue.ofExcept (Project.around s.surroundings s.types s.directory)).bind fun p =>
    (reported s.level [.projectFound p.path.toText]).bind fun _ =>
      match r with
      | some r => s.runIn p r
      | none => .fail .subcommandMissing

/-- The paths of projects with some text in them, one a line. -/
def projectListing (text : Text) (ps : List Project) : Text :=
  let paths := ps.map fun p => p.path.toText
  Text.unlines (paths.filter fun path => Text.occursIn (Text.lower text) (Text.lower path))

/-- A command in a project from the list. -/
def project (s : Session) (r : ProjectCommand) : Dialogue Request Int :=
  (withNotes s.level (Project.all s.surroundings s.types s.config.projectDirs)).bind fun ps =>
    if r.list then printed (projectListing (r.project.getD []) ps)
    else
      (s.consult (Choice.project s.selectionOptions s.surroundings s.types ps r.project)).bind
        fun p =>
          if r.select then printed (p.path.toText ++ ['\n'])
          else s.runIn p { command := r.command, arguments := r.arguments }

/-- The command that a source with its placeholders makes. It has no name, so that it is in nobody's
way. -/
def sourceCommand (e : EvalCommand) : Except Failure Command :=
  ((e.placeholders.mapM Placeholder.parse).mapError Failure.ofPlaceholder).map fun placeholders =>
    { name := [], language := .ofTag e.language, source := endLine e.source, placeholders }

/-- A source in the current project. -/
def eval (s : Session) (e : EvalCommand) : Dialogue Request Int :=
  (Dialogue.ofExcept (Project.around s.surroundings s.types s.directory)).bind fun p =>
    (Dialogue.ofExcept (sourceCommand e)).bind fun c => s.execute p c []

def perform (s : Session) : Option Subcommand → Dialogue Request Int
  | some (.run r) => s.run (some r)
  | some (.project r) => s.project r
  | some (.eval e) => s.eval e
  | none => s.run none

end Session

/-- A failure that the user can mend is told, and ends the program with its exit status. -/
def told (e : Failure) : Dialogue Request Int :=
  match e.exitStatus? with
  | some status => .ask (.report (Text.trimEnd e.message ++ ['\n'])) fun _ => .done status
  | none => .fail e

/-- What an invocation does, up to its exit code. -/
def CommandLine.Invocation.perform (i : Invocation) (s : Surroundings) (interactive : Bool) :
    Dialogue Request Int :=
  let debugging := (s.filled? "NIXON_DEBUG").isSome
  let here : Path := .ofPlace s.directory
  let course :=
    (withNotes (.inForce debugging i.logLevel)
      (Config.load s here (i.config.map Path.ofText) (some i.settings))).bind fun config =>
        .ask (.chooseWith (config.backend.getD (Backend.standard interactive))) fun _ =>
          Session.perform ⟨s, config, .inForce debugging config.logLevel, interactive⟩
            i.subcommand
  course.rescue told

end Runbook
