import Runbook.Project
import Runbook.Resolution.Walk

/-! How the user comes to one command or one project: by its exact name, or from a menu. -/
namespace Runbook
open Resolution

/-- The name of a command with its description, if it has one, after a separator. -/
def Command.captioned (separator : Text) (c : Command) : Text :=
  match c.description with
  | none => c.name
  | some d => if d.isEmpty then c.name else c.name ++ separator ++ d

/-- A command is shown with its description and chosen by its name. -/
def Command.candidate (c : Command) : Candidate := ⟨c.captioned " - ", c.name⟩

namespace Choice

/-- The one value that is chosen among things of a kind; of several the first counts. -/
def one (o : SelectionOptions) (kind : Text) (query : Option Text) (cs : List Candidate) :
    Course Text :=
  (selection { o with query, prompt := some kind } cs).bind fun
    | .chosen (v :: _) => .done v
    | .chosen [] => .fail (.emptySelection (.thing kind))
    | .empty => .fail (.emptySelection (.thing kind))
    | .cancelled => .fail (.cancelledSelection (.thing kind))

/-- The thing that a value stands for, if there is one. -/
def known {α : Type} : Option α → Course α
  | some x => .done x
  | none => .fail .unofferedChoice

/-- The command that a query names; hidden ones can be named, too. -/
def named? (p : Project) (cs : List Command) (query : Option Text) : Option Command :=
  (query.filter fun q => !q.isEmpty).bind (Index.ofList (p.usable cs)).get?

/-- A command from the menu of those that are offered in a project. -/
def offeredCommand (o : SelectionOptions) (p : Project) (cs : List Command)
    (query : Option Text) : Course Command :=
  let index := Index.ofList (p.offered cs)
  if index.commands.isEmpty then .fail (.noCommands p.path.toText)
  else
    (one o "command" query (index.commands.map Command.candidate)).bind fun name =>
      known (index.get? name)

/-- The command that is meant by a query. -/
def command (o : SelectionOptions) (p : Project) (cs : List Command) (query : Option Text) :
    Course Command :=
  match named? p cs query with
  | some c => .done c
  | none => offeredCommand o p cs query

/-- The query for the project around the current directory. -/
def currentProject : Text := ['.']

/-- The project that a query names: the current one, or the first in the list with that name. -/
def namedProject? (s : Surroundings) (types : List ProjectType) (ps : List Project)
    (query : Text) : Except Failure (Option Project) :=
  let current :=
    if query = currentProject then Project.around? s types (.ofPlace s.directory) else .ok none
  current.map fun found => found <|> ps.find? fun p => !query.isEmpty && p.name = query

/-- A project from the menu of all. -/
def listedProject (o : SelectionOptions) (ps : List Project) (query : Option Text) :
    Course Project :=
  if ps.isEmpty then .fail .noProjects
  else
    let paths := (ps.map fun p => p.path.toText).eraseDups
    (one o "project" (query.filter (· != currentProject)) (paths.map .plain)).bind fun path =>
      known (ps.find? fun p => p.path.toText = path)

/-- The project that is meant by a query. -/
def project (o : SelectionOptions) (s : Surroundings) (types : List ProjectType)
    (ps : List Project) (query : Option Text) : Course Project :=
  match namedProject? s types ps (query.getD []) with
  | .error e => .fail e
  | .ok (some p) => .done p
  | .ok none => listedProject o ps query

end Choice
end Runbook
