import Runbook.Command
import Runbook.Files.Glob
import Runbook.Log
import Runbook.Settings.Basic
import Runbook.Text.Order

/-! Projects: directories with markers of some type in them. -/
namespace Runbook

/-- The types that are known without any settings. -/
def ProjectType.standard : List ProjectType := [
  ⟨"git", [".git"], "Git repository"⟩,
  ⟨"hg", [".hg"], "Mercurial repository"⟩,
  ⟨"nix", ["shell.nix", "default.nix"], "Nix project"⟩,
  ⟨"npm", ["package.json"], "NPM project"⟩,
  ⟨"yarn", ["yarn.lock"], "Yarn project"⟩,
  ⟨"cabal", ["cabal.project"], "Cabal new-style project"⟩,
  ⟨"direnv", [".envrc"], "Direnv project"⟩,
  ⟨"project", [".project"], "Generic project"⟩]

/-- A directory has a marker: a path below it that exists, or something that fits a pattern. -/
def hasMarker (s : Surroundings) (p : Path) (marker : Text) : Except Failure Bool :=
  if Glob.hasWildcard marker then
    match Glob.parse marker with
    | .error e => .error e
    | .ok parts => do if ← s.isDirectory p then Glob.found s p parts else return false
  else s.has (p.child marker)

/-- A directory has one of some markers. Those after the first that it has are not looked at. -/
def hasSomeMarker (s : Surroundings) (p : Path) : List Text → Except Failure Bool
  | [] => .ok false
  | m :: ms =>
    match hasMarker s p m with
    | .ok false => hasSomeMarker s p ms
    | answer => answer

def ProjectType.fits (s : Surroundings) (p : Path) (t : ProjectType) : Except Failure Bool :=
  hasSomeMarker s p t.markers

structure Project where
  path : Path
  types : List ProjectType := []
  deriving DecidableEq, Repr

namespace Project

def name (p : Project) : Text := p.path.name

def tags (p : Project) : Tags := .ofList (p.types.map ProjectType.name)

/-- The types of a directory, in the order in which they are declared. -/
def typesOf (s : Surroundings) (types : List ProjectType) (p : Path) :
    Except Failure (List ProjectType) :=
  match types with
  | [] => .ok []
  | t :: ts =>
    match t.fits s p with
    | .error e => .error e
    | .ok fits =>
      match typesOf s ts p with
      | .error e => .error e
      | .ok more => .ok (if fits then t :: more else more)

/-- The project of a directory, if it is one. -/
def of? (s : Surroundings) (types : List ProjectType) (p : Path) :
    Except Failure (Option Project) :=
  (typesOf s types p).map fun found => if found.isEmpty then none else some ⟨p, found⟩

/-- The first of some directories that is a project. -/
def firstOf? (s : Surroundings) (types : List ProjectType) :
    List Path → Except Failure (Option Project)
  | [] => .ok none
  | p :: ps =>
    match of? s types p with
    | .ok none => firstOf? s types ps
    | answer => answer

/-- The nearest project around a path. -/
def around? (s : Surroundings) (types : List ProjectType) (p : Path) :
    Except Failure (Option Project) := do
  firstOf? s types (← s.upwards p)

/-- The nearest project around a path, or the path itself as a project without types. -/
def around (s : Surroundings) (types : List ProjectType) (p : Path) : Except Failure Project := do
  match ← around? s types p with
  | some found => return found
  | none => return ⟨.ofPlace (← s.place p), []⟩

/-- The project at a path, if there is a directory that is one. -/
def at? (s : Surroundings) (types : List ProjectType) (p : Path) :
    Except Failure (Option Project) := do
  if ← s.isDirectory p then of? s types p else return none

/-- The projects in a directory; a missing one has none. -/
def within (s : Surroundings) (types : List ProjectType) (p : Path) : Noted (List Project) := do
  if ← .ofExcept (s.isDirectory p) then
    let entries ← .ofExcept (s.entries p)
    let found ← .ofExcept (entries.mapM fun e => at? s types (p.child e.1))
    return found.filterMap id
  else
    Noted.note (.directoryMissing p.toText)
    return []

/-- Projects are listed by their names, those of one name by their paths. -/
def before (p q : Project) : Bool :=
  !(Text.precedes q.name p.name ||
    q.name = p.name && Text.precedes q.path.toText p.path.toText)

/-- The projects in several directories. -/
def all (s : Surroundings) (types : List ProjectType) (dirs : List Text) : Noted (List Project) :=
  (Noted.forAll (fun d => (Noted.ofExcept (s.expand d)).bind (within s types)) dirs).bind
    fun found => pure (found.flatten.mergeSort before)

/-- A command can be used in a project: it is for all projects or for one of its types. -/
def accepts (p : Project) (c : Command) : Bool := c.types.isEmpty || c.types.meets p.tags

/-- The commands that can be referred to in a project. -/
def usable (p : Project) (cs : List Command) : List Command := cs.filter p.accepts

/-- The commands that are offered in a project. -/
def offered (p : Project) (cs : List Command) : List Command := (p.usable cs).filter (!·.hidden)

end Project
end Runbook
