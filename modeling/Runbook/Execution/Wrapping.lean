import Runbook.Execution.Deed
import Runbook.Files.Surroundings
import Runbook.Shell

/-! The command line that runs a script: its interpreter, the environment of its project, and a
terminal where there is none. -/
namespace Runbook.Execution

/-- The files that describe an environment, the preferred one first. -/
def environmentFiles : List Text := ["shell.nix", "default.nix"]

/-- The command line of a script. -/
def scriptLine (c : Command) (script : Text) : Except Failure (List Text) :=
  match c.language.interpreter? with
  | some program => .ok [program, script]
  | none => .error (.unsupportedLanguage c.name c.language)

/-- The file that describes the environment around a directory. -/
def environmentFile? (s : Surroundings) (directory : Path) : Except Failure (Option Path) :=
  environmentFiles.findSomeM? (s.dominating? directory)

/-- A command line inside the environment of the project around a directory, where there is one
and it is wanted. -/
def wrapEnvironment (s : Surroundings) (directory : Path) (o : ExecOptions) (argv : List Text) :
    Except Failure (List Text) := do
  let envrc ← if o.useDirenv then s.dominating? directory ".envrc" else pure none
  if envrc.isSome then return "direnv".toList :: "exec".toList :: directory.toText :: argv
  else
    match ← if o.useNix then environmentFile? s directory else pure none with
    | some file => return ["nix-shell", file.toText, "--run", Shell.join argv]
    | none => return argv

/-- A command line in a terminal. A background command, and one that is started from a terminal,
needs none. -/
def wrapTerminal (background interactive : Bool) (o : ExecOptions) (argv : List Text) :
    Except Failure (List Text) :=
  match o.terminal with
  | none => .ok argv
  | some terminal =>
    if terminal.isEmpty || background || interactive || o.forceTerminal then .ok argv
    else (Shell.split terminal).map (· ++ "-e".toList :: argv)

end Runbook.Execution
