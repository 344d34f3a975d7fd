import Runbook.CommandLine.Grammar
import Runbook.Settings.Basic

/-! The command line of the program: options for all sub-commands, then one of these with its own
options and operands. -/
namespace Runbook.CommandLine

/-- Choosing a command in the current project, and running it. -/
structure RunCommand where
  command : Option Text := none
  arguments : List Text := []
  list : Bool := false
  select : Bool := false
  edit : Bool := false
  deriving DecidableEq, Repr

/-- Choosing a project, and running a command in it. -/
structure ProjectCommand where
  project : Option Text := none
  command : Option Text := none
  arguments : List Text := []
  list : Bool := false
  select : Bool := false
  deriving DecidableEq, Repr

/-- Running a source that is given on the command line. -/
structure EvalCommand where
  source : Text := []
  placeholders : List Text := []
  language : Text := "bash"
  deriving DecidableEq, Repr

inductive Subcommand where
  | run (c : RunCommand)
  | project (c : ProjectCommand)
  | eval (c : EvalCommand)
  deriving DecidableEq, Repr

structure Invocation extends Options where
  config : Option Text := none
  projectDirs : List Text := []
  subcommand : Option Subcommand := none
  /-- The arguments of the sub-command that belong to nothing. -/
  unknown : List Text := []
  deriving DecidableEq, Repr

/-- Help is given at once. -/
def help {σ : Type} : Switch σ := ⟨["-h", "--help"], .flag fun _ => .error .answered⟩

def flag {σ : Type} (names : List Text) (set : σ → σ) : Switch σ :=
  ⟨names, .flag fun s => .ok (set s)⟩

def valued {σ : Type} (names : List Text) (set : Text → σ → σ) : Switch σ :=
  ⟨names, .valued fun v s => .ok (set v s)⟩

/-- An option whose value is the name of one of some things. -/
def oneOf {σ α : Type} (names : List Text) (things : List α) (name : α → Text)
    (set : α → σ → σ) : Switch σ :=
  ⟨names, .valued fun v s =>
    match things.find? fun x => name x = v with
    | some x => .ok (set x s)
    | none => .error .misuse⟩

/-- An operand of at most one argument. -/
def single {σ : Type} (arity : Arity) (set : Text → σ → σ) : Operand σ :=
  ⟨arity, fun words s => .ok (match words with
    | [] => s
    | w :: _ => set w s)⟩

def several {σ : Type} (set : List Text → σ → σ) : Operand σ :=
  ⟨.many, fun words s => .ok (set words s)⟩

def RunCommand.grammar : Grammar RunCommand where
  switches := [
    help,
    flag ["-l", "--list"] ({ · with list := true }),
    flag ["-s", "--select"] ({ · with select := true }),
    flag ["-E", "--edit"] ({ · with edit := true })]
  operands := [
    single .optional fun w s => { s with command := some w },
    several fun ws s => { s with arguments := ws }]

def ProjectCommand.grammar : Grammar ProjectCommand where
  switches := [
    help,
    flag ["-l", "--list"] ({ · with list := true }),
    flag ["-s", "--select"] ({ · with select := true })]
  operands := [
    single .optional fun w s => { s with project := some w },
    single .optional fun w s => { s with command := some w },
    several fun ws s => { s with arguments := ws }]

def EvalCommand.grammar : Grammar EvalCommand where
  switches := [help, valued ["--language"] fun v s => { s with language := v }]
  operands := [
    single .one fun w s => { s with source := w },
    several fun ws s => { s with placeholders := ws }]

/-- The words that name sub-commands. -/
def runWord : Text := "run"

def subcommandWords : List Text := [runWord, "project", "eval"]

/-- A sub-command by its word, with the arguments after it. -/
def readSubcommand (words : List Text) (i : Invocation) : Except Stop Invocation :=
  let found {σ : Type} (make : σ → Subcommand) (r : Except Stop (σ × List Text)) :
      Except Stop Invocation :=
    r.map fun (c, unknown) => { i with subcommand := some (make c), unknown }
  match words with
  | [] => .error .misuse
  | w :: rest =>
    if w = runWord then found .run (RunCommand.grammar.read rest {})
    else if w = "project".toList then found .project (ProjectCommand.grammar.read rest {})
    else if w = "eval".toList then found .eval (EvalCommand.grammar.read rest {})
    else .error .misuse

def LevelName.offered : List LevelName := [.debug, .error, .info, .warn, .warning]

def Invocation.grammar : Grammar Invocation where
  switches := [
    help,
    ⟨["-v", "--version"], .flag fun _ => .error .answered⟩,
    valued ["-C", "--config"] fun v i => { i with config := some v },
    oneOf ["-b", "--backend"] [Backend.fzf, .rofi] Backend.name
      fun b i => { i with backend := some b },
    flag ["-e", "--exact"] ({ · with exactMatch := some true }),
    flag ["--no-exact"] ({ · with exactMatch := some false }),
    flag ["-i", "--ignore-case"] ({ · with ignoreCase := some true }),
    flag ["--no-ignore-case"] ({ · with ignoreCase := some false }),
    flag ["-T", "--force-tty"] ({ · with forceTerminal := some true }),
    valued ["-p", "--path"] fun v i => { i with projectDirs := i.projectDirs ++ [v] },
    flag ["-d", "--direnv"] ({ · with useDirenv := some true }),
    flag ["--no-direnv"] ({ · with useDirenv := some false }),
    flag ["-n", "--nix"] ({ · with useNix := some true }),
    flag ["--no-nix"] ({ · with useNix := some false }),
    valued ["-t", "--terminal"] fun v i => { i with terminal := some v },
    oneOf ["-L", "--loglevel"] LevelName.offered LevelName.name
      fun l i => { i with logLevel := some l }]
  operands := [⟨.rest, readSubcommand⟩]

/-- The options before a sub-command that take a value. -/
def valueOptions : List Text :=
  ["-C", "--config", "-b", "--backend", "-p", "--path", "-t", "--terminal", "-L", "--loglevel"]

/-- The options that end the matter. -/
def answeredOptions : List Text := ["-h", "--help", "-v", "--version"]

/-- The options before a sub-command that take no value. -/
def bareOptions : List Text := [
  "-e", "--exact", "--no-exact", "-i", "--ignore-case", "--no-ignore-case", "-T", "--force-tty",
  "-d", "--direnv", "--no-direnv", "-n", "--nix", "--no-nix"]

/-- The option that an argument is, without the value after an equals sign. -/
def optionOf (word : Text) : Text :=
  if ['-', '-'].isPrefixOf word then word.takeWhile (· != '=') else word

/-- The command line with the word for running a command put before the first argument that is no
option of the program, unless a sub-command is given or the options end the matter. -/
def withSubcommand : List Text → List Text
  | [] => [runWord]
  | w :: rest =>
    if subcommandWords.contains w then w :: rest
    else if valueOptions.contains (optionOf w) then
      if w.contains '=' then w :: withSubcommand rest
      else match rest with
        | [] => [w, runWord]
        | v :: rest => w :: v :: withSubcommand rest
    else if answeredOptions.contains (optionOf w) then w :: rest
    else if bareOptions.contains (optionOf w) then w :: withSubcommand rest
    else runWord :: w :: rest

/-- The invocation that a command line asks for. -/
def Invocation.parse (words : List Text) : Except Stop Invocation :=
  match Invocation.grammar.read (withSubcommand words) {} with
  | .error e => .error e
  | .ok (i, extra) => if i.unknown.isEmpty && extra.isEmpty then .ok i else .error .misuse

/-- The settings that an invocation puts over all others. -/
def Invocation.settings (i : Invocation) : Settings :=
  { i.toOptions with projectDirs := i.projectDirs }

end Runbook.CommandLine
