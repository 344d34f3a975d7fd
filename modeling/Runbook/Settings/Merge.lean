import Runbook.Catalog.Extraction
import Runbook.Project

/-! One configuration from the settings of several catalogs. Later layers come first in lists and
win where there is one value only. -/
namespace Runbook

structure Config extends Options where
  projectDirs : List Text := []
  projectTypes : List ProjectType := []
  commands : List Command := []
  /-- The paths of the catalogs. -/
  sources : List Text := []
  deriving DecidableEq, Repr

/-- The options with those of a later layer over them. -/
def Options.over (later earlier : Options) : Options where
  backend := later.backend <|> earlier.backend
  exactMatch := later.exactMatch <|> earlier.exactMatch
  ignoreCase := later.ignoreCase <|> earlier.ignoreCase
  forceTerminal := later.forceTerminal <|> earlier.forceTerminal
  useDirenv := later.useDirenv <|> earlier.useDirenv
  useNix := later.useNix <|> earlier.useNix
  terminal := later.terminal <|> earlier.terminal
  logLevel := later.logLevel <|> earlier.logLevel

/-- A source ends with a line feed. -/
def endLine (source : Text) : Text :=
  if source.getLast? = some '\n' then source else source ++ ['\n']

/-- The command that an entry of the settings declares. -/
def CommandEntry.command (e : CommandEntry) (origin : Text) : Except Failure Command :=
  match Placeholder.splitName e.name with
  | .error (.fault cause position) => .error (.entry origin (.placeholder e.name cause position))
  | .error (.longNumeral digits) => .error (.longNumeral digits)
  | .ok (name, placeholders) =>
    if name.isEmpty then .error (.entry origin .unnamed)
    else .ok {
      name, placeholders
      language := .ofTag e.language
      source := endLine e.source
      types := .ofList e.types
      description := e.description
      hidden := isHiddenName name }

/-- The commands of a catalog: those under its headings, then those among its settings. -/
def Catalog.allCommands (c : Catalog) : Except Failure (List Command) :=
  match c.settings with
  | none => .ok c.commands
  | some s => (s.commands.mapM fun e => CommandEntry.command e c.path).map (c.commands ++ ·)

/-- The configuration of some catalogs, the least important first, with more settings over them
all. -/
def Config.merge (catalogs : List Catalog) (overrides : Option Settings) : Except Failure Config :=
  let layers := catalogs.filterMap Catalog.settings ++ overrides.toList
  let types := layers.reverse.flatMap Settings.projectTypes
  (catalogs.reverse.mapM Catalog.allCommands).map fun commands =>
    { layers.foldl (fun (o : Options) (s : Settings) => s.toOptions.over o) {} with
      projectDirs := layers.reverse.flatMap Settings.projectDirs
      projectTypes := if types.isEmpty then ProjectType.standard else types
      commands := commands.flatten
      sources := catalogs.map Catalog.path }

end Runbook
