import Runbook.Text.Basic

/-! The settings that a catalog may carry in its configuration block. A setting left out is decided
by another layer. -/
namespace Runbook

/-- The programs that let the user choose. -/
inductive Backend where
  | fzf
  | rofi
  deriving DecidableEq, Repr

def Backend.name : Backend → Text
  | fzf => "fzf"
  | rofi => "rofi"

/-- The names of log levels; two of them mean the same. -/
inductive LevelName where
  | debug
  | info
  | warning
  | warn
  | error
  deriving DecidableEq, Repr

def LevelName.name : LevelName → Text
  | debug => "debug"
  | info => "info"
  | warning => "warning"
  | warn => "warn"
  | error => "error"

/-- A type of project: the files or directories that mark a directory as one of this type. -/
structure ProjectType where
  name : Text
  markers : List Text := []
  description : Text := []
  deriving DecidableEq, Repr

/-- A command declared among the settings. -/
structure CommandEntry where
  name : Text
  source : Text
  language : Text := "bash"
  types : List Text := []
  description : Option Text := none
  deriving DecidableEq, Repr

/-- The settings with one value each. -/
structure Options where
  backend : Option Backend := none
  exactMatch : Option Bool := none
  ignoreCase : Option Bool := none
  forceTerminal : Option Bool := none
  useDirenv : Option Bool := none
  useNix : Option Bool := none
  terminal : Option Text := none
  logLevel : Option LevelName := none
  deriving DecidableEq, Repr

structure Settings extends Options where
  projectDirs : List Text := []
  projectTypes : List ProjectType := []
  commands : List CommandEntry := []
  deriving DecidableEq, Repr

end Runbook
