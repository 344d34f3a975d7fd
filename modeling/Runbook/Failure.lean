import Runbook.Command
import Runbook.Json.Fault
import Runbook.Placeholder.Fault
import Runbook.Settings.Basic
import Runbook.Settings.Issue
import Runbook.Text.Utf8
import Runbook.Yaml.Problem

/-! Everything that can go wrong, as causes, and the one place where they are put into words. -/
namespace Runbook

/-- A place in a catalog: its path, and a line when one is known. -/
structure Site where
  path : Text
  line : Option Int
  deriving DecidableEq, Repr

/-- The words for a place. -/
def Site.show (s : Site) : Text :=
  s.path ++ match s.line with
    | some n => ':' :: Text.ofInt n
    | none => []

/-- What can be wrong with a catalog. -/
inductive CatalogFault where
  | sourceExpected (heading : Text)
  | placeholder (heading : Text) (fault : Placeholder.Fault) (position : Nat)
  | placeholdersTwice (name : Text)
  | settingsExpected
  | settingsRepeated
  | settingsLanguage (language : Language)
  | settingsJson (error : Json.Error)
  | settingsYaml
  | settingsNotMapping
  | settingsInvalid (issues : List Issue)
  deriving DecidableEq, Repr

/-- What can be wrong with a command that is declared among the settings. -/
inductive EntryFault where
  | placeholder (entry : Text) (fault : Placeholder.Fault) (position : Nat)
  | unnamed
  deriving DecidableEq, Repr

/-- What a selection was for: the values of a placeholder, or a thing such as a command. -/
inductive Wanted where
  | values (name : Text)
  | thing (kind : Text)
  deriving DecidableEq, Repr

inductive Failure where
  -- reading
  | placeholder (fault : Placeholder.Fault) (position : Nat)
  | catalog (site : Site) (fault : CatalogFault)
  | entry (origin : Text) (fault : EntryFault)
  | settings (issues : List Issue)
  | configMissing (path : Text)
  | json (error : Json.Error)
  | longNumeral (digits : Nat)
  | tooDeep
  | yaml (problem : Yaml.Problem)
  | undecodable (error : Text.Undecodable)
  -- resolving
  | unknownReference (name : Text)
  | cyclicReference (chain : List Text)
  | endlessReference
  | emptySelection (wanted : Wanted)
  | cancelledSelection (wanted : Wanted)
  | noCommands (path : Text)
  | noProjects
  | unofferedChoice
  | invalidOutput (name : Text) (error : Json.Error)
  | commandFailed (name : Text) (code : Int) (errors : Text)
  -- selecting
  | unknownBackend (name : Text)
  | selectorMissing (backend : Backend)
  | selectorFailed (backend : Backend) (code : Int)
  | notInteger (base : Nat) (written : Text)
  -- running
  | unsupportedLanguage (name : Text) (language : Language)
  | executableMissing (program : Text)
  | editorMissing (program : Text)
  | editorUnnamed
  | noLocation (name : Text)
  | unclosedQuotation
  | danglingEscape
  | nulByte
  | nameTooLong
  | fileMissing
  -- settings of the program itself
  | subcommandMissing
  | unknownLevel (name : Text)
  | looseStars
  | absolutePattern
  deriving DecidableEq, Repr

/-- A text in backticks. -/
def quoted (s : Text) : Text := '`' :: s ++ ['`']

/-- A fault of a placeholder with its position. -/
def Placeholder.Fault.located (fault : Placeholder.Fault) (position : Nat) : Text :=
  fault.message ++ " at position " ++ Text.ofNat position

def CatalogFault.message : CatalogFault → Text
  | sourceExpected heading => "Expecting source block for " ++ quoted heading
  | placeholder heading fault position => quoted heading ++ ": " ++ fault.located position
  | placeholdersTwice name =>
    name ++ " uses placeholders in both command header and source code block"
  | settingsExpected => "Expecting config source after header"
  | settingsRepeated => "Found multiple configuration blocks"
  | settingsLanguage language => "Invalid config language: " ++ language.name
  | settingsJson error => "Invalid JSON config: " ++ error.message
  | settingsYaml => "Invalid YAML config:"
  | settingsNotMapping => "Config block must be a mapping"
  | settingsInvalid _ => "Invalid config:"

def EntryFault.message : EntryFault → Text
  | placeholder entry fault position =>
    "command " ++ quoted entry ++ ": " ++ fault.located position
  | unnamed => "command without a name"

namespace Failure

def message : Failure → Text
  | placeholder fault position => fault.located position
  | catalog site fault => site.show ++ ' ' :: fault.message
  | entry origin fault => origin ++ ": " ++ fault.message
  | settings _ => []
  | configMissing path => "Config file not found: " ++ path
  | json error => error.message
  | longNumeral digits => (Number.Unreadable.longNumeral digits).message
  | tooDeep => []
  | yaml problem => problem.message?.getD []
  | undecodable error => error.message
  | unknownReference name => "invalid argument: " ++ quoted name
  | cyclicReference chain =>
    "cyclic placeholder reference: " ++ Text.joinWith " -> " (chain.map quoted)
  | endlessReference => []
  | emptySelection (.values name) => "nothing selected for " ++ quoted name
  | cancelledSelection (.values name) => "selection cancelled for " ++ quoted name
  | emptySelection (.thing kind) => "No " ++ kind ++ " selected."
  | cancelledSelection (.thing kind) => "No " ++ kind ++ " selected."
  | noCommands path => "No commands available for " ++ path ++ "."
  | noProjects => "No projects."
  | unofferedChoice => []
  | invalidOutput name error =>
    quoted name ++ " did not produce valid JSON: " ++ error.message
  | commandFailed name code errors =>
    let text := "command " ++ quoted name ++ " failed with exit code " ++ Text.ofInt code
    if Text.isBlankText errors then text else text ++ ": " ++ Text.trim errors
  | unknownBackend name => "Unknown selector backend '" ++ name ++ "'. Expected 'fzf' or 'rofi'"
  | selectorMissing backend => backend.name ++ " not found in PATH"
  | selectorFailed backend code =>
    backend.name ++ " failed with exit code " ++ Text.ofInt code
  | notInteger base written => (Number.Unreadable.notInteger base written).message
  | unsupportedLanguage name language =>
    "Cannot execute " ++ quoted name ++ ": unsupported language (" ++ language.name ++ ")"
  | executableMissing program => "Executable not found: " ++ program
  | editorMissing program => "Editor not found: " ++ program
  | editorUnnamed => []
  | noLocation name => "No source location for " ++ quoted name
  | unclosedQuotation => "No closing quotation"
  | danglingEscape => "No escaped character"
  | nulByte => "embedded null byte"
  | nameTooLong => []
  | fileMissing => []
  | subcommandMissing => []
  | unknownLevel name =>
    "Unknown log level '" ++ name ++ "'. Expected one of: debug, info, warning, warn, error"
  | looseStars => "Invalid pattern: '**' can only be an entire path component"
  | absolutePattern => []

/-- The exit status for failures that the user is told about: one when nothing was chosen, two for
the others. The rest are crashes. -/
def exitStatus? : Failure → Option Nat
  | emptySelection _ => some 1
  | cancelledSelection _ => some 1
  | noCommands _ => some 1
  | noProjects => some 1
  | unofferedChoice => none
  | endlessReference => none
  | tooDeep => none
  | nameTooLong => none
  | fileMissing => none
  | editorUnnamed => none
  | subcommandMissing => none
  | absolutePattern => none
  | yaml problem => problem.message?.map fun _ => 2
  | _ => some 2

/-- A placeholder that cannot be read. -/
def ofPlaceholder : Placeholder.Problem → Failure
  | .fault cause position => placeholder cause position
  | .longNumeral digits => longNumeral digits

end Failure
end Runbook
