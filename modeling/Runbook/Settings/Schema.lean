import Runbook.Number.Shortest
import Runbook.Settings.Basic
import Runbook.Settings.Issue
import Runbook.Text.Digits
import Runbook.Text.Quoted
import Runbook.Text.Utf8
import Runbook.Value

/-! Reading decoded data as settings. All issues are told: first those of the known keys in the
order of their declaration, then the unknown keys in the order of the data. -/
namespace Runbook.Schema

/-- A key has the spelling of documents and may have another one, which comes second. -/
structure Key where
  name : Text
  other : Option Text := none

/-- The spelling of a key that the data use. -/
def Key.used? (k : Key) (entries : List (Value × Value)) : Option Text :=
  if (Value.get? entries k.name).isSome then some k.name
  else k.other.bind fun n => if (Value.get? entries n).isSome then some n else none

def Key.find? (k : Key) (entries : List (Value × Value)) : Option Value :=
  (k.used? entries).bind (Value.get? entries)

/-- A field that may be left out. -/
def optional (k : Key) (standard : α) (read : Value → Checked α) (entries : List (Value × Value)) :
    Checked α :=
  match k.find? entries with
  | some v => (read v).below k.name
  | none => .good standard

def required (k : Key) (read : Value → Checked α) (entries : List (Value × Value)) : Checked α :=
  match k.find? entries with
  | some v => (read v).below k.name
  | none => (Checked.fail .missing).below k.name

def text : Value → Checked Text
  | .text s => .good s
  | .bytes bs =>
    match Text.decode bs with
    | .ok s => .good s
    | .error _ => .fail .unreadableText
  | _ => .fail .notText

/-- Null stands for a value left out. -/
def orNull (read : Value → Checked α) : Value → Checked (Option α)
  | .null => .good none
  | v => some <$> read v

/-- The words for false and true, in any case of the Latin letters. -/
def falseWords : List Text := ["0", "off", "f", "false", "n", "no"]

def trueWords : List Text := ["1", "on", "t", "true", "y", "yes"]

/-- A word that denotes a boolean. -/
def booleanWord (s : Text) : Checked Bool :=
  let word := s.map Char.toLower
  if falseWords.contains word then .good false
  else if trueWords.contains word then .good true
  else .fail .unknownBoolean

/-- Booleans, the numbers zero and one, and the words for them. Other words, and other integers of
64 bits, are no booleans though they might be; anything else cannot be one. -/
def boolean : Value → Checked Bool
  | .bool b => .good b
  | .text s => booleanWord s
  | .bytes bs =>
    match Text.decode bs with
    | .ok s => booleanWord s
    | .error _ => .fail .unknownBoolean
  | .int n =>
    if n = 0 then .good false
    else if n = 1 then .good true
    else if -0x8000000000000000 ≤ n ∧ n < 0x8000000000000000 then .fail .unknownBoolean
    else .fail .notBoolean
  | .real x => if x.isZero then .good false else if x.isOne then .good true else .fail .notBoolean
  | _ => .fail .notBoolean

/-- One of some named things. -/
def choice (things : List α) (name : α → Text) (v : Value) : Checked α :=
  match things.find? fun x => match v with | .text s => name x = s | _ => false with
  | some x => .good x
  | none => .fail .notOffered

/-- The items of a list from a position on. -/
def items (read : Value → Checked α) (position : Nat) : List Value → Checked (List α)
  | [] => .good []
  | v :: vs =>
    List.cons <$> (read v).below (Text.ofNat position) <*> items read (position + 1) vs

def list (read : Value → Checked α) : Value → Checked (List α)
  | .list vs => items read 0 vs
  | _ => .fail .notList

/-- The written form of a key in a path. -/
def keyText : Value → Text
  | .text s => s
  | .int n => if Text.hasNumeral n then Text.ofInt n else "<unprintable int object>"
  | .bytes bs => Text.bytesInQuotes bs
  | .bool b => if b then "1" else "0"
  | .null => "None"
  | .real (.finite negative mantissa exponent) => Number.writeFinite negative mantissa exponent
  | .real (.infinite negative) => if negative then "-inf" else "inf"
  | .real .undefined => "nan"
  | .other s => s
  | _ => []

/-- The keys that belong to no field. -/
def strangers (keys : List Key) (entries : List (Value × Value)) : List Issue :=
  let used := keys.filterMap (·.used? entries)
  entries.filterMap fun e =>
    match e.1 with
    | .text k => if used.contains k then none else some ⟨[k], .unknownKey⟩
    | k => some ⟨[keyText k], .keyNotText⟩

/-- A mapping with these keys and no others. -/
def mapping (keys : List Key) (read : List (Value × Value) → Checked α) : Value → Checked α
  | .map entries => (read entries).alsoFail (strangers keys entries)
  | _ => .fail .notMapping

def typeName : Key := ⟨"name", none⟩
def typeMarkers : Key := ⟨"test", none⟩
def typeDescription : Key := ⟨"desc", none⟩

def projectType : Value → Checked ProjectType :=
  mapping [typeName, typeMarkers, typeDescription] fun e =>
    ProjectType.mk <$> required typeName text e <*> optional typeMarkers [] (list text) e
      <*> optional typeDescription [] text e

def commandName : Key := ⟨"name", none⟩
def commandSource : Key := ⟨"source", none⟩
def commandLanguage : Key := ⟨"lang", none⟩
def commandTypes : Key := ⟨"projectTypes", some "project_types"⟩
def commandDescription : Key := ⟨"description", none⟩

def command : Value → Checked CommandEntry :=
  mapping [commandName, commandSource, commandLanguage, commandTypes, commandDescription] fun e =>
    CommandEntry.mk <$> required commandName text e
      <*> required commandSource text e
      <*> optional commandLanguage "bash" text e
      <*> optional commandTypes [] (list text) e
      <*> optional commandDescription none (orNull text) e

def backend : Key := ⟨"backend", none⟩
def exactMatch : Key := ⟨"exactMatch", some "exact_match"⟩
def ignoreCase : Key := ⟨"ignoreCase", some "ignore_case"⟩
def forceTerminal : Key := ⟨"forceTty", some "force_tty"⟩
def projectDirs : Key := ⟨"projectDirs", some "project_dirs"⟩
def projectTypes : Key := ⟨"projectTypes", some "project_types"⟩
def commands : Key := ⟨"commands", none⟩
def useDirenv : Key := ⟨"useDirenv", some "use_direnv"⟩
def useNix : Key := ⟨"useNix", some "use_nix"⟩
def terminal : Key := ⟨"terminal", none⟩
def logLevel : Key := ⟨"logLevel", some "log_level"⟩

/-- Settings from decoded data. -/
def settings : Value → Checked Settings :=
  mapping [backend, exactMatch, ignoreCase, forceTerminal, projectDirs, projectTypes, commands,
      useDirenv, useNix, terminal, logLevel] fun e =>
    let make backend exactMatch ignoreCase forceTerminal projectDirs projectTypes commands
        useDirenv useNix terminal logLevel : Settings :=
      { backend, exactMatch, ignoreCase, forceTerminal, useDirenv, useNix, terminal, logLevel,
        projectDirs, projectTypes, commands }
    let flag (k : Key) := optional k none (orNull boolean) e
    make <$> optional backend none (orNull (choice [Backend.fzf, .rofi] Backend.name)) e
      <*> flag exactMatch
      <*> flag ignoreCase
      <*> flag forceTerminal
      <*> optional projectDirs [] (list text) e
      <*> optional projectTypes [] (list projectType) e
      <*> optional commands [] (list command) e
      <*> flag useDirenv
      <*> flag useNix
      <*> optional terminal none (orNull text) e
      <*> optional logLevel none
        (orNull (choice [LevelName.debug, .info, .warning, .warn, .error] LevelName.name)) e

end Runbook.Schema
