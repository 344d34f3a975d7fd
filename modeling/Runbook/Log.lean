import Runbook.Failure
import Runbook.Text.Lower

/-! Messages about what the program does. A level decides which of them are shown. -/
namespace Runbook

inductive Level where
  | debug
  | info
  | warning
  | error
  deriving DecidableEq, Repr

/-- The level that a name means. -/
def LevelName.level : LevelName → Level
  | debug => .debug
  | info => .info
  | warning => .warning
  | warn => .warning
  | error => .error

def LevelName.all : List LevelName := [debug, info, warning, warn, error]

namespace Level

def number : Level → Nat
  | debug => 10
  | info => 20
  | warning => 30
  | error => 40

/-- The mark of messages of a level. -/
def mark : Level → Text
  | debug => "[DEBUG] "
  | info => "[INFO] "
  | warning => "[WARNING] "
  | error => "[ERROR] "

/-- The level with a name, in any case and with white space around it. -/
def parse (name : Text) : Except Failure Level :=
  if name.isEmpty then .ok warning
  else
    let word := Text.lower (Text.trim name)
    match LevelName.all.find? fun n => n.name = word with
    | some n => .ok n.level
    | none => .error (.unknownLevel name)

/-- The level in force. Debugging overrules any name. -/
def chosen (debugging : Bool) (name : Text) : Except Failure Level :=
  if debugging then .ok debug else parse name

/-- The level in force when a known one or none is wanted. -/
def inForce (debugging : Bool) (name : Option LevelName) : Level :=
  if debugging then debug else (name.map LevelName.level).getD warning

/-- The line of a message, if messages of its level are shown. -/
def line (threshold level : Level) (message : Text) : Text :=
  if threshold.number ≤ level.number then level.mark ++ message ++ ['\n'] else []

end Level

/-- Something that is noted on the way, for those who look for the causes of a surprise. -/
inductive Note where
  | catalogMissing (path : Text)
  | catalogRead (commands : Nat) (path : Text) (settings : Bool)
  | configLoaded (commands : Nat) (sources : List Text)
  | directoryMissing (path : Text)
  | projectFound (path : Text)
  | evaluating (name wantedBy : Text)
  deriving DecidableEq, Repr

def Note.message : Note → Text
  | catalogMissing path => "Config " ++ path ++ " not found"
  | catalogRead commands path settings =>
    "Parsed " ++ Text.ofNat commands ++ " command(s) from " ++ path ++ " (config block: " ++
      (if settings then "yes)" else "no)").toList
  | configLoaded commands sources =>
    "Loaded " ++ Text.ofNat commands ++ " command(s) from " ++
      if sources.isEmpty then "no config files".toList else Text.joinWith ", " sources
  | directoryMissing path => "Project dir " ++ path ++ " does not exist, skipping"
  | projectFound path => "Project: " ++ path
  | evaluating name wantedBy =>
    "Evaluating " ++ quoted name ++ " for placeholder of " ++ wantedBy

/-- A result, or a failure, with the notes made before it. -/
structure Noted (α : Type) where
  notes : List Note
  result : Except Failure α

namespace Noted

def ofExcept (result : Except Failure α) : Noted α := ⟨[], result⟩

def note (n : Note) : Noted Unit := ⟨[n], .ok ()⟩

/-- The notes of both parts; a failure of the first leaves the second out. -/
def bind (x : Noted α) (f : α → Noted β) : Noted β :=
  match x.result with
  | .ok a => ⟨x.notes ++ (f a).notes, (f a).result⟩
  | .error e => ⟨x.notes, .error e⟩

instance : Monad Noted where
  pure a := ⟨[], .ok a⟩
  bind := bind

/-- The parts for some things in turn. -/
def forAll (f : α → Noted β) : List α → Noted (List β)
  | [] => pure []
  | a :: as => (f a).bind fun b => (forAll f as).bind fun bs => pure (b :: bs)

end Noted
end Runbook
