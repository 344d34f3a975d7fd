import Runbook.Text.Basic

/-! What can be wrong with a JSON document, and how its place is told. -/
namespace Runbook.Json

inductive Fault where
  | valueExpected
  | nameExpected
  | colonExpected
  | commaExpected
  | unterminated
  | controlCharacter
  | badEscape
  | badUnicodeEscape
  | trailingData
  | byteOrderMark
  deriving DecidableEq, Repr

def Fault.message : Fault → Text
  | valueExpected => "Expecting value"
  | nameExpected => "Expecting property name enclosed in double quotes"
  | colonExpected => "Expecting ':' delimiter"
  | commaExpected => "Expecting ',' delimiter"
  | unterminated => "Unterminated string starting at"
  | controlCharacter => "Invalid control character at"
  | badEscape => "Invalid \\escape"
  | badUnicodeEscape => "Invalid \\uXXXX escape"
  | trailingData => "Extra data"
  | byteOrderMark => "Unexpected UTF-8 BOM (decode using utf-8-sig)"

/-- Why reading stopped: a fault, with the text left from the place where it lies, an integer with
more digits than are read, or more levels of objects and arrays than are read. -/
inductive Stop where
  | fault (cause : Fault) (rest : Text)
  | longNumeral (digits : Nat)
  | tooDeep
  deriving DecidableEq, Repr

/-- A place in a text, as told to a reader: line and column from one, position from zero. -/
structure Place where
  line : Nat
  column : Nat
  position : Nat
  deriving DecidableEq, Repr

/-- The place after the first characters of a text; only line feeds count. -/
def Place.after (read : Text) : Place :=
  ⟨read.count '\n' + 1, (read.reverse.takeWhile (· != '\n')).length + 1, read.length⟩

/-- A fault of a document at its place. -/
structure Error where
  cause : Fault
  place : Place
  deriving DecidableEq, Repr

def Error.message (e : Error) : Text :=
  e.cause.message ++ ": line " ++ Text.ofNat e.place.line ++ " column " ++
    Text.ofNat e.place.column ++ " (char " ++ Text.ofNat e.place.position ++ ")"

/-- The same without the text that is left. -/
inductive Problem where
  | error (e : Error)
  | longNumeral (digits : Nat)
  | tooDeep
  deriving DecidableEq, Repr

def Stop.inText (s : Text) : Stop → Problem
  | fault cause rest => .error ⟨cause, .after (s.take (s.length - rest.length))⟩
  | longNumeral digits => .longNumeral digits
  | tooDeep => .tooDeep

end Runbook.Json
