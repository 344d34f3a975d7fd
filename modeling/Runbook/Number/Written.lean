import Runbook.Json.Reader
import Runbook.Text.Quoted

/-! Numbers as they are written by hand: with white space around them, a sign, digits of any
script, and for an integer the mark of its base. -/
namespace Runbook.Number

/-- Why a text is no number. -/
inductive Unreadable where
  | notInteger (base : Nat) (written : Text)
  | notDecimal (written : Text)
  | longNumeral (digits : Nat)
  deriving DecidableEq, Repr

def Unreadable.message : Unreadable → Text
  | notInteger base written =>
    "invalid literal for int() with base " ++ Text.ofNat base ++ ": " ++
      (Text.inQuotes written).take 200
  | notDecimal written => "could not convert string to float: " ++ Text.inQuotes written
  | longNumeral digits =>
    "Exceeds the limit (4300 digits) for integer string conversion: value has " ++
      Text.ofNat digits ++
      " digits; use sys.set_int_max_str_digits() to increase the limit"

/-- The digits of all scripts as those of the Latin one, and white space of other scripts as
spaces; whatever else lies outside the Latin alphabet cannot stand in a number. -/
def latin (c : Char) : Char :=
  if c.toNat < 0x7f then c
  else if Text.isBlank c then ' '
  else match Text.decimalValue? c with
    | some d => Char.ofNat ('0'.toNat + d)
    | none => '?'

/-- The white space around numbers. -/
def isSpace (c : Char) : Bool :=
  c == ' ' || c == '\t' || c == '\n' || c == '\r' || c == '\x0b' || c == '\x0c'

/-- The letter that marks a base after a zero. -/
def baseMark? (base : Nat) : Option Char :=
  if base = 2 then some 'b' else if base = 8 then some 'o' else if base = 16 then some 'x' else none

/-- A numeral without the mark of its base. -/
def unmarked (base : Nat) : Text → Text
  | '0' :: c :: r => if baseMark? base == some c.toLower then r else '0' :: c :: r
  | r => r

/-- The value of a digit of a base. -/
def digit? (base : Nat) (c : Char) : Option Nat := (Json.hexValue? c).filter (· < base)

/-- The number that digits of a base denote. -/
def ofDigits (base : Nat) (s : Text) : Nat :=
  s.foldl (fun n c => n * base + (digit? base c).getD 0) 0

/-- The integer that a text denotes in a base of at most sixteen. Of numerals to the base of ten
only so many digits are read. -/
def readInteger (base : Nat) (s : Text) : Except Unreadable Int :=
  let (negative, body) := Json.sign ((s.map latin).dropWhile isSpace)
  let numeral := unmarked base body
  let isDigit (c : Char) : Bool := (digit? base c).isSome
  let digits := numeral.takeWhile isDigit
  if base = 10 ∧ Text.numeralLimit < digits.length then .error (.longNumeral digits.length)
  else if digits.isEmpty || !((numeral.dropWhile isDigit).all isSpace) then
    .error (.notInteger base s)
  else .ok (if negative then -(ofDigits base digits) else ofDigits base digits)

def infinityWords : List Text := ["inf", "infinity"]

def undefinedWord : Text := "nan"

/-- The decimal that a text denotes, as the binary number nearest to it. -/
def readDecimal (s : Text) : Except Unreadable Binary :=
  let bare := Text.dropEndWhile isSpace ((s.map latin).dropWhile isSpace)
  let (negative, r) := Json.sign bare
  let word := r.map Char.toLower
  if infinityWords.contains word then .ok (.infinite negative)
  else if word = undefinedWord then .ok .undefined
  else
    let whole := Json.digits r
    let (places, rest) := match Json.afterDigits r with
      | '.' :: t => (Json.digits t, Json.afterDigits t)
      | t => ([], t)
    let (power, after) := Json.power rest
    if (whole.isEmpty && places.isEmpty) || !after.isEmpty then .error (.notDecimal s)
    else .ok (.ofDecimal negative (Text.numeral (whole ++ places))
      (power.getD 0 - places.length))

example : (readInteger 16 " -0xFf ").toOption = some (-255) := by decide +kernel

end Runbook.Number
