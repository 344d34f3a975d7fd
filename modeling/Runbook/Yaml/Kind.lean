import Runbook.Json.Reader
import Runbook.Yaml.Date
import Runbook.Yaml.Token

/-! The types of nodes. A tag names one; a plain scalar without a tag shows it by its look, which in
the first version of the language can be that of a few more types. -/
namespace Runbook.Yaml

inductive Kind where
  | null
  | bool
  | int
  | real
  | binary
  | date
  | text
  | sequence
  /-- A sequence of single entries with different keys. -/
  | omap
  /-- A sequence of single entries. -/
  | pairs
  | mapping
  /-- A mapping of which the keys count alone. -/
  | set
  /-- The key whose value is merged into its mapping. -/
  | merge
  /-- The key whose value stands for its mapping. -/
  | standard
  | unknown
  deriving DecidableEq, Repr

namespace Kind

def standardPrefix : Text := "tag:yaml.org,2002:"

/-- The names of types after the standard prefix. -/
def names : List (Text × Kind) := [
  ("null", null), ("bool", bool), ("int", int), ("float", real), ("binary", binary),
  ("timestamp", date), ("str", text), ("seq", sequence), ("omap", omap), ("pairs", pairs),
  ("map", mapping), ("set", set), ("merge", merge), ("value", standard)]

/-- The type that a whole tag names. -/
def ofTag (tag : Text) : Kind :=
  (Text.dropStart? standardPrefix tag >>= (names.lookup ·)).getD unknown

end Kind

/-- The text is not empty and all of it is in a class. -/
def consistsOf (p : Char → Bool) (s : Text) : Bool := !s.isEmpty && s.all p

def isDigitOrLine (c : Char) : Bool := c.isDigit || c == '_'

def nullWords : List Text := ["", "~", "null", "Null", "NULL"]

def booleanWords : List Text := ["true", "True", "TRUE", "false", "False", "FALSE"]

/-- The words that are booleans in the first version besides. -/
def olderBooleanWords : List Text := [
  "y", "Y", "yes", "Yes", "YES", "n", "N", "no", "No", "NO", "on", "On", "ON", "off", "Off", "OFF"]

def infinityWords : List Text := [".inf", ".Inf", ".INF"]

def undefinedWords : List Text := [".nan", ".NaN", ".NAN"]

def looksBool (v : Version) (s : Text) : Bool :=
  booleanWords.contains s || v.isFirst && olderBooleanWords.contains s

/-- An exponent with digits, or nothing. -/
def looksExponent (signed : Bool) (s : Text) : Bool :=
  match s with
  | [] => true
  | e :: r =>
    (e == 'e' || e == 'E') &&
      match r with
      | '+' :: d => consistsOf Char.isDigit d
      | '-' :: d => consistsOf Char.isDigit d
      | d => !signed && consistsOf Char.isDigit d

/-- A part of a number in sixties after the first one: one digit, or two that are below sixty. -/
def looksSixtieth (s : Text) : Bool :=
  match s with
  | [c] => c.isDigit
  | [c, d] => '0' ≤ c && c ≤ '5' && d.isDigit
  | _ => false

/-- The parts of a number between colons: more than one, the later ones sixtieths. -/
def looksSixties (first : Text → Bool) (parts : List Text) : Bool :=
  match parts with
  | whole :: more => first whole && !more.isEmpty && more.all looksSixtieth
  | [] => false

def colons (s : Text) : List Text := Text.splitAll (· == ':') s

/-- A decimal in sixties has a point after its last part. -/
def looksSixtiesReal (s : Text) : Bool :=
  match Text.splitAll (· == '.') s with
  | [whole, places] =>
    places.all isDigitOrLine &&
      looksSixties (fun t => t.head?.any Char.isDigit && t.all isDigitOrLine) (colons whole)
  | _ => false

/-- Decimals have a point or an exponent; underscores may stand among their digits. -/
def looksReal (v : Version) (s : Text) : Bool :=
  let unsigned := (Json.sign s).2
  undefinedWords.contains s || infinityWords.contains unsigned ||
    v.isFirst && looksSixtiesReal unsigned ||
    match unsigned with
    | '.' :: r =>
      (!v.isFirst || s == unsigned) && !(r.takeWhile isDigitOrLine).isEmpty &&
        looksExponent true (r.dropWhile isDigitOrLine)
    | c :: r =>
      c.isDigit &&
        match r.dropWhile isDigitOrLine with
        | '.' :: after => looksExponent false (after.dropWhile isDigitOrLine)
        | e :: after => looksExponent false (e :: after)
        | [] => false
    | [] => false

def isOctal (c : Char) : Bool := '0' ≤ c && c ≤ '7' || c == '_'

/-- Whole numbers to the base of ten, of eight without a mark, and in sixties, as the first version
has them. -/
def looksOlderInt (s : Text) : Bool :=
  let zeroless (t : Text) : Bool :=
    t.head?.any (fun c => '1' ≤ c && c ≤ '9') && t.all isDigitOrLine
  consistsOf isOctal s || zeroless s || looksSixties zeroless (colons s)

/-- Integers in base two, eight, ten or sixteen; underscores may stand among their digits. -/
def looksInt (v : Version) (s : Text) : Bool :=
  s.head?.any (· != '_') &&
    let unsigned := (Json.sign s).2
    (if v.isFirst then looksOlderInt unsigned else consistsOf isDigitOrLine unsigned) ||
      match unsigned with
      | '0' :: 'b' :: r => consistsOf (fun c => c == '0' || c == '1' || c == '_') r
      | '0' :: 'o' :: r => !v.isFirst && consistsOf isOctal r
      | '0' :: 'x' :: r => consistsOf (fun c => (Json.hexValue? c).isSome || c == '_') r
      | _ => false

/-- A date without a time has two digits for its month and for its day. -/
def looksDate (s : Text) : Bool :=
  match stamp? s with
  | some d => d.clock.isSome || d.month.length == 2 && d.day.length == 2
  | none => false

/-- A text without the line feed at its end. -/
def withoutLastBreak (s : Text) : Text :=
  match s.getLast? with
  | some '\n' => s.dropLast
  | _ => s

/-- The type of a plain scalar without a tag. A line feed at its end, if there is more, does not
change its look. -/
def Kind.ofLook (v : Version) (s : Text) : Kind :=
  let look := withoutLastBreak s
  if s = ['\n'] then text
  else if looksBool v look then bool
  else if looksReal v look then real
  else if looksInt v look then int
  else if look = ['<', '<'] then merge
  else if nullWords.contains look then null
  else if looksDate look then date
  else if look = ['='] then standard
  else if look = ['!'] || look = ['&'] || look = ['*'] then unknown
  else text

end Runbook.Yaml
