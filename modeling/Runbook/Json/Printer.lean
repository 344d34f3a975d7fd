import Runbook.Number.Shortest
import Runbook.Text.Order
import Runbook.Value

/-! Writing JSON on one line: members sorted by name, a space after commas and colons, and only
the visible characters of ASCII unescaped. -/
namespace Runbook.Json

def hexDigit (n : Nat) : Char := "0123456789abcdef".toList.getD (n % 16) '0'

/-- A 16-bit unit as an escape. -/
def writeUnit (u : Nat) : Text :=
  ['\\', 'u', hexDigit (u / 0x1000), hexDigit (u / 0x100), hexDigit (u / 0x10), hexDigit u]

/-- A character inside a string; one above the 16-bit range is a pair of units. -/
def writeChar (c : Char) : Text :=
  match c with
  | '"' => ['\\', '"']
  | '\\' => ['\\', '\\']
  | '\n' => ['\\', 'n']
  | '\r' => ['\\', 'r']
  | '\t' => ['\\', 't']
  | '\x08' => ['\\', 'b']
  | '\x0c' => ['\\', 'f']
  | c =>
    if 0x20 ≤ c.toNat ∧ c.toNat < 0x7f then [c]
    else if c.toNat < 0x10000 then writeUnit c.toNat
    else
      writeUnit (0xd800 + (c.toNat - 0x10000) / 0x400) ++
        writeUnit (0xdc00 + (c.toNat - 0x10000) % 0x400)

def writeString (s : Text) : Text := '"' :: s.flatMap writeChar ++ ['"']

def writeReal : Number.Binary → Text
  | .finite negative mantissa exponent => Number.writeFinite negative mantissa exponent
  | .infinite false => "Infinity"
  | .infinite true => "-Infinity"
  | .undefined => "NaN"

/-- The name of a member. -/
def nameOf : Value → Text
  | .text s => s
  | .other s => s
  | _ => []

/-- A member, already written, put among others in the order of their names. -/
def insertMember (m : Text × Text) : List (Text × Text) → List (Text × Text)
  | [] => [m]
  | n :: ns => if Text.precedes m.1 n.1 then m :: n :: ns else n :: insertMember m ns

/-- A document. -/
def write : Value → Text
  | .null => "null"
  | .bool b => if b then "true" else "false"
  | .int n => Text.ofInt n
  | .real x => writeReal x
  | .text s => writeString s
  | .list items => '[' :: Text.joinWith ", " (writeItems items) ++ [']']
  | .map entries =>
    let members := (writeMembers entries).foldr insertMember []
    '\x7b' :: Text.joinWith ", " (members.map fun m => writeString m.1 ++ ": ".toList ++ m.2) ++ ['\x7d']
  | .other s => writeString s
  | .bytes _ => "null"
where
  writeItems : List Value → List Text
    | [] => []
    | v :: vs => write v :: writeItems vs
  writeMembers : List (Value × Value) → List (Text × Text)
    | [] => []
    | (k, v) :: rest => (nameOf k, write v) :: writeMembers rest

end Runbook.Json
