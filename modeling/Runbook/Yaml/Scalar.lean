import Runbook.Number.Arithmetic
import Runbook.Text.Lower
import Runbook.Yaml.Base64
import Runbook.Yaml.Datum
import Runbook.Yaml.Kind
import Runbook.Yaml.Problem

/-! What scalars of the known types stand for. -/
namespace Runbook.Yaml

/-- A number without its underscores, which has to have something else. -/
def digitsOnly (s : Text) : Except Problem Text :=
  let bare := s.filter (· != '_')
  if bare.isEmpty then .error .noNumber else .ok bare

def readInteger (base : Nat) (s : Text) : Except Problem Int :=
  (Number.readInteger base s).mapError .number

def readDecimal (s : Text) : Except Problem Number.Binary :=
  (Number.readDecimal s).mapError .number

/-- The integer that a text without a sign denotes. In the first version a zero at the front marks
the base of eight, and colons stand between sixties. -/
def readUnsigned (v : Version) (s : Text) : Except Problem Int :=
  match s with
  | ['0'] => .ok 0
  | '0' :: 'b' :: r => readInteger 2 r
  | '0' :: 'x' :: r => readInteger 16 r
  | '0' :: 'o' :: r => readInteger 8 r
  | s =>
    if v.isFirst && s.isEmpty then .error .noNumber
    else if v.isFirst && s.head? == some '0' then readInteger 8 s
    else if v.isFirst && s.contains ':' then
      ((colons s).mapM (readInteger 10)).map (List.foldl (fun n d => n * 60 + d) 0)
    else readInteger 10 s

/-- The integer that a scalar denotes. -/
def readInt (v : Version) (s : Text) : Except Problem Int := do
  let (negative, r) := Json.sign (← digitsOnly s)
  let n ← readUnsigned v r
  return if negative then -n else n

/-- The sum of decimals times powers of sixty, the least power first. -/
def sumOfSixties (power : Nat) (total : Number.Binary) :
    List Number.Binary → Except Problem Number.Binary
  | [] => .ok total
  | d :: ds =>
    let scale := Number.Binary.ofInt power
    if scale.isInfinite then .error .greatSixties
    else sumOfSixties (power * 60) (total.add (d.multiply scale)) ds

/-- The decimal that a text without a sign denotes. Only in the current version a colon stands for
nothing, and more than one exponent is simply no number. -/
def readUnsignedReal (v : Version) (s : Text) : Except Problem Number.Binary :=
  if s = ".inf".toList then .ok (.infinite false)
  else if !v.isCurrent && s.contains ':' then
    ((colons s).mapM readDecimal).bind fun ds => sumOfSixties 1 (.finite false 0 0) ds.reverse
  else if !v.isCurrent && 1 < s.count 'e' then .error .manyExponents
  else readDecimal s

/-- The decimal that a scalar denotes. Where it is none it may have been asked for by its own name,
or come out of a text at a place of its own. -/
def readReal (v : Version) (place : Nat) (s : Text) : Except Problem Datum := do
  let (negative, r) := Json.sign (Text.lower (← digitsOnly s))
  if r = ".nan".toList then return .undefined 0
  else
    let x ← readUnsignedReal v r
    if x = .undefined then return .undefined (place + 1)
    else return .real (if negative then x.negate else x)

/-- The words for booleans, in any case. -/
def trueNames : List Text := ["yes", "y", "true", "on"]

def falseNames : List Text := ["no", "n", "false", "off"]

def readBool (s : Text) : Except Problem Bool :=
  let word := Text.lower s
  if trueNames.contains word then .ok true
  else if falseNames.contains word then .ok false
  else .error .notBoolean

def readBytes (s : Text) : Except Problem (List UInt8) :=
  if s.all (·.toNat < 0x80) then (Base64.decode? s).elim (.error .malformed) .ok
  else .error .malformed

/-- A date, or the moment of a day if there is a time. -/
def readDate (s : Text) : Except Problem Datum :=
  match stamp? (withoutLastBreak s) with
  | none => .error .malformed
  | some stamp =>
    match stamp.clock with
    | none => (stamp.date.map .date).mapError .date
    | some clock => ((clock.read stamp.date).map .moment).mapError .date

/-- A scalar of a known type, at a place. -/
def readScalar (v : Version) (place : Nat) (kind : Kind) (s : Text) : Except Problem Datum :=
  match kind with
  | .null => .ok .null
  | .bool => (readBool s).map .bool
  | .int => (readInt v s).map .int
  | .real => readReal v place s
  | .binary => (readBytes s).map .bytes
  | .date => readDate s
  | .text => .ok (.text s)
  | _ => .error .malformed

end Runbook.Yaml
