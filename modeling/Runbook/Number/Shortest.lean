import Runbook.Number.Binary
import Runbook.Text.Basic

/-! The shortest decimal that reads back as a given binary number, and its written form. -/
namespace Runbook.Number

/-- A positive decimal: its digits, most significant first, and the place of the point before
them, counted to the right from the first digit. -/
structure Decimal where
  digits : List Char
  point : Int
  deriving DecidableEq, Repr

/-- The open or closed interval of fractions over one denominator that round to a number. -/
structure Interval where
  low : Nat
  value : Nat
  high : Nat
  denominator : Nat
  closed : Bool

/-- What rounds to mantissa times a power of two. Below a power of two the neighbour is nearer. -/
def Interval.of (mantissa : Nat) (exponent : Int) : Interval :=
  let below := if mantissa = power 2 (precision - 1) ∧ leastExponent < exponent then 1 else 2
  let unit := scale 1 1 (exponent - 2)
  ⟨(4 * mantissa - below) * unit.1, 4 * mantissa * unit.1, (4 * mantissa + 2) * unit.1, unit.2,
    mantissa % 2 == 0⟩

def Interval.contains (i : Interval) (num den : Nat) : Bool :=
  let n := num * i.denominator
  if i.closed then i.low * den ≤ n && n ≤ i.high * den else i.low * den < n && n < i.high * den

/-- The least place of the point at which a positive fraction is below one. -/
def pointOf (num den : Nat) : Int :=
  let guess : Int := (Nat.toDigits 10 num).length - (Nat.toDigits 10 den).length
  if num * power 10 (-guess) < den * power 10 guess then guess else guess + 1

/-- The neighbours of a value among the decimals of so many places, if they lie in the interval:
the nearer one, of two equally near ones the even one. -/
def nearest? (i : Interval) (places : Int) : Option Nat :=
  let num := i.value * power 10 places
  let den := i.denominator * power 10 (-places)
  let fits (n : Nat) : Bool := i.contains (n * power 10 (-places)) (power 10 places)
  let best := roundQuotient num den
  let other := if best = num / den then best + 1 else best - 1
  if fits best then some best else if fits other then some other else none

/-- The decimal with the fewest digits that reads back, trying at least a given number of them and
at most seventeen. -/
def shortestFrom (i : Interval) (point : Int) : Nat → Nat → Decimal
  | 0, _ => ⟨[], point⟩
  | tries + 1, digits =>
    match nearest? i (digits - point) with
    | some n =>
      let text := Nat.toDigits 10 n
      ⟨Text.dropEndWhile (· == '0') text, point + text.length - digits⟩
    | none => shortestFrom i point tries (digits + 1)

/-- The shortest decimal that reads back as a positive number. -/
def shortest (mantissa : Nat) (exponent : Int) : Decimal :=
  let i := Interval.of mantissa exponent
  shortestFrom i (pointOf i.value i.denominator) 17 1

/-- How decimals are written: positionally while the exponent lies in a range, else with an
exponent of at least two digits. -/
structure Style where
  least : Int
  limit : Int

/-- Zeros. -/
def zeros (n : Int) : Text := List.replicate n.toNat '0'

def Style.write (style : Style) (d : Decimal) : Text :=
  let exponent := d.point - 1
  if style.least ≤ exponent ∧ exponent < style.limit then
    let whole := if d.point ≤ 0 then ['0'] else
      d.digits.take d.point.toNat ++ zeros (d.point - d.digits.length)
    let fraction := zeros (-d.point) ++ d.digits.drop d.point.toNat
    whole ++ '.' :: (if fraction.isEmpty then ['0'] else fraction)
  else
    let tail := d.digits.drop 1
    let size := Text.ofNat exponent.natAbs
    d.digits.take 1 ++ (if tail.isEmpty then [] else '.' :: tail) ++
      'e' :: (if exponent < 0 then '-' else '+') :: (zeros (2 - size.length) ++ size)

/-- Positional from one ten-thousandth up to sixteen digits before the point. -/
def standardStyle : Style := ⟨-4, 16⟩

/-- A finite number in its shortest form. -/
def writeFinite (negative : Bool) (mantissa : Nat) (exponent : Int) : Text :=
  (if negative then ['-'] else []) ++
    if mantissa = 0 then "0.0".toList else standardStyle.write (shortest mantissa exponent)

example : writeFinite false 3602879701896397 (-55) = "0.1".toList := by decide +kernel

end Runbook.Number
