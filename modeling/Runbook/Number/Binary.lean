/-! Numbers of binary floating point with 53 bits of precision, and the one nearest to a decimal. -/
namespace Runbook.Number

/-- Zero and the finite numbers are mantissa times a power of two; the sign of zero is kept. -/
inductive Binary where
  | finite (negative : Bool) (mantissa : Nat) (exponent : Int)
  | infinite (negative : Bool)
  | undefined
  deriving DecidableEq, Repr

/-- Mantissas are below two to this power. -/
def precision : Nat := 53

/-- The exponent of the smallest numbers. -/
def leastExponent : Int := -1074

/-- The exponent of the greatest numbers. -/
def greatestExponent : Int := 971

/-- A quotient rounded to the nearest whole number, a tie to the even one. -/
def roundQuotient (num den : Nat) : Nat :=
  let q := num / den
  let r := num % den
  if 2 * r < den then q
  else if den < 2 * r then q + 1
  else q + q % 2

/-- A power of a base, which is one where the exponent is negative: any power is the quotient of
those of an exponent and of its opposite. -/
def power (base : Nat) (exponent : Int) : Nat := Nat.pow base exponent.toNat

/-- A fraction times a power of two, as a fraction. -/
def scale (num den : Nat) (exponent : Int) : Nat × Nat :=
  (num * power 2 exponent, den * power 2 (-exponent))

/-- The greatest exponent for which the fraction has a mantissa of full precision, but none below
the least exponent. -/
def exponentOf (num den : Nat) : Int :=
  let guess : Int := num.log2 - den.log2 - precision
  let scaled := scale num den (-guess)
  max leastExponent (if power 2 precision ≤ scaled.1 / scaled.2 then guess + 1 else guess)

/-- The number nearest to a positive fraction. -/
def Binary.ofFraction (negative : Bool) (num den : Nat) : Binary :=
  let e := exponentOf num den
  let scaled := scale num den (-e)
  let m := roundQuotient scaled.1 scaled.2
  let (m, e) := if m = power 2 precision then (power 2 (precision - 1), e + 1) else (m, e)
  if greatestExponent < e then .infinite negative else .finite negative m e

/-- The number nearest to a decimal: digits times a power of ten. A decimal far outside the range
of finite numbers is told by its size alone. -/
def Binary.ofDecimal (negative : Bool) (digits : Nat) (exponent : Int) : Binary :=
  if digits = 0 then .finite negative 0 0
  else
    let size : Int := (Nat.toDigits 10 digits).length + exponent
    if 310 < size then .infinite negative
    else if size < -330 then .finite negative 0 0
    else ofFraction negative (digits * power 10 exponent) (power 10 (-exponent))

/-- Zero of either sign. -/
def Binary.isZero : Binary → Bool
  | .finite _ 0 _ => true
  | _ => false

/-- The number one. -/
def Binary.isOne : Binary → Bool
  | .finite false m e => e ≤ 0 && m == power 2 (-e)
  | _ => false

end Runbook.Number
