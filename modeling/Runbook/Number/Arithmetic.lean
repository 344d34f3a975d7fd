import Runbook.Number.Binary

/-! Sums and products of binary numbers, each the number nearest to the exact one. -/
namespace Runbook.Number.Binary

/-- The number nearest to a whole number times a power of two. -/
def ofDyadic (n exponent : Int) : Binary :=
  if n = 0 then .finite false 0 0
  else ofFraction (n < 0) (n.natAbs * power 2 exponent) (power 2 (-exponent))

/-- The number nearest to a whole number. -/
def ofInt (n : Int) : Binary := ofDyadic n 0

def isInfinite : Binary → Bool
  | .infinite _ => true
  | _ => false

def negate : Binary → Binary
  | .finite negative m e => .finite (!negative) m e
  | .infinite negative => .infinite (!negative)
  | .undefined => .undefined

/-- A mantissa with its sign. -/
def signed (negative : Bool) (mantissa : Nat) : Int := if negative then -mantissa else mantissa

def add : Binary → Binary → Binary
  | .undefined, _ => .undefined
  | _, .undefined => .undefined
  | .infinite a, .infinite b => if a = b then .infinite a else .undefined
  | .infinite a, _ => .infinite a
  | _, .infinite b => .infinite b
  | .finite a m e, .finite b n f =>
    if m = 0 ∧ n = 0 then .finite (a && b) 0 0
    else
      let least := min e f
      ofDyadic (signed a m * power 2 (e - least) + signed b n * power 2 (f - least)) least

def multiply : Binary → Binary → Binary
  | .undefined, _ => .undefined
  | _, .undefined => .undefined
  | .finite a m e, .finite b n f =>
    if m = 0 ∨ n = 0 then .finite (a != b) 0 0
    else ofDyadic (signed a m * signed b n) (e + f)
  | .infinite a, .infinite b => .infinite (a != b)
  | .infinite a, .finite b n _ => if n = 0 then .undefined else .infinite (a != b)
  | .finite a m _, .infinite b => if m = 0 then .undefined else .infinite (a != b)

end Runbook.Number.Binary
