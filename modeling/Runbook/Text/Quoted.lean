import Runbook.Text.Printable

/-! Texts and bytes in quotes, as messages show them: single quotes, or double ones around a text
that has single quotes only; what cannot be printed is written by its number. -/
namespace Runbook.Text

/-- The digits of a number to the base of sixteen, at least so many of them. -/
def hexDigits (size n : Nat) : Text := (Nat.toDigits 16 n).leftpad size '0'

/-- The quotes around characters. -/
def quoteFor (s : Text) : Char := if s.contains '\'' && !s.contains '"' then '"' else '\''

/-- A character between quotes where it is written with a backslash in any case. -/
def escape? (quote c : Char) : Option Text :=
  if c == quote || c == '\\' then some ['\\', c]
  else if c == '\t' then some ['\\', 't']
  else if c == '\n' then some ['\\', 'n']
  else if c == '\r' then some ['\\', 'r']
  else none

/-- A character by its number. -/
def numbered (c : Char) : Text :=
  let n := c.toNat
  if n < 0x100 then '\\' :: 'x' :: hexDigits 2 n
  else if n < 0x10000 then '\\' :: 'u' :: hexDigits 4 n
  else '\\' :: 'U' :: hexDigits 8 n

/-- A text in quotes. -/
def inQuotes (s : Text) : Text :=
  let quote := quoteFor s
  quote :: s.flatMap (fun c => (escape? quote c).getD (if isPrintable c then [c] else numbered c))
    ++ [quote]

/-- Bytes in quotes; those of the Latin letters and signs are shown as these. -/
def bytesInQuotes (bs : List UInt8) : Text :=
  let s : Text := bs.map fun b => Char.ofNat b.toNat
  let quote := quoteFor s
  'b' :: quote :: s.flatMap (fun c =>
    (escape? quote c).getD (if 0x20 ≤ c.toNat ∧ c.toNat < 0x7f then [c] else numbered c)) ++ [quote]

end Runbook.Text
