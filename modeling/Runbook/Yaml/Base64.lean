import Runbook.Text.Basic

/-! Bytes written with four characters for three of them. Characters that carry no bits are passed
over. -/
namespace Runbook.Yaml.Base64

/-- The six bits that a character carries. -/
def value? (c : Char) : Option Nat :=
  if 'A' ≤ c ∧ c ≤ 'Z' then some (c.toNat - 'A'.toNat)
  else if 'a' ≤ c ∧ c ≤ 'z' then some (c.toNat - 'a'.toNat + 26)
  else if '0' ≤ c ∧ c ≤ '9' then some (c.toNat - '0'.toNat + 52)
  else if c = '+' then some 62
  else if c = '/' then some 63
  else none

/-- What has been read of a group of four characters: how many of them, the bits that are left over,
and how many signs of padding came since the last of them. -/
structure Group where
  count : Nat := 0
  bits : Nat := 0
  padding : Nat := 0

/-- Reads on. Padding that completes a group of two or three characters ends the text; elsewhere it
means nothing. A group of which only a part has come is a fault. -/
def decodeFrom? (g : Group) : Text → Option (List UInt8)
  | [] => if g.count = 0 then some [] else none
  | c :: r =>
    if c = '=' then
      if 2 ≤ g.count ∧ 4 ≤ g.count + g.padding + 1 then some []
      else decodeFrom? { g with padding := g.padding + 1 } r
    else match value? c with
      | none => decodeFrom? g r
      | some v =>
        match g.count with
        | 0 => decodeFrom? ⟨1, v, 0⟩ r
        | 1 => (decodeFrom? ⟨2, v % 16, 0⟩ r).map ((g.bits * 4 + v / 16).toUInt8 :: ·)
        | 2 => (decodeFrom? ⟨3, v % 4, 0⟩ r).map ((g.bits * 16 + v / 4).toUInt8 :: ·)
        | _ => (decodeFrom? {} r).map ((g.bits * 64 + v).toUInt8 :: ·)

/-- The bytes that a text stands for. -/
def decode? (s : Text) : Option (List UInt8) := decodeFrom? {} s

example : decode? "eHRlcm0=" = some "xterm".toUTF8.toList := by decide +kernel

end Runbook.Yaml.Base64
