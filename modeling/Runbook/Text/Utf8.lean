import Runbook.Text.Basic

/-! Reading bytes as UTF-8. The first byte that cannot be read is told with its place and what is
wrong with it. -/
namespace Runbook.Text

inductive ByteFault where
  | start
  | continuation
  | endOfData
  deriving DecidableEq, Repr

/-- Bytes that cannot be read: the first of them, their place, and how many belong together. -/
structure Undecodable where
  byte : UInt8
  position : Nat
  count : Nat
  fault : ByteFault
  deriving DecidableEq, Repr

def ByteFault.message : ByteFault → Text
  | start => "invalid start byte"
  | continuation => "invalid continuation byte"
  | endOfData => "unexpected end of data"

def hexByte (b : UInt8) : Text :=
  let digit (n : Nat) : Char := "0123456789abcdef".toList.getD n '0'
  ['0', 'x', digit (b.toNat / 16), digit (b.toNat % 16)]

def Undecodable.message (e : Undecodable) : Text :=
  let place :=
    if e.count = 1 then
      "byte ".toList ++ hexByte e.byte ++ " in position ".toList ++ ofNat e.position
    else
      "bytes in position ".toList ++ ofNat e.position ++ '-' :: ofNat (e.position + e.count - 1)
  "'utf-8' codec can't decode " ++ place ++ ": " ++ e.fault.message

/-- The bytes that may follow a first byte, one range for each, and the bits that it carries. -/
def following (b : UInt8) : Option (Nat × List (UInt8 × UInt8)) :=
  let tail : UInt8 × UInt8 := (0x80, 0xbf)
  if b < 0x80 then some (b.toNat, [])
  else if 0xc2 ≤ b ∧ b ≤ 0xdf then some (b.toNat - 0xc0, [tail])
  else if b = 0xe0 then some (0, [(0xa0, 0xbf), tail])
  else if b = 0xed then some (0xd, [(0x80, 0x9f), tail])
  else if 0xe1 ≤ b ∧ b ≤ 0xef then some (b.toNat - 0xe0, [tail, tail])
  else if b = 0xf0 then some (0, [(0x90, 0xbf), tail, tail])
  else if 0xf1 ≤ b ∧ b ≤ 0xf3 then some (b.toNat - 0xf0, [tail, tail, tail])
  else if b = 0xf4 then some (4, [(0x80, 0x8f), tail, tail])
  else none

/-- What has been read of a character: its first byte and place, how many bytes it has so far, its
bits so far, and the bytes still wanted. -/
structure Partial where
  byte : UInt8
  position : Nat
  count : Nat
  bits : Nat
  wanted : List (UInt8 × UInt8)

/-- Reads bytes from a position on, with a character begun or not. -/
def decodeFrom (position : Nat) (begun : Option Partial) : List UInt8 → Except Undecodable Text
  | [] =>
    match begun with
    | none => .ok []
    | some p => .error ⟨p.byte, p.position, p.count, .endOfData⟩
  | b :: bs =>
    match begun with
    | some ⟨byte, place, count, bits, (low, high) :: wanted⟩ =>
      if low ≤ b ∧ b ≤ high then
        let bits := bits * 64 + (b.toNat - 0x80)
        if wanted.isEmpty then
          (decodeFrom (position + 1) none bs).map (Char.ofNat bits :: ·)
        else decodeFrom (position + 1) (some ⟨byte, place, count + 1, bits, wanted⟩) bs
      else .error ⟨byte, place, count, .continuation⟩
    | _ =>
      match following b with
      | none => .error ⟨b, position, 1, .start⟩
      | some (bits, []) => (decodeFrom (position + 1) none bs).map (Char.ofNat bits :: ·)
      | some (bits, wanted) => decodeFrom (position + 1) (some ⟨b, position, 1, bits, wanted⟩) bs

def decode (bs : List UInt8) : Except Undecodable Text := decodeFrom 0 none bs

/-- How many bytes a text has. -/
def byteCount (s : Text) : Nat := (String.ofList s).utf8ByteSize

/-- Every carriage return, with a line feed after it or not, as a line feed. -/
def normalizeNewlines : Text → Text
  | [] => []
  | '\r' :: '\n' :: s => '\n' :: normalizeNewlines s
  | '\r' :: s => '\n' :: normalizeNewlines s
  | c :: s => c :: normalizeNewlines s

end Runbook.Text
