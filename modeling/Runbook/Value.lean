import Runbook.Number.Binary
import Runbook.Text.Basic

/-! Decoded data of a configuration or of the output of a command. -/
namespace Runbook

inductive Value where
  | null
  | bool (b : Bool)
  | int (n : Int)
  | real (x : Number.Binary)
  | text (s : Text)
  | list (items : List Value)
  /-- Entries in the order of their keys' first appearance; no key occurs twice. -/
  | map (entries : List (Value × Value))
  | bytes (bs : List UInt8)
  /-- A scalar of any other type, such as a date; its written form. -/
  | other (s : Text)
  deriving Repr, Inhabited

namespace Value

/-- The entries with one more. A key that is there already keeps its place and gets the new
value. -/
def put (entries : List (Text × α)) (key : Text) (v : α) : List (Text × α) :=
  match entries with
  | [] => [(key, v)]
  | (k, old) :: rest => if k = key then (k, v) :: rest else (k, old) :: put rest key v

/-- A map with texts for keys. -/
def ofEntries (entries : List (Text × Value)) : Value := .map (entries.map fun e => (.text e.1, e.2))

/-- The value stored under a text. -/
def get? (entries : List (Value × Value)) (key : Text) : Option Value :=
  match entries with
  | [] => none
  | (.text k, v) :: rest => if k = key then some v else get? rest key
  | _ :: rest => get? rest key

/-- Empty containers and texts, zero, false and null count as no data. -/
def isVoid : Value → Bool
  | null => true
  | bool b => !b
  | int n => n == 0
  | real x => x.isZero
  | text s => s.isEmpty
  | list items => items.isEmpty
  | map entries => entries.isEmpty
  | bytes bs => bs.isEmpty
  | other _ => false

-- Values stand in lists inside values, so that a test for equality has to be written out.
mutual

/-- Two values are the same. -/
def same : Value → Value → Bool
  | null, null => true
  | bool a, bool b => a == b
  | int m, int n => m == n
  | real x, real y => x == y
  | text s, text t => s == t
  | list vs, list ws => sameItems vs ws
  | map es, map fs => sameEntries es fs
  | bytes as, bytes bs => as == bs
  | other s, other t => s == t
  | _, _ => false

def sameItems : List Value → List Value → Bool
  | [], [] => true
  | v :: vs, w :: ws => same v w && sameItems vs ws
  | _, _ => false

def sameEntries : List (Value × Value) → List (Value × Value) → Bool
  | [], [] => true
  | (k, v) :: es, (l, w) :: fs => same k l && same v w && sameEntries es fs
  | _, _ => false

end

mutual

theorem same_iff (v w : Value) : same v w = true ↔ v = w := by
  cases v with
  | list vs => cases w <;> simp [same, sameItems_iff vs]
  | map es => cases w <;> simp [same, sameEntries_iff es]
  | _ => cases w <;> simp [same]

theorem sameItems_iff (vs ws : List Value) : sameItems vs ws = true ↔ vs = ws := by
  cases vs with
  | nil => cases ws <;> simp [sameItems]
  | cons v vs => cases ws <;> simp [sameItems, same_iff v, sameItems_iff vs]

theorem sameEntries_iff (es fs : List (Value × Value)) : sameEntries es fs = true ↔ es = fs := by
  match es with
  | [] => cases fs <;> simp [sameEntries]
  | (k, v) :: es =>
    cases fs <;> simp [sameEntries, same_iff k, same_iff v, sameEntries_iff es, Prod.ext_iff]

end

instance : DecidableEq Value := fun v w => decidable_of_iff _ (same_iff v w)

end Value
end Runbook
