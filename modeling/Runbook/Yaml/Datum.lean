import Runbook.Number.Arithmetic
import Runbook.Number.Shortest
import Runbook.Text.Digits
import Runbook.Yaml.Date

/-! The data of a document. Collections are filled only after they have been mentioned, perhaps inside
themselves, so that data name a collection by the place of its holder. -/
namespace Runbook.Yaml

inductive Datum where
  | null
  | bool (b : Bool)
  | int (n : Int)
  | real (x : Number.Binary)
  /-- The number that is none. It is the same as itself only, wherever it comes from. -/
  | undefined (origin : Nat)
  | text (s : Text)
  | bytes (bs : List UInt8)
  | date (d : Date)
  | moment (m : Moment)
  | tuple (items : List Datum)
  | holder (place : Nat)
  deriving Repr, Inhabited

/-- A collection. -/
inductive Holder where
  | list (items : List Datum)
  | map (entries : List (Datum × Datum))
  | set (keys : List Datum)
  deriving Repr, Inhabited

namespace Datum

/-- A dyadic number in lowest terms. -/
structure Dyadic where
  odd : Int
  exponent : Int
  deriving DecidableEq

/-- A whole number times a power of two in lowest terms, where the fuel is at least the number of
its binary digits. -/
def reduced (fuel : Nat) (n exponent : Int) : Dyadic :=
  match fuel with
  | 0 => ⟨n, exponent⟩
  | fuel + 1 =>
    if n = 0 then ⟨0, 0⟩
    else if n % 2 = 0 then reduced fuel (n / 2) (exponent + 1)
    else ⟨n, exponent⟩

/-- The value of a number, of whatever type it is. -/
def dyadic? : Datum → Option Dyadic
  | bool b => some (reduced 1 (if b then 1 else 0) 0)
  | int n => some (reduced (n.natAbs.log2 + 1) n 0)
  | real (.finite negative m e) =>
    some (reduced (m.log2 + 1) (Number.Binary.signed negative m) e)
  | _ => none

mutual

/-- Two data are the same key. -/
def same (a b : Datum) : Bool :=
  match a, b with
  | null, null => true
  | undefined i, undefined j => i == j
  | text s, text t => s == t
  | bytes x, bytes y => x == y
  | date d, date e => d == e
  | moment m, moment n => m.same n
  | tuple xs, tuple ys => sameAll xs ys
  | real (.infinite x), real (.infinite y) => x == y
  | a, b =>
    match a.dyadic?, b.dyadic? with
    | some x, some y => x == y
    | _, _ => false

def sameAll (xs ys : List Datum) : Bool :=
  match xs, ys with
  | [], [] => true
  | x :: xs, y :: ys => same x y && sameAll xs ys
  | _, _ => false

end

mutual

/-- Collections cannot be keys, nor can what holds one. -/
def isFixed : Datum → Bool
  | tuple items => areFixed items
  | holder _ => false
  | _ => true

def areFixed : List Datum → Bool
  | [] => true
  | d :: ds => d.isFixed && areFixed ds

end

mutual

/-- Everything inside can be shown: integers with more digits than are read cannot. -/
def isShown : Datum → Bool
  | int n => Text.hasNumeral n
  | tuple items => areShown items
  | _ => true

def areShown : List Datum → Bool
  | [] => true
  | d :: ds => d.isShown && areShown ds

end

def tupleShown (items : List Text) : Text :=
  match items with
  | [item] => '(' :: item ++ [',', ')']
  | items => '(' :: Text.joinWith ", " items ++ [')']

mutual

/-- A key as it is shown inside another one. -/
def shown : Datum → Text
  | null => "None"
  | bool b => if b then "True" else "False"
  | int n => Text.ofInt n
  | real (.finite negative m e) => Number.writeFinite negative m e
  | real (.infinite negative) => if negative then "-inf" else "inf"
  | real .undefined => "nan"
  | undefined _ => "nan"
  | text s => Text.inQuotes s
  | bytes bs => Text.bytesInQuotes bs
  | date d => d.shown
  | moment m => m.shown
  | tuple items => tupleShown (allShown items)
  | holder _ => []

def allShown : List Datum → List Text
  | [] => []
  | d :: ds => d.shown :: allShown ds

end

/-- The entries with one more; a key that is there already keeps its place. -/
def put (entries : List (Datum × Datum)) (key value : Datum) : List (Datum × Datum) :=
  match entries with
  | [] => [(key, value)]
  | (k, old) :: rest =>
    if same k key then (k, value) :: rest else (k, old) :: put rest key value

def hasKey (entries : List (Datum × Datum)) (key : Datum) : Bool :=
  entries.any fun e => same e.1 key

end Datum
end Runbook.Yaml
