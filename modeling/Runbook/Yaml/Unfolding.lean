import Runbook.Value
import Runbook.Yaml.Datum

/-! Data with every collection in its place, instead of the place of its holder. What holds itself has
no end, so it is unfolded a few times only. -/
namespace Runbook.Yaml

/-- The text for a tuple, unless something inside it cannot be shown. -/
def tupleText (items : List Datum) : Text :=
  if Datum.areShown items then Datum.shown (.tuple items) else "<unprintable tuple object>"

/-- A datum as a value, if the collections that it names have values. -/
def Datum.value? (collection? : Nat → Option Value) : Datum → Option Value
  | null => some .null
  | bool b => some (.bool b)
  | int n => some (.int n)
  | real x => some (.real x)
  | undefined _ => some (.real .undefined)
  | text s => some (.text s)
  | bytes bs => some (.bytes bs)
  | date d => some (.other d.shown)
  | moment m => some (.other m.shown)
  | tuple items => some (.other (tupleText items))
  | holder place => collection? place

/-- A collection as a value. The keys of a set are a list. -/
def Holder.value? (collection? : Nat → Option Value) : Holder → Option Value
  | list items => (items.mapM (Datum.value? collection?)).map .list
  | set keys => (keys.mapM (Datum.value? collection?)).map .list
  | map entries => (entries.mapM fun e : Datum × Datum => do
      return (← e.1.value? collection?, ← e.2.value? collection?)).map .map

/-- The collections that have values, each at the place of its holder. -/
abbrev Known := Array (Option Value)

def Known.count (known : Known) : Nat := known.countP Option.isSome

def Known.at? (known : Known) (place : Nat) : Option Value := known[place]?.join

/-- One layer more: the collections whose parts have values. -/
def layer (holders : Array Holder) (known : Known) : Known :=
  (holders.zip known).map fun (h, v) => v <|> h.value? known.at?

/-- Layers until no collection is added; at most as many as there are collections. -/
def layers (holders : Array Holder) : Nat → Known → Known
  | 0, known => known
  | fuel + 1, known =>
    let next := layer holders known
    if next.count = known.count then known else layers holders fuel next

/-- How often a collection that holds itself is unfolded. -/
def unfoldings : Nat := 8

/-- One layer more of the collections that hold themselves. -/
def unfoldOnce (holders : Array Holder) (known shallow : Known) : Known :=
  (holders.zip known).map fun (h, v) =>
    v <|> h.value? fun place => some ((shallow.at? place).getD (.other []))

/-- The value of a datum among collections. -/
def unfold (holders : Array Holder) (d : Datum) : Value :=
  let known := layers holders holders.size (holders.map fun _ => none)
  match d.value? known.at? with
  | some v => v
  | none =>
    let deep := Nat.repeat (unfoldOnce holders known) unfoldings known
    (d.value? deep.at?).getD (.other [])

end Runbook.Yaml
