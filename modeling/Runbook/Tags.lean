import Runbook.Text.Order

/-! Sets of project types, kept as increasing lists so that equal sets are equal. -/
namespace Runbook

structure Tags where
  toList : List Text
  increasing : toList.Pairwise fun s t => Text.precedes s t
  deriving DecidableEq, Repr

namespace Tags

instance : Membership Text Tags := ⟨fun ts t => t ∈ ts.toList⟩

instance (t : Text) (ts : Tags) : Decidable (t ∈ ts) := inferInstanceAs (Decidable (t ∈ ts.toList))

theorem mem_def {t : Text} {ts : Tags} : t ∈ ts ↔ t ∈ ts.toList := Iff.rfl

def empty : Tags := ⟨[], .nil⟩

instance : EmptyCollection Tags := ⟨empty⟩

instance : Inhabited Tags := ⟨∅⟩

/-- A text put into an increasing list, unless it is there. -/
def place (t : Text) : List Text → List Text
  | [] => [t]
  | u :: us =>
    if Text.precedes t u then t :: u :: us else if t = u then u :: us else u :: place t us

theorem mem_place {t u : Text} {us : List Text} : u ∈ place t us ↔ u = t ∨ u ∈ us := by
  induction us with
  | nil => simp [place]
  | cons v vs ih =>
    unfold place
    split
    · simp
    · split
      · next h => simp [h]
      · simp only [List.mem_cons, ih]
        exact or_left_comm

theorem place_increasing (t : Text) {us : List Text}
    (h : us.Pairwise fun s t => Text.precedes s t) :
    (place t us).Pairwise fun s t => Text.precedes s t := by
  induction us with
  | nil => simp [place]
  | cons v vs ih =>
    have hv := List.pairwise_cons.1 h
    unfold place
    split
    · next hlt =>
      refine List.pairwise_cons.2 ⟨fun w hw => ?_, h⟩
      rcases List.mem_cons.1 hw with rfl | hw
      · exact hlt
      · exact Text.precedes_trans hlt (hv.1 w hw)
    · next hlt =>
      split
      · exact h
      · next hne =>
        refine List.pairwise_cons.2 ⟨fun w hw => ?_, ih hv.2⟩
        rcases mem_place.1 hw with rfl | hw
        · exact (Text.precedes_or_precedes hne).resolve_left hlt
        · exact hv.1 w hw

def insert (t : Text) (ts : Tags) : Tags := ⟨place t ts.toList, place_increasing t ts.increasing⟩

@[simp] theorem mem_insert {t u : Text} {ts : Tags} : u ∈ ts.insert t ↔ u = t ∨ u ∈ ts := mem_place

/-- The tags of a list, in any order and with any repetitions. -/
def ofList (ts : List Text) : Tags := ts.foldr insert ∅

@[simp] theorem not_mem_empty (t : Text) : ¬ t ∈ (∅ : Tags) := List.not_mem_nil

@[simp] theorem mem_ofList {t : Text} {ts : List Text} : t ∈ ofList ts ↔ t ∈ ts := by
  induction ts with
  | nil => simp [ofList]
  | cons u us ih => simpa [ofList] using or_congr Iff.rfl ih

/-- The tags of either set. -/
def union (ts us : Tags) : Tags := ts.toList.foldr insert us

instance : Union Tags := ⟨union⟩

@[simp] theorem mem_union {t : Text} {ts us : Tags} : t ∈ ts ∪ us ↔ t ∈ ts ∨ t ∈ us := by
  show t ∈ ts.toList.foldr insert us ↔ t ∈ ts.toList ∨ t ∈ us
  induction ts.toList with
  | nil => simp
  | cons v vs ih => simp [ih, or_assoc]

/-- The two sets have a tag in common. -/
def meets (ts us : Tags) : Bool := ts.toList.any us.toList.contains

def isEmpty (ts : Tags) : Bool := ts.toList.isEmpty

end Tags
end Runbook
