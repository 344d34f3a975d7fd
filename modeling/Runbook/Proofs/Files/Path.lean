import Mathlib.Tactic.Common
import Runbook.Files.Path
import Runbook.Proofs.Text.Words

/-! Paths and their written forms: a path that comes from a written form is told by it. -/
namespace Runbook

namespace Text

/-- The pieces between separators have none in them. -/
lemma all_of_mem_splitAll {p : Char → Bool} {s : Text} :
    ∀ w ∈ splitAll p s, w.all (!p ·) = true := by
  induction s with
  | nil => simp [splitAll]
  | cons c s ih =>
    rw [splitAll]
    split
    · exact List.forall_mem_cons.mpr ⟨rfl, ih⟩
    · next hc =>
      have hc : (!p c) = true := by simpa using hc
      split
      · exact List.forall_mem_singleton.mpr (by rw [List.all_cons, hc]; rfl)
      · next w ws hsplit =>
        rw [hsplit] at ih
        obtain ⟨hw, hws⟩ := List.forall_mem_cons.mp ih
        refine List.forall_mem_cons.mpr ⟨?_, hws⟩
        rw [List.all_cons, hc, hw]
        rfl

/-- Pieces that are joined are found again. -/
lemma splitAll_joinWith {p : Char → Bool} {c : Char} (hc : p c = true) {ws : List Text}
    (hne : ws ≠ []) (h : ∀ w ∈ ws, w.all (!p ·) = true) : splitAll p (joinWith [c] ws) = ws := by
  induction ws with
  | nil => exact absurd rfl hne
  | cons w ws ih =>
    obtain ⟨hw, hws⟩ := List.forall_mem_cons.mp h
    cases ws with
    | nil => exact splitAll_of_all hw
    | cons v ws =>
      change splitAll p (w ++ [c] ++ joinWith [c] (v :: ws)) = _
      rw [List.append_assoc, List.singleton_append, splitAll_append hw hc,
        ih (List.cons_ne_nil v ws) hws]

end Text

/-- What a file can be called. -/
def IsName (name : Text) : Prop :=
  name ≠ [] ∧ name ≠ ['.'] ∧ name ≠ Path.parent ∧ '/' ∉ name ∧ '\x00' ∉ name
  deriving Decidable

namespace Path

/-- What can stand between two slashes and is kept. -/
def IsPart (s : Text) : Prop := isPart s = true ∧ s.all (fun c => !(c == '/')) = true

/-- A path as it is read from a written form. -/
def Regular (p : Path) : Prop := p.slashes ≤ 2 ∧ ∀ part ∈ p.parts, IsPart part

lemma regular_ofText (s : Text) : (ofText s).Regular := by
  constructor
  · dsimp only [ofText]
    split <;> omega
  · intro part hpart
    obtain ⟨hsplit, hpart⟩ := List.mem_filter.mp hpart
    exact ⟨hpart, Text.all_of_mem_splitAll part hsplit⟩

lemma Regular.child {p : Path} (h : p.Regular) (s : Text) : (p.child s).Regular := by
  rw [Path.child, join]
  split
  · exact regular_ofText s
  · exact ⟨h.1, List.forall_mem_append.mpr ⟨h.2, (regular_ofText s).2⟩⟩

lemma filter_splitAll_slashes (n : Nat) (s : Text) :
    (Text.splitAll (· == '/') (List.replicate n '/' ++ s)).filter isPart =
      (Text.splitAll (· == '/') s).filter isPart := by
  induction n with
  | zero => rfl
  | succ n ih =>
    rw [List.replicate_succ, List.cons_append, Text.splitAll, if_pos (by decide),
      List.filter_cons_of_neg (by decide), ih]

lemma filter_splitAll_parts {parts : List Text} (h : ∀ part ∈ parts, IsPart part) :
    (Text.splitAll (· == '/') (Text.joinWith ['/'] parts)).filter isPart = parts := by
  by_cases hne : parts = []
  · subst hne
    rfl
  · rw [Text.splitAll_joinWith (by decide) hne fun part hpart => (h part hpart).2]
    exact List.filter_eq_self.mpr fun part hpart => (h part hpart).1

lemma clear_parts {parts : List Text} (h : ∀ part ∈ parts, IsPart part) :
    Text.Clear (· == '/') (Text.joinWith ['/'] parts) := by
  cases parts with
  | nil => exact Text.clear_nil _
  | cons part parts =>
    obtain ⟨hpart, hslash⟩ := h part List.mem_cons_self
    have hne : part ≠ [] := by
      rintro rfl
      cases hpart
    rw [Text.joinWith_cons]
    exact (Text.clear_of_all hslash).append_of_ne_nil hne _

theorem ofText_toText {p : Path} (h : p.Regular) : ofText p.toText = p := by
  obtain ⟨slashes, parts⟩ := p
  obtain ⟨hslashes, hparts⟩ := h
  rw [toText]
  split
  · next hdot =>
    obtain ⟨rfl, hnil⟩ : slashes = 0 ∧ parts = [] := by simpa using hdot
    rw [hnil]
    rfl
  · have hcount : ((List.replicate slashes '/' ++ Text.joinWith ['/'] parts).takeWhile
        (· == '/')).length = slashes := by
      rw [Text.takeWhile_append_clear (by simp) (clear_parts hparts), List.length_replicate]
    dsimp only
    rw [ofText, hcount, if_pos hslashes, filter_splitAll_slashes, filter_splitAll_parts hparts]

/-- A path that comes from a written form is told by it. -/
lemma Regular.ext {p q : Path} (hp : p.Regular) (hq : q.Regular) (h : p.toText = q.toText) :
    p = q := by
  rw [← ofText_toText hp, ← ofText_toText hq, h]

section Names

variable {p q : Path} {name other : Text}

lemma ofText_name (h : IsName name) : ofText name = ⟨0, [name]⟩ := by
  obtain ⟨hne, hdot, -, hslash, -⟩ := h
  have hall : name.all (fun c => !(c == '/')) = true := by
    rw [List.all_eq_true]
    intro c hc
    have hne : c ≠ '/' := ne_of_mem_of_not_mem hc hslash
    simpa using hne
  have hcount : name.takeWhile (· == '/') = [] := by
    have h := Text.takeWhile_append_clear (s := []) (p := (· == '/')) rfl (Text.clear_of_all hall)
    exact h
  have hpart : isPart name = true := by simp [isPart, hne, hdot]
  rw [ofText, hcount, Text.splitAll_of_all hall, List.filter_cons_of_pos hpart]
  rfl

lemma child_name (h : IsName name) : p.child name = { p with parts := p.parts ++ [name] } := by
  rw [child, ofText_name h]
  rfl

/-- The path of an entry tells the directory and the name. -/
lemma child_inj (hn : IsName name) (ho : IsName other) (h : p.child name = q.child other) :
    p = q ∧ name = other := by
  rw [child_name hn, child_name ho, mk.injEq] at h
  obtain ⟨hparts, hlast⟩ := List.append_inj' h.2 rfl
  exact ⟨by cases p; cases q; simp_all, List.singleton_inj.mp hlast⟩

end Names
end Path
end Runbook
