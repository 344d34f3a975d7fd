import Mathlib.Tactic.Common
import Runbook.Text.Basic

/-! Where a longest beginning of one sort of characters ends: a text of that sort, before a rest
that does not start with it. -/
namespace Runbook.Text

/-- The text does not start with a character of some sort. -/
def Clear (p : Char → Bool) (s : Text) : Prop := ∀ c ∈ s.head?, p c = false

@[simp] theorem clear_nil (p : Char → Bool) : Clear p [] := by simp [Clear]

@[simp] theorem clear_cons {p : Char → Bool} {c : Char} {s : Text} :
    Clear p (c :: s) ↔ p c = false := by simp [Clear]

lemma Clear.append {p : Char → Bool} {s t : Text} (hs : Clear p s) (ht : Clear p t) :
    Clear p (s ++ t) := by
  cases s with
  | nil => exact ht
  | cons c s => exact clear_cons.mpr (clear_cons.mp hs)

lemma Clear.append_of_ne_nil {p : Char → Bool} {s : Text} (h : Clear p s) (hs : s ≠ [])
    (t : Text) : Clear p (s ++ t) := by
  obtain ⟨c, r, rfl⟩ := List.exists_cons_of_ne_nil hs
  exact clear_cons.mpr (clear_cons.mp h)

lemma isBlankText_of_clear {s : Text} (hs : s ≠ []) (h : Clear isBlank s) :
    isBlankText s = false := by
  obtain ⟨c, r, rfl⟩ := List.exists_cons_of_ne_nil hs
  rw [isBlankText, List.all_cons, clear_cons.mp h]
  rfl

lemma Clear.of_append {p : Char → Bool} {s t : Text} (h : Clear p (s ++ t)) : Clear p s := by
  cases s with
  | nil => exact clear_nil p
  | cons c s => exact clear_cons.mpr (clear_cons.mp h)

/-- A text has no character of some sort at its front if it has none at all. -/
lemma clear_of_all {p : Char → Bool} {s : Text} (h : s.all (!p ·) = true) : Clear p s := by
  intro c hc
  simpa using List.all_eq_true.mp h c (List.mem_of_mem_head? hc)

lemma all_mono {p q : Char → Bool} (h : ∀ c, p c = true → q c = true) {s : Text}
    (hs : s.all p = true) : s.all q = true :=
  List.all_eq_true.mpr fun c hc => h c (List.all_eq_true.mp hs c hc)

lemma dropWhile_clear {p : Char → Bool} {s : Text} (h : Clear p s) : s.dropWhile p = s := by
  cases s with
  | nil => rfl
  | cons c s => exact List.dropWhile_cons_of_neg (by simpa using h)

lemma takeWhile_append_clear {p : Char → Bool} {s rest : Text} (hs : s.all p = true)
    (hr : Clear p rest) : (s ++ rest).takeWhile p = s := by
  rw [List.takeWhile_append_of_pos (List.all_eq_true.mp hs)]
  cases rest with
  | nil => exact List.append_nil s
  | cons c rest =>
    rw [List.takeWhile_cons_of_neg (by simpa using hr)]
    exact List.append_nil s

lemma dropWhile_append_clear {p : Char → Bool} {s rest : Text} (hs : s.all p = true)
    (hr : Clear p rest) : (s ++ rest).dropWhile p = rest := by
  rw [List.dropWhile_append_of_pos (List.all_eq_true.mp hs)]
  cases rest with
  | nil => rfl
  | cons c rest => exact List.dropWhile_cons_of_neg (by simpa using hr)

lemma clear_dropWhile (p : Char → Bool) (s : Text) : Clear p (s.dropWhile p) := by
  induction s with
  | nil => exact clear_nil p
  | cons c s ih =>
    by_cases hc : p c = true
    · rwa [List.dropWhile_cons_of_pos hc]
    · rw [List.dropWhile_cons_of_neg hc]
      simpa using hc

/-- A text starts with a run of a character, which may be empty. -/
lemma exists_replicate (c : Char) (s : Text) :
    s = List.replicate (s.takeWhile (· == c)).length c ++ s.dropWhile (· == c) := by
  have hall : s.takeWhile (· == c) = List.replicate (s.takeWhile (· == c)).length c := by
    refine List.eq_replicate_iff.mpr ⟨rfl, fun d hd => ?_⟩
    simpa using List.all_eq_true.mp List.all_takeWhile d hd
  rw [← hall, List.takeWhile_append_dropWhile]

end Runbook.Text
