import Mathlib.Tactic.Common
import Runbook.Shell

/-! Words of a shell that are quoted and joined are cut back into the same words, whatever
characters stand in them. -/
namespace Runbook.Shell

/-- A character that needs no quoting means nothing to the shell. -/
lemma isSafe_plain {c : Char} (h : isSafe c = true) :
    isBlank c = false ∧ c ≠ '\'' ∧ c ≠ '"' ∧ c ≠ '\\' := by
  have hne (d : Char) (hd : isSafe d = false) : c ≠ d := by
    rintro rfl
    cases h.symm.trans hd
  refine ⟨?_, hne _ (by decide), hne _ (by decide), hne _ (by decide)⟩
  have hspace := hne ' ' (by decide)
  have htab := hne '\t' (by decide)
  have hreturn := hne '\r' (by decide)
  have hfeed := hne '\n' (by decide)
  simp [isBlank, hspace, htab, hreturn, hfeed]

lemma splitFrom_plain {mode : Mode} (hm : mode = .between ∨ mode = .word) {c : Char}
    (h : isSafe c = true) (s : Text) :
    splitFrom mode (c :: s) = (splitFrom .word s).map (extend c) := by
  obtain ⟨hb, hq, hd, he⟩ := isSafe_plain h
  rcases hm with rfl | rfl <;> simp [splitFrom, hb, hq, hd, he]

lemma splitFrom_single {c : Char} (h : c ≠ '\'') (s : Text) :
    splitFrom .single (c :: s) = (splitFrom .single s).map (extend c) := by
  rw [splitFrom, if_neg h]

/-- A single quote that stands in double quotes between two quoted parts of one word. -/
lemma splitFrom_singleQuote (s : Text) :
    splitFrom .single ("'\"'\"'" ++ s) = (splitFrom .single s).map (extend '\'') := rfl

/-! ### Words -/

variable {r : Text} {ws : List Text}

lemma splitFrom_safe {w : Text} (hw : w.all isSafe = true)
    (h : splitFrom .word r = .ok ([] :: ws)) : splitFrom .word (w ++ r) = .ok (w :: ws) := by
  induction w with
  | nil => exact h
  | cons c w ih =>
    rw [List.all_cons, Bool.and_eq_true] at hw
    rw [List.cons_append, splitFrom_plain (.inr rfl) hw.1, ih hw.2]
    rfl

lemma splitFrom_inQuotes (w : Text) (h : splitFrom .word r = .ok ([] :: ws)) :
    splitFrom .between (inQuotes w ++ r) = .ok (w :: ws) := by
  have hopen (s : Text) : splitFrom .between ('\'' :: s) = splitFrom .single s := rfl
  rw [inQuotes, List.append_assoc, List.cons_append, hopen]
  induction w with
  | nil => exact h
  | cons c w ih =>
    rw [List.flatMap_cons, List.append_assoc]
    by_cases hc : c = '\''
    · subst hc
      rw [if_pos (beq_self_eq_true _)]
      exact (splitFrom_singleQuote _).trans (by rw [ih]; rfl)
    · rw [if_neg (by simpa using hc), List.singleton_append, splitFrom_single hc, ih]
      rfl

/-- A quoted word is the first one, before anything that begins a new word. -/
theorem splitFrom_quote (w : Text) (h : splitFrom .word r = .ok ([] :: ws)) :
    splitFrom .between (quote w ++ r) = .ok (w :: ws) := by
  unfold quote
  split
  · next hw =>
    rw [Bool.and_eq_true, Bool.not_eq_true', List.isEmpty_eq_false_iff] at hw
    obtain ⟨c, v, rfl⟩ := List.exists_cons_of_ne_nil hw.1
    have hall := hw.2
    rw [List.all_cons, Bool.and_eq_true] at hall
    rw [List.cons_append, splitFrom_plain (.inl rfl) hall.1, splitFrom_safe hall.2 h]
    rfl
  · exact splitFrom_inQuotes w h

/-- What is quoted and joined is cut back into the same words. -/
theorem split_join (ws : List Text) : split (join ws) = .ok ws := by
  have hblank (s : Text) : splitFrom .word (' ' :: s) = (splitFrom .between s).map ([] :: ·) := rfl
  unfold split join
  induction ws with
  | nil => rfl
  | cons w ws ih =>
    cases ws with
    | nil => simpa [Text.unwords, Text.joinWith] using splitFrom_quote (r := []) w rfl
    | cons v ws =>
      have htext : Text.unwords ((w :: v :: ws).map quote) =
          quote w ++ ' ' :: Text.unwords ((v :: ws).map quote) := by
        simp [Text.unwords, Text.joinWith]
      rw [htext]
      refine splitFrom_quote w ?_
      rw [hblank, ih]
      rfl

example : split (join ["echo", "", "it's", "a \"b\" \\ $c\n"]) =
    .ok ["echo", "", "it's", "a \"b\" \\ $c\n"] := by decide

end Runbook.Shell
