import Mathlib.Tactic.Common
import Runbook.Proofs.Text.Lines

/-! Words with one space between neighbours: cutting such a text into words and joining them again
changes nothing. -/
namespace Runbook.Text

/-- One word or more of characters of some sort, with single spaces between them. -/
inductive Spaced (p : Char → Bool) : Text → Prop
  | word {w : Text} (nonempty : w ≠ []) (chars : w.all p = true) : Spaced p w
  | space {w s : Text} (nonempty : w ≠ []) (chars : w.all p = true) (rest : Spaced p s) :
      Spaced p (w ++ ' ' :: s)

variable {p q : Char → Bool} {s t w : Text}

lemma splitAll_append {c : Char} (hw : w.all (!p ·) = true) (hc : p c = true) (s : Text) :
    splitAll p (w ++ c :: s) = w :: splitAll p s := by
  induction w with
  | nil => rw [List.nil_append, splitAll, if_pos hc]
  | cons d w ih =>
    obtain ⟨hd, hw⟩ := Bool.and_eq_true_iff.mp hw
    rw [List.cons_append, splitAll, if_neg (by simpa using hd), ih hw]

/-- A word and white space before a text are its first word. -/
lemma words_append (hw : w ≠ []) (h : w.all (!isBlank ·) = true) {c : Char}
    (hc : isBlank c = true) (s : Text) : words (w ++ c :: s) = w :: words s := by
  rw [words, splitAll_append h hc, List.filter_cons_of_pos (by simp [hw])]
  rfl

namespace Spaced

lemma append_space (hs : Spaced p s) (ht : Spaced p t) : Spaced p (s ++ ' ' :: t) := by
  induction hs with
  | word hw h => exact .space hw h ht
  | space hw h rest ih =>
    rw [List.append_assoc, List.cons_append]
    exact .space hw h ih

/-- More characters at the end belong to the last word. -/
lemma append (hs : Spaced p s) (ht : t.all p = true) : Spaced p (s ++ t) := by
  induction hs with
  | @word w hw h =>
    have hall : (w ++ t).all p = true := by
      rw [List.all_append, h, ht]
      rfl
    exact .word (List.append_ne_nil_of_left_ne_nil hw t) hall
  | space hw h rest ih =>
    rw [List.append_assoc, List.cons_append]
    exact .space hw h ih

lemma flatMap (hs : Spaced p s) {ts : List Text} (hts : ∀ t ∈ ts, Spaced p t) :
    Spaced p (s ++ ts.flatMap (' ' :: ·)) := by
  induction ts generalizing s with
  | nil => simpa using hs
  | cons t ts ih =>
    obtain ⟨ht, hts⟩ := List.forall_mem_cons.mp hts
    rw [List.flatMap_cons, ← List.append_assoc]
    exact ih (hs.append_space ht) hts

lemma mono (hs : Spaced p s) (h : ∀ c, p c = true → q c = true) : Spaced q s := by
  induction hs with
  | word hw hall => exact .word hw (all_mono h hall)
  | space hw hall rest ih => exact .space hw (all_mono h hall) ih

/-- The characters of the text are those of its words, and spaces. -/
lemma all (hs : Spaced p s) (h : ∀ c, p c = true → q c = true) (hspace : q ' ' = true) :
    s.all q = true := by
  induction hs with
  | word hw hall => exact all_mono h hall
  | space hw hall rest ih => rw [List.all_append, List.all_cons, all_mono h hall, hspace, ih]; rfl

lemma ne_nil (hs : Spaced p s) : s ≠ [] := by
  cases hs with
  | word hw => exact hw
  | space => simp

section Words
variable (hp : ∀ c, p c = true → (!isBlank c) = true)
include hp

theorem unwords_words (hs : Spaced p s) : unwords (words s) = s := by
  have one {w : Text} (hw : w ≠ []) (h : w.all p = true) : words w = [w] := by
    rw [words_of_all (all_mono hp h), if_neg (by simpa using hw)]
  induction hs with
  | word hw h =>
    rw [one hw h]
    rfl
  | @space w s hw h rest ih =>
    obtain ⟨v, vs, hwords⟩ : ∃ v vs, words s = v :: vs := by
      cases rest with
      | word hw h => exact ⟨_, _, one hw h⟩
      | space hw h => exact ⟨_, _, words_append hw (all_mono hp h) (by decide) _⟩
    rw [words_append hw (all_mono hp h) (by decide), hwords]
    change w ++ [' '] ++ unwords (v :: vs) = _
    rw [← hwords, ih, List.append_assoc]
    rfl

lemma clear (hs : Spaced p s) : Clear isBlank s := by
  cases hs with
  | word hw h => exact clear_of_all (all_mono hp h)
  | space hw h => exact (clear_of_all (all_mono hp h)).append_of_ne_nil hw _

lemma clear_reverse (hs : Spaced p s) : Clear isBlank s.reverse := by
  induction hs with
  | word hw h => exact clear_of_all (by rw [List.all_reverse]; exact all_mono hp h)
  | @space w s hw h rest ih =>
    rw [List.reverse_append, List.reverse_cons, List.append_assoc]
    exact ih.append_of_ne_nil (by simpa using rest.ne_nil) _

lemma trim_eq (hs : Spaced p s) : trim s = s := trim_clear (hs.clear hp) (hs.clear_reverse hp)

end Words
end Spaced
end Runbook.Text
