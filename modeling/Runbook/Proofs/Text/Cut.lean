import Mathlib.Tactic.Common
import Runbook.Proofs.Text.Parts
import Runbook.Proofs.Text.Words

/-! Texts as pieces with separators between them. What is between the blanks at its two ends, a text
has in one way as words with gaps between them. -/
namespace Runbook.Text

/-- A text cut into pieces, with a separator between any two neighbours. -/
inductive Cut (piece separator : Text → Prop) : Text → List Text → Prop
  | last {w : Text} (whole : piece w) : Cut piece separator w [w]
  | more {w gap s : Text} {ws : List Text} (first : piece w) (between : separator gap)
      (rest : Cut piece separator s ws) : Cut piece separator (w ++ (gap ++ s)) (w :: ws)

/-- One character or more of some sort. -/
def IsRun (p : Char → Bool) (s : Text) : Prop := s ≠ [] ∧ s.all p = true

/-- A run of characters that are not white space. -/
abbrev IsWord : Text → Prop := IsRun (!isBlank ·)

/-- A run of white space. -/
abbrev IsGap : Text → Prop := IsRun isBlank

namespace Cut
variable {piece separator : Text → Prop} {s : Text} {ws : List Text}

lemma forall_piece (h : Cut piece separator s ws) : ∀ w ∈ ws, piece w := by
  induction h with
  | last whole => simpa using whole
  | more first _ _ ih => exact List.forall_mem_cons.mpr ⟨first, ih⟩

/-- A text starts as its first piece does. -/
lemma clear {p : Char → Bool} (hpiece : ∀ w, piece w → w ≠ [] ∧ Clear p w)
    (h : Cut piece separator s ws) : Clear p s := by
  cases h with
  | last whole => exact (hpiece _ whole).2
  | more first _ _ =>
    obtain ⟨hne, hclear⟩ := hpiece _ first
    exact hclear.append_of_ne_nil hne _

/-- What makes a piece of any piece that it stands before belongs to the first one. -/
lemma front {w v : Text} {vs : List Text} (hw : ∀ u, piece u → piece (w ++ u))
    (h : Cut piece separator s (v :: vs)) : Cut piece separator (w ++ s) ((w ++ v) :: vs) := by
  cases h with
  | last whole => exact .last (hw _ whole)
  | more first between rest =>
    rw [← List.append_assoc]
    exact .more (hw _ first) between rest

/-- One more character of the same sort in front belongs to the first piece. -/
lemma cons {p : Char → Bool} {c : Char} (hc : p c = true) {w : Text}
    (h : Cut (IsRun p) separator s (w :: ws)) :
    Cut (IsRun p) separator (c :: s) ((c :: w) :: ws) := by
  refine h.front (w := [c]) fun u hu => ⟨List.cons_ne_nil c u, ?_⟩
  rw [List.singleton_append, List.all_cons, hc, hu.2]
  rfl

end Cut

section Runs
variable {p : Char → Bool} {s : Text}

/-- Behind the characters of one sort at its front, a text that does not end with them is runs of
the others with runs of them in between. -/
lemma exists_front_cut (hs : s ≠ []) (hend : Clear p s.reverse) :
    ∃ front rest w ws, s = front ++ rest ∧ front.all p = true ∧
      Cut (IsRun (!p ·)) (IsRun p) rest (w :: ws) := by
  induction s with
  | nil => exact absurd rfl hs
  | cons c s ih =>
    by_cases hnil : s = []
    · subst hnil
      have hc : p c = false := by simpa using hend
      exact ⟨[], [c], [c], [], rfl, rfl, .last ⟨List.cons_ne_nil c [], by simp [hc]⟩⟩
    · rw [List.reverse_cons] at hend
      obtain ⟨front, rest, w, ws, rfl, hfront, hcut⟩ := ih hnil hend.of_append
      by_cases hc : p c = true
      · exact ⟨c :: front, rest, w, ws, rfl, by rw [List.all_cons, hc, hfront]; rfl, hcut⟩
      · have hc : (!p c) = true := by simpa using hc
        by_cases hempty : front = []
        · subst hempty
          exact ⟨[], c :: rest, c :: w, ws, rfl, rfl, hcut.cons hc⟩
        · exact ⟨[], c :: (front ++ rest), [c], w :: ws, rfl, rfl,
            .more ⟨List.cons_ne_nil c [], by simpa using hc⟩ ⟨hempty, hfront⟩ hcut⟩

/-- A text that neither starts nor ends with characters of one sort is runs of the others. -/
theorem exists_cut (hs : s ≠ []) (hstart : Clear p s) (hend : Clear p s.reverse) :
    ∃ ws, Cut (IsRun (!p ·)) (IsRun p) s ws := by
  obtain ⟨front, rest, w, ws, rfl, hfront, hcut⟩ := exists_front_cut hs hend
  cases front with
  | nil => exact ⟨w :: ws, hcut⟩
  | cons c front =>
    have hc : p c = false := clear_cons.mp hstart
    rw [List.all_cons, hc] at hfront
    cases hfront

end Runs

/-! ### The words of a text -/

lemma trim_parts (s : Text) : ∃ front back, s = front ++ (trim s ++ back) ∧
    front.all isBlank = true ∧ back.all isBlank = true := by
  refine ⟨s.takeWhile isBlank, ((trimStart s).reverse.takeWhile isBlank).reverse, ?_,
    List.all_takeWhile, ?_⟩
  · rw [trim, trimEnd, dropEndWhile, ← List.reverse_append, List.takeWhile_append_dropWhile,
      List.reverse_reverse, trimStart, List.takeWhile_append_dropWhile]
  · rw [List.all_reverse]
    exact List.all_takeWhile

lemma trim_ne_nil {s : Text} (h : isBlankText s = false) : trim s ≠ [] := by
  intro hnil
  obtain ⟨front, back, hs, hfront, hback⟩ := trim_parts s
  rw [hs, hnil, List.nil_append, isBlankText, List.all_append, hfront, hback] at h
  cases h

lemma clear_reverse_trim (s : Text) : Clear isBlank (trim s).reverse := by
  rw [trim, trimEnd, dropEndWhile, List.reverse_reverse]
  exact clear_dropWhile isBlank _

lemma words_blanks {front : Text} (h : front.all isBlank = true) (s : Text) :
    words (front ++ s) = words s := by
  induction front with
  | nil => rfl
  | cons c front ih =>
    obtain ⟨hc, hfront⟩ := Bool.and_eq_true_iff.mp h
    rw [List.cons_append, words, splitAll, if_pos hc, List.filter_cons_of_neg (by simp)]
    exact ih hfront

lemma words_word {w rest s : Text} (hw : IsWord w) (hrest : IsGap rest) :
    words (w ++ (rest ++ s)) = w :: words s := by
  obtain ⟨c, rest, rfl⟩ := List.exists_cons_of_ne_nil hrest.1
  obtain ⟨hc, hblank⟩ := Bool.and_eq_true_iff.mp hrest.2
  rw [List.cons_append, words_append hw.1 hw.2 hc, words_blanks hblank]

lemma Cut.words_eq {s back : Text} {ws : List Text} (h : Cut IsWord IsGap s ws)
    (hback : back.all isBlank = true) : words (s ++ back) = ws := by
  induction h with
  | @last w whole =>
    by_cases hnil : back = []
    · rw [hnil, List.append_nil, words_of_all whole.2, if_neg (by simpa using whole.1)]
    · have h := words_word (s := []) whole ⟨hnil, hback⟩
      rwa [List.append_nil] at h
  | more first between rest ih =>
    rw [List.append_assoc, List.append_assoc, words_word first between, ih]

/-- The words of a text that is not blank are its pieces between gaps. -/
theorem cut_words {s : Text} (h : isBlankText s = false) : Cut IsWord IsGap (trim s) (words s) := by
  obtain ⟨ws, hcut⟩ := exists_cut (trim_ne_nil h) (clear_trim s) (clear_reverse_trim s)
  obtain ⟨front, back, hs, hfront, hback⟩ := trim_parts s
  have hwords : words s = ws := by rw [hs, words_blanks hfront, hcut.words_eq hback]
  rwa [hwords]

end Runbook.Text
