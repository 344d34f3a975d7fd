import Mathlib.Tactic.Common
import Runbook.Proofs.Text.Span

/-! Texts that are put together and cut again: lines, words, and texts without white space at their
ends. -/
namespace Runbook.Text

/-- A character that does not end a line begins the first line. -/
lemma lines_cons {c : Char} (hc : isLineBreak c = false) {s l : Text} {ls : List Text}
    (h : lines s = l :: ls) : lines (c :: s) = (c :: l) :: ls := by
  rw [lines, if_neg (by simp [hc]), h]
  rintro t rfl
  cases hc

/-- Characters that do not end a line begin the first line. -/
lemma lines_append_front {w : Text} (hw : w.all (!isLineBreak ·) = true) {s l : Text}
    {ls : List Text} (h : lines s = l :: ls) : lines (w ++ s) = (w ++ l) :: ls := by
  induction w with
  | nil => exact h
  | cons c w ih =>
    obtain ⟨hc, hw⟩ := Bool.and_eq_true_iff.mp hw
    exact lines_cons (by simpa using hc) (ih hw)

lemma lines_append {l : Text} (h : l.all (!isLineBreak ·) = true) (s : Text) :
    lines (l ++ '\n' :: s) = l :: lines s := by
  have hbreak : lines ('\n' :: s) = [] :: lines s := rfl
  simpa using lines_append_front h hbreak

/-- Lines that are written one below the other are read back. -/
theorem lines_unlines {ls : List Text} (h : ∀ l ∈ ls, l.all (!isLineBreak ·) = true) :
    lines (unlines ls) = ls := by
  induction ls with
  | nil => rfl
  | cons l ls ih =>
    obtain ⟨hl, hls⟩ := List.forall_mem_cons.mp h
    have hcons : unlines (l :: ls) = l ++ '\n' :: unlines ls := by simp [unlines]
    rw [hcons, lines_append hl, ih hls]

/-- A break ends an empty line, unless it is the first half of one. -/
lemma lines_break {c : Char} (hc : isLineBreak c = true) {s : Text}
    (hpair : ∀ r, c = '\r' → s = '\n' :: r → False) : lines (c :: s) = [] :: lines s := by
  rw [lines, if_pos hc]
  exact hpair

lemma lines_ne_nil {s : Text} (hs : s ≠ []) : lines s ≠ [] := by
  intro hnil
  unfold lines at hnil
  split at hnil
  · exact hs rfl
  · cases hnil
  · split at hnil
    · cases hnil
    · split at hnil <;> cases hnil

/-- The lines of a text that ends its last line are apart from those of what follows. -/
theorem lines_append_lines {s t : Text} (hs : ∀ c ∈ s.getLast?, isLineBreak c = true)
    (ht : t.head? ≠ some '\n') : lines (s ++ t) = lines s ++ lines t := by
  -- What is left after a first part ends its last line too, if there is anything left.
  have rest {c : Char} {r : Text} (h : ∀ d ∈ (c :: r).getLast?, isLineBreak d = true) :
      ∀ d ∈ r.getLast?, isLineBreak d = true := by
    cases r with
    | nil => simp
    | cons d r => rwa [List.getLast?_cons_cons] at h
  have apart {c : Char} {r : Text} (h : ∀ u, c = '\r' → r = '\n' :: u → False) :
      ∀ u, c = '\r' → r ++ t = '\n' :: u → False := by
    intro u hc hu
    cases r with
    | nil => exact ht (by rw [← List.nil_append t, hu]; rfl)
    | cons d r => exact h r hc (by rw [(List.cons.inj hu).1])
  induction s using lines.induct with
  | case1 => rfl
  | case2 s ih =>
    rw [List.cons_append, List.cons_append, lines, lines, ih (rest (rest hs)), List.cons_append]
  | case3 c s hpair hc ih =>
    rw [List.cons_append, lines_break hc hpair, lines_break hc (apart hpair), ih (rest hs)]
    rfl
  | case4 c s hpair hc hnil ih =>
    -- The last character would not end a line.
    have : s = [] := by
      by_contra hne
      exact lines_ne_nil hne hnil
    subst this
    exact absurd (hs c rfl) hc
  | case5 c s hpair hc l ls hlines ih =>
    have hboth : lines (s ++ t) = l :: (ls ++ lines t) := by rw [ih (rest hs), hlines]; rfl
    have hc : isLineBreak c = false := by simpa using hc
    rw [List.cons_append, lines_cons hc hlines, lines_cons hc hboth]
    rfl

/-- The characters of lines are characters of the text. -/
lemma mem_of_mem_lines {s l : Text} (hl : l ∈ lines s) {c : Char} (hc : c ∈ l) : c ∈ s := by
  induction s using lines.induct generalizing l with
  | case1 => simp [lines] at hl
  | case2 s ih =>
    rw [lines, List.mem_cons] at hl
    rcases hl with rfl | hl
    · simp at hc
    · exact List.mem_cons_of_mem _ (List.mem_cons_of_mem _ (ih hl hc))
  | case3 d s hpair hd ih =>
    rw [lines_break hd hpair, List.mem_cons] at hl
    rcases hl with rfl | hl
    · simp at hc
    · exact List.mem_cons_of_mem _ (ih hl hc)
  | case4 d s hpair hd hnil ih =>
    rw [lines, if_neg hd, hnil, List.mem_singleton] at hl
    · subst hl
      exact List.mem_cons.mpr (.inl (List.mem_singleton.mp hc))
    · exact hpair
  | case5 d s hpair hd first rest hlines ih =>
    rw [lines_cons (by simpa using hd) hlines, List.mem_cons] at hl
    rw [hlines] at ih
    rcases hl with rfl | hl
    · rcases List.mem_cons.mp hc with rfl | hc
      · exact List.mem_cons_self ..
      · exact List.mem_cons_of_mem _ (ih (List.mem_cons_self ..) hc)
    · exact List.mem_cons_of_mem _ (ih (List.mem_cons_of_mem _ hl) hc)

lemma splitAll_of_all {p : Char → Bool} {s : Text} (h : s.all (!p ·) = true) :
    splitAll p s = [s] := by
  induction s with
  | nil => rfl
  | cons c s ih =>
    obtain ⟨hc, hs⟩ := Bool.and_eq_true_iff.mp h
    rw [splitAll, if_neg (by simpa using hc), ih hs]

/-- A text without white space is one word, or none if it is empty. -/
lemma words_of_all {s : Text} (h : s.all (!isBlank ·) = true) :
    words s = if s.isEmpty then [] else [s] := by
  rw [words, splitAll_of_all h]
  cases s <;> rfl

lemma joinWith_cons (c : Char) (w : Text) (ws : List Text) :
    joinWith [c] (w :: ws) = w ++ ws.flatMap (c :: ·) := by
  induction ws generalizing w with
  | nil => simp [joinWith]
  | cons v ws ih =>
    have hcons : joinWith [c] (w :: v :: ws) = w ++ [c] ++ joinWith [c] (v :: ws) := rfl
    rw [hcons, ih]
    simp

lemma unwords_cons (w : Text) (ws : List Text) :
    unwords (w :: ws) = w ++ ws.flatMap (' ' :: ·) := joinWith_cons ' ' w ws

/-! ### The two ends of a text -/

lemma dropEndWhile_clear {p : Char → Bool} {s : Text} (h : Clear p s.reverse) :
    dropEndWhile p s = s := by
  rw [dropEndWhile, dropWhile_clear h, List.reverse_reverse]

lemma trim_clear {s : Text} (h : Clear isBlank s) (h' : Clear isBlank s.reverse) : trim s = s := by
  rw [trim, trimStart, dropWhile_clear h, trimEnd, dropEndWhile_clear h']

lemma trim_of_all {s : Text} (h : s.all (!isBlank ·) = true) : trim s = s :=
  trim_clear (clear_of_all h) (clear_of_all (by rwa [List.all_reverse]))

lemma trim_space (s : Text) : trim (' ' :: s) = trim s := rfl

/-- A space after a text that starts with no white space is taken off. -/
lemma trim_concat_space {s : Text} (hs : s ≠ []) (h : Clear isBlank s) :
    trim (s ++ [' ']) = trim s := by
  obtain ⟨c, t, rfl⟩ := List.exists_cons_of_ne_nil hs
  have hfront : Clear isBlank (c :: t ++ [' ']) := clear_cons.mpr (clear_cons.mp h)
  rw [trim, trim, trimStart, trimStart, dropWhile_clear hfront, dropWhile_clear h, trimEnd, trimEnd,
    dropEndWhile, dropEndWhile, List.reverse_append]
  rfl

end Runbook.Text
