import Mathlib.Data.List.Infix
import Mathlib.Tactic.Common
import Runbook.Proofs.Text.Lines
import Runbook.Text.Digits

/-! Parts of a text: what is left without blanks at its ends, its lines, its words. What is put
together of such parts with blanks between them has no run of digits that is not one of the text. -/
namespace Runbook.Text

lemma prefix_dropEndWhile (p : Char → Bool) (s : Text) : dropEndWhile p s <+: s := by
  have h := s.reverse.dropWhile_suffix p
  rwa [dropEndWhile, ← List.reverse_suffix, List.reverse_reverse]

lemma infix_trim (s : Text) : trim s <:+: s :=
  (prefix_dropEndWhile isBlank _).isInfix.trans (s.dropWhile_suffix isBlank).isInfix

/-! ### The two ends of a text -/

lemma clear_trim (s : Text) : Clear isBlank (trim s) := by
  obtain ⟨t, ht⟩ := prefix_dropEndWhile isBlank (trimStart s)
  have h : Clear isBlank (trim s ++ t) := by
    rw [trim, trimEnd, ht]
    exact clear_dropWhile isBlank s
  exact h.of_append

/-- A part of a text that starts with no white space is still there without the white space at the
front of the text. -/
lemma infix_trimStart {s part : Text} (h : part <:+: s) (hne : part ≠ [])
    (hfront : Clear isBlank part) : part <:+: trimStart s := by
  obtain ⟨front, back, rfl⟩ := h
  rw [trimStart, List.append_assoc, List.dropWhile_append]
  split
  · rw [dropWhile_clear (hfront.append_of_ne_nil hne back)]
    exact (List.prefix_append part back).isInfix
  · exact ⟨_, back, List.append_assoc ..⟩

lemma infix_trim_of {s part : Text} (h : part <:+: s) (hne : part ≠ [])
    (hfront : Clear isBlank part) (hback : Clear isBlank part.reverse) : part <:+: trim s := by
  have hstart := infix_trimStart h hne hfront
  rw [← List.reverse_infix] at hstart ⊢
  rw [trim, trimEnd, dropEndWhile, List.reverse_reverse]
  exact infix_trimStart hstart (by simpa using hne) hback

lemma count_dropWhile {p : Char → Bool} {c : Char} (hc : p c = false) (s : Text) :
    (s.dropWhile p).count c = s.count c := by
  induction s with
  | nil => rfl
  | cons d s ih =>
    rw [List.dropWhile_cons]
    split
    · next hd =>
      have hne : d ≠ c := by
        rintro rfl
        rw [hc] at hd
        cases hd
      rw [ih, List.count_cons_of_ne hne]
    · rfl

/-- Of other characters than white space a text has all at its two ends. -/
lemma count_trim {c : Char} (hc : isBlank c = false) (s : Text) : (trim s).count c = s.count c := by
  rw [trim, trimEnd, dropEndWhile, List.count_reverse, count_dropWhile hc, List.count_reverse,
    trimStart, count_dropWhile hc]

/-- A text is cut at one of its characters in one way, if it is known how many of them come
before. -/
lemma append_cons_inj {c : Char} {s s' r r' : Text} (h : s ++ c :: r = s' ++ c :: r')
    (hcount : s.count c = s'.count c) : s = s' ∧ r = r' := by
  induction s generalizing s' with
  | nil =>
    cases s' with
    | nil => exact ⟨rfl, (List.cons.inj h).2⟩
    | cons d s' =>
      obtain rfl := (List.cons.inj h).1
      simp at hcount
  | cons d s ih =>
    cases s' with
    | nil =>
      obtain rfl := (List.cons.inj h).1
      simp at hcount
    | cons d' s' =>
      obtain ⟨rfl, hrest⟩ := List.cons.inj h
      obtain ⟨rfl, rfl⟩ := ih hrest (by simpa [List.count_cons] using hcount)
      exact ⟨rfl, rfl⟩

/-! ### Lines and words -/

/-- The first line begins the text. -/
lemma prefix_of_lines {s l : Text} {ls : List Text} (h : lines s = l :: ls) : l <+: s := by
  induction s using lines.induct generalizing l ls with
  | case1 => cases h
  | case2 s ih =>
    obtain ⟨rfl, -⟩ := List.cons.inj h
    exact List.nil_prefix
  | case3 d s hpair hd ih =>
    rw [lines_break hd hpair] at h
    obtain ⟨rfl, -⟩ := List.cons.inj h
    exact List.nil_prefix
  | case4 d s hpair hd hnil ih =>
    rw [lines, if_neg hd, hnil] at h
    · obtain ⟨rfl, -⟩ := List.cons.inj h
      exact List.prefix_append [d] s
    · exact hpair
  | case5 d s hpair hd first rest hlines ih =>
    rw [lines_cons (by simpa using hd) hlines] at h
    obtain ⟨rfl, -⟩ := List.cons.inj h
    exact List.cons_prefix_cons.mpr ⟨rfl, ih hlines⟩

lemma infix_of_mem_lines {s l : Text} (hl : l ∈ lines s) : l <:+: s := by
  induction s using lines.induct generalizing l with
  | case1 => simp [lines] at hl
  | case2 s ih =>
    rw [lines, List.mem_cons] at hl
    rcases hl with rfl | hl
    · exact List.nil_infix
    · exact (ih hl).trans (List.suffix_append ['\r', '\n'] s).isInfix
  | case3 d s hpair hd ih =>
    rw [lines_break hd hpair, List.mem_cons] at hl
    rcases hl with rfl | hl
    · exact List.nil_infix
    · exact List.infix_cons (ih hl)
  | case4 d s hpair hd hnil ih =>
    rw [lines, if_neg hd, hnil, List.mem_singleton] at hl
    · subst hl
      exact (List.prefix_append [d] s).isInfix
    · exact hpair
  | case5 d s hpair hd first rest hlines ih =>
    have hall := lines_cons (by simpa using hd) hlines
    rw [hall, List.mem_cons] at hl
    rcases hl with rfl | hl
    · exact (prefix_of_lines hall).isInfix
    · exact List.infix_cons (ih (hlines ▸ List.mem_cons_of_mem _ hl))

/-- The pieces between separators are parts of the text, and the first one begins it. -/
lemma splitAll_parts (p : Char → Bool) (s : Text) :
    ∃ w ws, splitAll p s = w :: ws ∧ w <+: s ∧ ∀ v ∈ ws, v <:+: s := by
  induction s with
  | nil => exact ⟨[], [], rfl, List.nil_prefix, by simp⟩
  | cons c s ih =>
    obtain ⟨w, ws, hsplit, hw, hws⟩ := ih
    rw [splitAll]
    split
    · refine ⟨[], _, rfl, List.nil_prefix, ?_⟩
      rw [hsplit]
      exact List.forall_mem_cons.mpr
        ⟨List.infix_cons hw.isInfix, fun v hv => List.infix_cons (hws v hv)⟩
    · rw [hsplit]
      exact ⟨c :: w, ws, rfl, List.cons_prefix_cons.mpr ⟨rfl, hw⟩,
        fun v hv => List.infix_cons (hws v hv)⟩

lemma infix_of_mem_words {s w : Text} (hw : w ∈ words s) : w <:+: s := by
  obtain ⟨first, rest, hsplit, hfirst, hrest⟩ := splitAll_parts isBlank s
  have hmem := List.mem_of_mem_filter hw
  rw [hsplit, List.mem_cons] at hmem
  rcases hmem with rfl | hmem
  · exact hfirst.isInfix
  · exact hrest w hmem

/-! ### Properties of parts -/

/-- A property that parts of a text have with it, that words with spaces between them have together,
and that does not depend on line feeds. -/
structure Hereditary (D : Text → Prop) : Prop where
  empty : D []
  part : ∀ {s t : Text}, s <:+: t → D t → D s
  space : ∀ {s t : Text}, D s → D t → D (s ++ ' ' :: t)
  unbroken : ∀ {s : Text}, D s → D (replaceChar '\n' ' ' s)

namespace Hereditary
variable {D : Text → Prop}

lemma trivial : Hereditary fun _ => True := ⟨⟨⟩, fun _ _ => ⟨⟩, fun _ _ => ⟨⟩, fun _ => ⟨⟩⟩

lemma unwords (h : Hereditary D) {ws : List Text} (hws : ∀ w ∈ ws, D w) : D (unwords ws) := by
  induction ws with
  | nil => exact h.empty
  | cons w ws ih =>
    obtain ⟨hw, hrest⟩ := List.forall_mem_cons.mp hws
    cases ws with
    | nil => exact hw
    | cons v ws =>
      have hjoin : Text.unwords (w :: v :: ws) = w ++ ' ' :: Text.unwords (v :: ws) := by
        simp [Text.unwords, joinWith]
      rw [hjoin]
      exact h.space hw (ih hrest)

end Hereditary

/-! ### Runs of digits -/

/-- Every run of digits is one of another text. -/
def RunsIn (t s : Text) : Prop := ∀ run, run.all isDecimal = true → run <:+: s → run <:+: t

/-- A run stands on one side of a character that is no digit. -/
lemma infix_of_append_cons {run s t : Text} {c : Char} (hrun : run.all isDecimal = true)
    (hc : isDecimal c = false) (h : run <:+: s ++ c :: t) : run <:+: s ∨ run <:+: t := by
  have hmem : c ∉ run := fun hmem => by
    rw [List.all_eq_true.mp hrun c hmem] at hc
    cases hc
  rcases List.infix_append_iff.mp h with h | h | ⟨front, back, rfl, hfront, hback⟩
  · exact .inl h
  · rcases List.infix_cons_iff.mp h with h | h
    · rcases List.prefix_cons_iff.mp h with rfl | ⟨rest, rfl, -⟩
      · exact .inl List.nil_infix
      · exact absurd List.mem_cons_self hmem
    · exact .inr h
  · rcases List.prefix_cons_iff.mp hback with rfl | ⟨rest, rfl, -⟩
    · rw [List.append_nil]
      exact .inl hfront.isInfix
    · exact absurd (List.mem_append_right front List.mem_cons_self) hmem

lemma RunsIn.append_cons {r s t : Text} {c : Char} (hs : RunsIn r s) (ht : RunsIn r t)
    (hc : isDecimal c = false) : RunsIn r (s ++ c :: t) := fun run hrun h =>
  (infix_of_append_cons hrun hc h).elim (hs run hrun) (ht run hrun)

lemma RunsIn.unlines {s : Text} {ls : List Text} (h : ∀ l ∈ ls, RunsIn s l) :
    RunsIn s (unlines ls) := by
  induction ls with
  | nil =>
    intro run _ hrun
    exact (List.infix_nil.mp hrun) ▸ List.nil_infix
  | cons l ls ih =>
    obtain ⟨hl, hls⟩ := List.forall_mem_cons.mp h
    have hcons : Text.unlines (l :: ls) = l ++ '\n' :: Text.unlines ls := by simp [Text.unlines]
    rw [hcons]
    exact hl.append_cons (ih hls) (by decide)

lemma hereditary_runsIn (s : Text) : Hereditary (RunsIn s) where
  empty run _ hrun := (List.infix_nil.mp hrun) ▸ List.nil_infix
  part hpart h run hrun hin := h run hrun (hin.trans hpart)
  space hs ht := hs.append_cons ht (by decide)
  unbroken {t} h run hrun hin := by
    obtain ⟨u, hu, rfl⟩ := List.infix_map_iff.mp hin
    -- A line feed would have become a space.
    have hsame : u.map (fun c => if c == '\n' then ' ' else c) = u := by
      conv_rhs => rw [← List.map_id u]
      refine List.map_congr_left fun c hc => ?_
      have hdecimal := List.all_eq_true.mp hrun _ (List.mem_map_of_mem hc)
      split at hdecimal
      · cases hdecimal
      · next hne => exact if_neg hne
    rw [hsame] at hrun ⊢
    exact h u hrun hu

/-- A run of more digits than are read. -/
def LongRun (s : Text) : Prop :=
  ∃ run, run <:+: s ∧ run.all isDecimal = true ∧ numeralLimit < run.length

lemma LongRun.of_part {s t : Text} (h : LongRun s) (hst : s <:+: t) : LongRun t := by
  obtain ⟨run, hrun, hall, hlong⟩ := h
  exact ⟨run, hrun.trans hst, hall, hlong⟩

lemma LongRun.of_runsIn {s t : Text} (h : LongRun s) (hst : RunsIn t s) : LongRun t := by
  obtain ⟨run, hrun, hall, hlong⟩ := h
  exact ⟨run, hst run hall hrun, hall, hlong⟩

end Runbook.Text
