import Mathlib.Data.List.TakeWhile
import Mathlib.Tactic.Common
import Runbook.Proofs.Resolution.Dialogue
import Runbook.Proofs.Text.Numeral
import Runbook.Proofs.Text.Words
import Runbook.Selection.Backend

/-! What comes back from a backend for the candidates that were picked. Positions one a line are
read as they are. A line that repeats a title is cut again where the title has a break that is not
made a space, and the pieces after the first one are taken for marks, too. -/
namespace Runbook.Backend
open Text

/-! ### What a backend is fed and what it prints -/

/-- The line for a candidate at a position. -/
def line (b : Backend) (position : Nat) (c : Candidate) : Text :=
  let number : Text := match b with
    | fzf => Text.ofNat position ++ ['\t']
    | rofi => []
  number ++ oneLine c.title ++ ['\n']

lemma feedFrom_eq (b : Backend) (position : Nat) (cs : List Candidate) :
    b.feedFrom position cs = (cs.mapIdx fun i c => b.line (position + i) c).flatten := by
  induction cs generalizing position with
  | nil => rfl
  | cons c cs ih =>
    have hshift : (fun i d => b.line (position + 1 + i) d) =
        fun i d => b.line (position + (i + 1)) d := by
      funext i d
      rw [Nat.add_right_comm, Nat.add_assoc]
    rw [List.mapIdx_cons, List.flatten_cons, ← hshift, ← ih]
    cases b <;> simp [feedFrom, line]

/-- Backends are fed the lines of all candidates. -/
theorem feed_eq (b : Backend) (cs : List Candidate) :
    b.feed cs = (cs.mapIdx fun i c => b.line i c).flatten := by
  rw [feed, feedFrom_eq]
  simp only [Nat.zero_add]

/-- What a backend prints for the candidates at some positions: fzf the lines that it was fed for
them, rofi the positions. -/
def printed (cs : List Candidate) (picked : List (Fin cs.length)) : Backend → Text
  | fzf => picked.flatMap fun i : Fin cs.length => fzf.line i cs[i]
  | rofi => picked.flatMap fun i : Fin cs.length => Text.ofNat i ++ ['\n']

/-- The values of the candidates at some positions. -/
def valuesOf (cs : List Candidate) (picked : List (Fin cs.length)) : List Text :=
  picked.map fun i => cs[i].value

/-- The pieces that are cut off a title when it is read in lines. -/
def strays (c : Candidate) : List Text := (lines (oneLine c.title ++ ['\n'])).tail

/-- A mark that selects nothing: it is no position, or there is no candidate at it. -/
def Idle (cs : List Candidate) (mark : Text) : Prop :=
  ∃ n, position? mark = .ok n ∧ ∀ k ∈ n, cs.length ≤ k

/-! ### The marks in what is printed -/

lemma ne_of_mem_oneLine {t : Text} {c : Char} (h : c ∈ oneLine t) :
    c ≠ '\r' ∧ c ≠ '\n' ∧ c ≠ '\t' := by
  obtain ⟨d, -, rfl⟩ := List.mem_map.mp h
  split <;> simp_all

/-- In a line there is no break before the title. -/
lemma number_unbroken (position : Nat) :
    (Text.ofNat position ++ ['\t']).all (!isLineBreak ·) = true := by
  rw [List.all_append, Bool.and_eq_true]
  refine ⟨all_mono (fun c hc => ?_) (ofNat_not_blank position), by decide⟩
  cases hbreak : isLineBreak c with
  | false => rfl
  | true =>
    rw [isBlank_of_isLineBreak hbreak] at hc
    cases hc

lemma line_head (position : Nat) (c : Candidate) (s : Text) :
    (fzf.line position c ++ s).head? ≠ some '\n' := by
  have hclear : Clear isLineBreak (fzf.line position c ++ s) := by
    have hfront := (clear_of_all (number_unbroken position)).append_of_ne_nil (by simp)
      (oneLine c.title ++ ['\n'] ++ s)
    simpa [line] using hfront
  intro h
  exact absurd (hclear '\n' h) (by decide)

/-- The position stands in the first piece of a line, before the first piece of the title. -/
lemma lines_line (position : Nat) (c : Candidate) :
    ∃ l, lines (fzf.line position c) = (Text.ofNat position ++ '\t' :: l) :: strays c := by
  obtain ⟨l, ls, hl⟩ := List.exists_cons_of_ne_nil
    (lines_ne_nil (List.append_ne_nil_of_right_ne_nil (oneLine c.title) (List.cons_ne_nil '\n' [])))
  have hlines := lines_append_front (number_unbroken position) hl
  refine ⟨l, ?_⟩
  rw [strays, hl, List.tail_cons]
  simpa [line] using hlines

lemma takeWhile_number (position : Nat) (l : Text) :
    (Text.ofNat position ++ '\t' :: l).takeWhile (· != '\t') = Text.ofNat position := by
  refine takeWhile_append_clear (all_mono (fun d hd => ?_) (ofNat_not_blank position)) (by simp)
  rw [bne_iff_ne]
  rintro rfl
  exact absurd hd (by decide)

/-- The other pieces of a line are pieces of the title, and have no tabs. -/
lemma takeWhile_strays (c : Candidate) :
    (strays c).map (·.takeWhile (· != '\t')) = strays c := by
  refine (List.map_congr_left fun m hm => ?_).trans (List.map_id _)
  refine List.takeWhile_eq_self_iff.mpr fun d hd => ?_
  have hmem : d ∈ oneLine c.title ++ ['\n'] := mem_of_mem_lines (List.mem_of_mem_tail hm) hd
  rw [bne_iff_ne]
  rcases List.mem_append.mp hmem with h | h
  · exact (ne_of_mem_oneLine h).2.2
  · rw [List.mem_singleton.mp h]
    decide

lemma marks_line (position : Nat) (c : Candidate) {s : Text} (hs : s.head? ≠ some '\n') :
    fzf.marks (fzf.line position c ++ s) = Text.ofNat position :: strays c ++ fzf.marks s := by
  obtain ⟨l, hl⟩ := lines_line position c
  have hboth : lines (fzf.line position c ++ s) = lines (fzf.line position c) ++ lines s := by
    refine lines_append_lines (fun d hd => ?_) hs
    have hlast : (fzf.line position c).getLast? = some '\n' := List.getLast?_concat
    rw [hlast] at hd
    cases hd
    decide
  rw [marks, hboth, hl, List.map_append, List.map_cons, takeWhile_number, takeWhile_strays]
  rfl

/-- What fzf prints is read as the positions, each with the pieces of its title after it. -/
theorem marks_printed_fzf (cs : List Candidate) (picked : List (Fin cs.length)) :
    fzf.marks (printed cs picked fzf) =
      picked.flatMap fun i : Fin cs.length => Text.ofNat i :: strays cs[i] := by
  induction picked with
  | nil => rfl
  | cons i picked ih =>
    have hhead : (printed cs picked fzf).head? ≠ some '\n' := by
      cases picked with
      | nil => simp [printed]
      | cons j picked => exact line_head j cs[j] _
    have hcons : printed cs (i :: picked) fzf = fzf.line i cs[i] ++ printed cs picked fzf := rfl
    rw [hcons, marks_line _ _ hhead, ih, List.flatMap_cons]

/-- What rofi prints is read as the positions. -/
theorem marks_printed_rofi (cs : List Candidate) (picked : List (Fin cs.length)) :
    rofi.marks (printed cs picked rofi) = picked.map fun i : Fin cs.length => Text.ofNat i := by
  induction picked with
  | nil => rfl
  | cons i picked ih =>
    have hcons : printed cs (i :: picked) rofi =
        Text.ofNat i ++ '\n' :: printed cs picked rofi := by
      simp [printed]
    rw [hcons]
    change words _ = _
    rw [words_append (ofNat_ne_nil i) (ofNat_not_blank i) (show isBlank '\n' = true by decide)]
    exact congrArg (_ :: ·) ih

/-! ### The values at marks -/

/-- The numeral of a position is a mark of it, if it is not longer than what is read. -/
lemma position?_ofNat {n : Nat} (h : n < 10 ^ numeralLimit) :
    position? (Text.ofNat n) = .ok (some n) := by
  have hne : (Text.ofNat n).isEmpty = false := by simpa using ofNat_ne_nil n
  have hdigits : (Text.ofNat n).all Text.isDigit = true :=
    all_mono (fun c hc => isDigit_of_isDecimal hc) (ofNat_decimal n)
  have hwhole : (Text.ofNat n).takeWhile isDecimal = Text.ofNat n :=
    List.takeWhile_eq_self_iff.mpr (List.all_eq_true.mp (ofNat_decimal n))
  have hshort : (Text.ofNat n).length ≤ numeralLimit :=
    (Nat.length_toDigits_le_iff (by decide) (by decide)).mpr h
  have hread : readNumeral (Text.ofNat n) = .ok n := by
    rw [readNumeral, if_pos hshort, numeral_ofNat]
  rw [position?, hne, hdigits]
  simp only [Bool.not_true, Bool.or_self, Bool.false_eq_true, if_false, hwhole, hread, if_true]

lemma valuesAt_position {cs : List Candidate} {m : Text} {i : Nat} (h : position? m = .ok (some i))
    (hi : i < cs.length) (ms : List Text) :
    valuesAt cs (m :: ms) = (valuesAt cs ms).map (cs[i].value :: ·) := by
  rw [valuesAt, h]
  cases valuesAt cs ms with
  | error e => rfl
  | ok vs => simp [Except.map, List.getElem?_eq_getElem hi]

lemma valuesAt_append (cs : List Candidate) (ms ms' : List Text) :
    valuesAt cs (ms ++ ms') =
      (valuesAt cs ms).bind fun vs => (valuesAt cs ms').map (vs ++ ·) := by
  induction ms with
  | nil =>
    change valuesAt cs ms' = (valuesAt cs ms').map ([] ++ ·)
    cases valuesAt cs ms' <;> rfl
  | cons m ms ih =>
    rw [List.cons_append, valuesAt, valuesAt, ih]
    cases position? m with
    | error e => rfl
    | ok n =>
      cases valuesAt cs ms with
      | error e => rfl
      | ok vs =>
        cases valuesAt cs ms' with
        | error e => rfl
        | ok vs' => simp [Except.map, Except.bind]

/-- Idle marks, and no others, give no values. -/
lemma valuesAt_eq_nil_iff {cs : List Candidate} {ms : List Text} :
    valuesAt cs ms = .ok [] ↔ ∀ m ∈ ms, Idle cs m := by
  induction ms with
  | nil => simp [valuesAt]
  | cons m ms ih =>
    rw [List.forall_mem_cons, ← ih, valuesAt, Idle]
    cases position? m with
    | error e => simp
    | ok n =>
      cases valuesAt cs ms with
      | error e => simp
      | ok vs => simp

section Picked
variable {cs : List Candidate} {picked : List (Fin cs.length)}

/-- Marks that are positions and nothing else give the values of the candidates at them. -/
lemma valuesAt_positions (short : cs.length ≤ 10 ^ numeralLimit) :
    valuesAt cs (picked.map fun i : Fin cs.length => Text.ofNat i) = .ok (valuesOf cs picked) := by
  induction picked with
  | nil => rfl
  | cons i picked ih =>
    have hi : position? (Text.ofNat i) = .ok (some i.val) :=
      position?_ofNat (Nat.lt_of_lt_of_le i.isLt short)
    rw [List.map_cons, valuesAt_position hi i.isLt, ih]
    rfl

/-- The marks for some positions, and one more in front. -/
lemma valuesAt_pick (short : cs.length ≤ 10 ^ numeralLimit) (i : Fin cs.length) (ms : List Text) :
    valuesAt cs (Text.ofNat i :: strays cs[i] ++ ms) =
      (valuesAt cs (strays cs[i])).bind fun us =>
        (valuesAt cs ms).map fun vs => cs[i].value :: (us ++ vs) := by
  have hi : position? (Text.ofNat i) = .ok (some i.val) :=
    position?_ofNat (Nat.lt_of_lt_of_le i.isLt short)
  rw [List.cons_append, valuesAt_position hi i.isLt, valuesAt_append]
  cases valuesAt cs (strays cs[i]) with
  | error e => rfl
  | ok us => cases valuesAt cs ms <;> rfl

/-- Where all pieces of titles are idle, the values are those of the picked candidates. -/
lemma valuesAt_picked (short : cs.length ≤ 10 ^ numeralLimit)
    (idle : ∀ i ∈ picked, ∀ m ∈ strays cs[i], Idle cs m) :
    valuesAt cs (picked.flatMap fun i : Fin cs.length => Text.ofNat i :: strays cs[i]) =
      .ok (valuesOf cs picked) := by
  induction picked with
  | nil => rfl
  | cons i picked ih =>
    obtain ⟨hi, hpicked⟩ := List.forall_mem_cons.mp idle
    rw [List.flatMap_cons, valuesAt_pick short, valuesAt_eq_nil_iff.mpr hi, ih hpicked]
    rfl

/-- Values come from pieces of titles if there are more of them than positions. -/
lemma length_of_valuesAt (short : cs.length ≤ 10 ^ numeralLimit) {vs : List Text}
    (h : valuesAt cs (picked.flatMap fun i : Fin cs.length => Text.ofNat i :: strays cs[i]) =
      .ok vs) :
    picked.length ≤ vs.length ∧
      (vs.length = picked.length → ∀ i ∈ picked, ∀ m ∈ strays cs[i], Idle cs m) := by
  induction picked generalizing vs with
  | nil =>
    refine ⟨Nat.zero_le _, fun _ i hi => ?_⟩
    cases hi
  | cons i picked ih =>
    rw [List.flatMap_cons, valuesAt_pick short] at h
    cases hus : valuesAt cs (strays cs[i]) with
    | error e =>
      rw [hus] at h
      cases h
    | ok us =>
      cases hvs : valuesAt cs (picked.flatMap fun i : Fin cs.length =>
          Text.ofNat i :: strays cs[i]) with
      | error e =>
        rw [hus, hvs] at h
        cases h
      | ok rest =>
        rw [hus, hvs] at h
        obtain rfl := Except.ok.inj h
        obtain ⟨hle, hidle⟩ := ih hvs
        rw [List.length_cons, List.length_cons, List.length_append]
        refine ⟨by omega, fun hlength => ?_⟩
        obtain rfl : us = [] := List.eq_nil_of_length_eq_zero (by omega)
        exact List.forall_mem_cons.mpr ⟨valuesAt_eq_nil_iff.mp hus, hidle (by omega)⟩

/-- The exchange with a backend that ends well and prints what is picked. -/
def picking (b : Backend) (o : SelectionOptions) (cs : List Candidate)
    (picked : List (Fin cs.length)) (errors : Text) : Exchanged Deed :=
  ⟨.run { argv := b.argv o, input := some (b.feed cs) }, some ⟨0, b.printed cs picked, errors⟩⟩

lemma ends_picking_iff {b : Backend} {o : SelectionOptions} {errors : Text} {vs : List Text}
    (hvs : vs ≠ []) :
    (b.select o cs).Ends [picking b o cs picked errors] (.ok (.chosen vs)) ↔
      valuesAt cs (b.marks (b.printed cs picked)) = .ok vs := by
  have hread : b.read cs (some ⟨0, b.printed cs picked, errors⟩) =
      (valuesAt cs (b.marks (b.printed cs picked))).map Selection.ofValues := by
    cases b <;> simp [read, codes]
  have hchosen : (valuesAt cs (b.marks (b.printed cs picked))).map Selection.ofValues =
      .ok (.chosen vs) ↔ valuesAt cs (b.marks (b.printed cs picked)) = .ok vs := by
    cases valuesAt cs (b.marks (b.printed cs picked)) with
    | error e => simp [Except.map]
    | ok us => cases us <;> simp [Except.map, Selection.ofValues, hvs.symm]
  rw [← hchosen, ← hread]
  constructor
  · intro h
    cases h with
    | ask tail => exact (Dialogue.ends_ofExcept_iff.mp tail).2.symm
  · intro h
    exact .ask (Dialogue.ends_ofExcept_iff.mpr ⟨rfl, h.symm⟩)

/-- A title has no pieces if all its breaks are made spaces. -/
lemma strays_eq_nil {c : Candidate}
    (h : ∀ d ∈ c.title, isLineBreak d = true → d = '\r' ∨ d = '\n') : strays c = [] := by
  have hall : (oneLine c.title).all (!isLineBreak ·) = true := by
    refine List.all_eq_true.mpr fun d hd => ?_
    obtain ⟨e, he, rfl⟩ := List.mem_map.mp hd
    split
    · decide
    · next hother =>
      cases hbreak : isLineBreak e with
      | false => rfl
      | true => rcases h e he hbreak with rfl | rfl <;> simp at hother
  rw [strays, lines_append hall]
  rfl

end Picked

/-- Both backends give back what was picked: rofi always, fzf exactly when nothing that is cut off a
picked title is the position of a candidate. That is so when the titles have no breaks but carriage
returns and line feeds. -/
theorem select_picked (o : SelectionOptions) (cs : List Candidate) (picked : List (Fin cs.length))
    (errors : Text) (nonempty : picked ≠ []) (short : cs.length ≤ 10 ^ numeralLimit) :
    (∀ b : Backend, b.feed cs = (cs.mapIdx fun i c => b.line i c).flatten) ∧
      (rofi.select o cs).Ends [picking rofi o cs picked errors]
        (.ok (.chosen (valuesOf cs picked))) ∧
      ((fzf.select o cs).Ends [picking fzf o cs picked errors]
        (.ok (.chosen (valuesOf cs picked))) ↔ ∀ i ∈ picked, ∀ m ∈ strays cs[i], Idle cs m) ∧
      ((∀ i ∈ picked, ∀ d ∈ cs[i].title, isLineBreak d = true → d = '\r' ∨ d = '\n') →
        (fzf.select o cs).Ends [picking fzf o cs picked errors]
          (.ok (.chosen (valuesOf cs picked)))) := by
  have hne : valuesOf cs picked ≠ [] := by simpa [valuesOf] using nonempty
  have hfzf : (fzf.select o cs).Ends [picking fzf o cs picked errors]
      (.ok (.chosen (valuesOf cs picked))) ↔ ∀ i ∈ picked, ∀ m ∈ strays cs[i], Idle cs m := by
    rw [ends_picking_iff hne, marks_printed_fzf]
    refine ⟨fun h => ?_, valuesAt_picked short⟩
    exact (length_of_valuesAt short h).2 (by simp [valuesOf])
  refine ⟨fun b => b.feed_eq cs, ?_, hfzf, fun unbroken => ?_⟩
  · rw [ends_picking_iff hne, marks_printed_rofi, valuesAt_positions short]
  · rw [hfzf]
    intro i hi m hm
    rw [strays_eq_nil (unbroken i hi)] at hm
    cases hm

/-- A title with a line separator, and the position of another candidate after it. -/
def torn : List Candidate := [⟨"a\u20281", "x"⟩, ⟨"b", "y"⟩]

/-- Who picks one candidate may get another one besides. -/
theorem select_torn :
    (fzf.select {} torn).Ends [picking fzf {} torn [⟨0, by decide⟩] []]
        (.ok (.chosen (["x", "y"] : List Text))) ∧
      valuesOf torn [⟨0, by decide⟩] = (["x"] : List Text) := by
  have hvalues : valuesAt torn (fzf.marks (fzf.printed torn [⟨0, by decide⟩])) =
      .ok (["x", "y"] : List Text) := by
    decide +kernel
  exact ⟨(ends_picking_iff (by decide)).mpr hvalues, rfl⟩

/-- Two titles, one of them in two lines. -/
def twoLines : List Candidate := [⟨"abc fix bug", "abc"⟩, ⟨"def add\nthing", "def"⟩]

/-- Both of them, the second one first. -/
def bothLines : List (Fin twoLines.length) := [⟨1, by decide⟩, ⟨0, by decide⟩]

theorem select_twoLines :
    bothLines ≠ [] ∧ twoLines.length ≤ 10 ^ numeralLimit ∧
      (rofi.select {} twoLines).Ends [picking rofi {} twoLines bothLines []]
        (.ok (.chosen (["def", "abc"] : List Text))) ∧
      (fzf.select {} twoLines).Ends [picking fzf {} twoLines bothLines []]
        (.ok (.chosen (["def", "abc"] : List Text))) := by
  have nonempty : bothLines ≠ [] := by decide
  have short : twoLines.length ≤ 10 ^ numeralLimit := by
    calc twoLines.length ≤ 10 ^ 1 := by decide
      _ ≤ 10 ^ numeralLimit := Nat.pow_le_pow_right (by decide) (by decide)
  -- Decided as a list, since a statement on all characters may be tried on every one that there is.
  have hall : (twoLines.all fun c => c.title.all fun d => !isLineBreak d || d == '\n') = true := by
    decide
  have unbroken : ∀ c ∈ twoLines, ∀ d ∈ c.title, isLineBreak d = true → d = '\r' ∨ d = '\n' := by
    intro c hc d hd hbreak
    have h := List.all_eq_true.mp (List.all_eq_true.mp hall c hc) d hd
    exact .inr (by simpa [hbreak] using h)
  obtain ⟨-, hrofi, -, hfzf⟩ := select_picked {} twoLines bothLines [] nonempty short
  exact ⟨nonempty, short, hrofi, hfzf fun i _ => unbroken _ (List.getElem_mem i.isLt)⟩

end Runbook.Backend
