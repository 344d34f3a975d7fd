import Mathlib.Tactic.Common
import Runbook.Proofs.Markdown.Extent
import Runbook.Proofs.Text.Lines

/-! Two documents, one after the other: the lines are those of both, and so are the blocks if no
fence is left open and a heading comes next. The blocks of the second one stand further down. -/
namespace Runbook.Markdown
open Text

/-- The same block with some lines above it. -/
def Block.shift (k : Nat) (b : Block) : Block :=
  { b with first := b.first + k, last := b.last + k }

namespace Pending

/-- The same open block with some lines above it. -/
def shift (k : Nat) : Pending → Pending
  | idle => idle
  | paragraph first ls => paragraph (first + k) ls
  | fenced first f body => fenced (first + k) f body
  | indented first body blanks => indented (first + k) body blanks
  | verbatim first ls => verbatim (first + k) ls

variable {past : List Text} {p : Pending}

lemma close_shift (h : p.Fits past) (k : Nat) :
    (p.shift k).close (past.length + k) = (p.close past.length).map (Block.shift k) := by
  cases p with
  | indented first body blanks =>
    have hle : blanks.length ≤ past.length := Nat.le_trans (Nat.le_add_left _ _) h.2
    simp only [shift, close, List.map_cons, List.map_nil, Block.shift]
    rw [Nat.sub_add_comm hle]
  | _ => rfl

lemma begin_shift (n k : Nat) (l : Text) :
    begin (n + k) l = ((begin n l).1.map (Block.shift k), (begin n l).2.shift k) := by
  unfold begin
  split
  · rfl
  · split
    · rfl
    · split
      · rfl
      · split
        · rfl
        · split
          · rfl
          · split <;> rfl

lemma restart_shift (h : p.Fits past) (k : Nat) (l : Text) :
    step.restart (past.length + 1 + k) l (p.shift k) =
      ((step.restart (past.length + 1) l p).1.map (Block.shift k),
        (step.restart (past.length + 1) l p).2.shift k) := by
  have hn : past.length + 1 + k - 1 = past.length + k := by omega
  rw [step.restart, step.restart, begin_shift, hn, close_shift h, Nat.add_sub_cancel,
    List.map_append]

/-- One line does the same with some lines above it. -/
lemma step_shift (h : p.Fits past) (k : Nat) (l : Text) :
    (p.shift k).step (past.length + 1 + k) l =
      ((p.step (past.length + 1) l).1.map (Block.shift k),
        (p.step (past.length + 1) l).2.shift k) := by
  have hrestart := restart_shift h k l
  cases p with
  | idle => exact begin_shift _ k l
  | paragraph first ls =>
    simp only [shift] at hrestart ⊢
    simp only [step]
    split
    · exact hrestart
    · split
      · rfl
      · split
        · exact hrestart
        · rfl
  | fenced first f body =>
    simp only [shift, step]
    split <;> rfl
  | indented first body blanks =>
    simp only [shift] at hrestart ⊢
    simp only [step]
    split
    · rfl
    · split
      · rfl
      · exact hrestart
  | verbatim first ls =>
    simp only [shift] at hrestart ⊢
    simp only [step]
    split
    · exact hrestart
    · rfl

end Pending

/-- Lines are read the same with other lines above them. -/
theorem readLines_shift {past : List Text} {p : Pending} (h : p.Fits past) (k : Nat)
    (ls : List Text) :
    readLines (past.length + k) (p.shift k) ls =
      (readLines past.length p ls).map (Block.shift k) := by
  induction ls generalizing past p with
  | nil => exact Pending.close_shift h k
  | cons l ls ih =>
    have hfits := ((p.advances past.length l).within h).2
    have hrest := ih hfits
    rw [List.length_append, List.length_singleton] at hrest
    have hn : past.length + k + 1 = past.length + 1 + k := Nat.add_right_comm _ _ _
    rw [readLines, readLines, hn, Pending.step_shift h, List.map_append, ← hrest]

/-- What is open after some more lines. -/
def leftOpen (n : Nat) (p : Pending) : List Text → Pending
  | [] => p
  | l :: ls => leftOpen (n + 1) (p.step (n + 1) l).2 ls

def Pending.isFenced : Pending → Bool
  | fenced .. => true
  | _ => false

/-- Every fence of the document is closed in it: none is open after its last line. -/
def FencesClosed (s : Text) : Prop := (leftOpen 0 .idle (lines s)).isFenced = false

instance : DecidablePred FencesClosed := fun _ => inferInstanceAs (Decidable (_ = _))

/-! ### Margins -/

section Margin
variable {l rest : Text} {indent : Nat} {c : Char}

lemma eq_of_margin? (h : margin? l = some (indent, rest)) :
    indent ≤ 3 ∧ l = List.replicate indent ' ' ++ rest := by
  have hl := exists_replicate ' ' l
  have hlength := congrArg List.length hl
  rw [List.length_append, List.length_replicate] at hlength
  unfold margin? at h
  dsimp only at h
  split at h
  · next hindent =>
    obtain ⟨rfl, rfl⟩ := Prod.mk.inj (Option.some.inj h)
    refine ⟨hindent, ?_⟩
    rwa [hlength, Nat.add_sub_cancel]
  · cases h

lemma not_blank_of_margin? (h : margin? l = some (indent, c :: rest)) (hc : isBlank c = false) :
    isBlankText l = false := by
  obtain ⟨-, rfl⟩ := eq_of_margin? h
  rw [isBlankText, List.all_eq_false]
  exact ⟨c, by simp, by simp [hc]⟩

lemma not_indented_of_margin? (h : margin? l = some (indent, c :: rest)) (hc : isBlank c = false) :
    isIndented l = false := by
  obtain ⟨hindent, rfl⟩ := eq_of_margin? h
  have hspace : ' ' ≠ c := by
    rintro rfl
    cases hc
  have htab : '\t' ≠ c := by
    rintro rfl
    cases hc
  obtain rfl | rfl | rfl | rfl : indent = 0 ∨ indent = 1 ∨ indent = 2 ∨ indent = 3 := by omega
  all_goals simp [isIndented, List.isPrefixOf, hspace, htab]

end Margin

/-! ### Lines that end whatever is open -/

section Anew
variable {l : Text}

/-- Whatever is open but a fence ends before the line. -/
def BeginsAnew (l : Text) : Prop :=
  Pending.interrupts l = true ∧ isIndented l = false ∧ isBlankText l = false

lemma step_anew (h : BeginsAnew l) {p : Pending} (hp : p.isFenced = false) (n : Nat) :
    p.step (n + 1) l = Pending.step.restart (n + 1) l p := by
  obtain ⟨hinterrupts, hindented, hblank⟩ := h
  cases p with
  | idle => rfl
  | paragraph => exact if_pos hinterrupts
  | fenced => cases hp
  | indented => exact (if_neg (by simp [hindented])).trans (if_neg (by simp [hblank]))
  | verbatim => exact if_pos hinterrupts

/-- Where such a line comes next and no fence is open, reading begins anew. -/
theorem readLines_anew (h : BeginsAnew l) {ls ms : List Text} {p : Pending} {n : Nat}
    (hclosed : (leftOpen n p ls).isFenced = false) :
    readLines n p (ls ++ l :: ms) =
      readLines n p ls ++ readLines (n + ls.length) .idle (l :: ms) := by
  induction ls generalizing n p with
  | nil =>
    have hp : p.isFenced = false := hclosed
    have hidle : Pending.idle.step (n + 1) l = Pending.begin (n + 1) l := rfl
    rw [List.nil_append, List.length_nil, Nat.add_zero, readLines, readLines, readLines,
      step_anew h hp, hidle, Pending.step.restart, Nat.add_sub_cancel, List.append_assoc]
  | cons d ls ih =>
    rw [List.cons_append, readLines, readLines, ih hclosed, List.append_assoc, List.length_cons,
      Nat.add_right_comm, Nat.add_assoc]

end Anew

/-! ### Headings on one line -/

section Numbered
variable {l t title : Text} {level : Nat}

/-- A heading on one line starts with a sign after its margin. -/
lemma margin?_of_numbered? (h : numbered? l = some (level, title)) :
    ∃ indent rest, margin? l = some (indent, '#' :: rest) := by
  unfold numbered? at h
  split at h
  · next indent rest hmargin =>
    dsimp only at h
    split at h
    · next hlevel =>
      cases rest with
      | nil => simp at hlevel
      | cons c rest =>
        by_cases hc : c = '#'
        · exact ⟨indent, rest, by rw [hmargin, hc]⟩
        · simp [hc] at hlevel
    · cases h
  · cases h

lemma not_blank_of_numbered? (h : numbered? l = some (level, title)) : isBlankText l = false := by
  obtain ⟨indent, rest, hmargin⟩ := margin?_of_numbered? h
  exact not_blank_of_margin? hmargin (by decide)

lemma not_indented_of_numbered? (h : numbered? l = some (level, title)) : isIndented l = false := by
  obtain ⟨indent, rest, hmargin⟩ := margin?_of_numbered? h
  exact not_indented_of_margin? hmargin (by decide)

lemma opening?_of_numbered? (h : numbered? l = some (level, title)) : Fence.opening? l = none := by
  obtain ⟨indent, rest, hmargin⟩ := margin?_of_numbered? h
  rw [Fence.opening?, hmargin]
  rfl

lemma begin_numbered (h : numbered? l = some (level, title)) (n : Nat) :
    Pending.begin n l = ([⟨n, n, .heading level (inline title)⟩], .idle) := by
  rw [Pending.begin, not_blank_of_numbered? h, opening?_of_numbered? h, h]
  rfl

lemma beginsAnew_of_numbered? (h : numbered? l = some (level, title)) : BeginsAnew l :=
  ⟨by simp [Pending.interrupts, h], not_indented_of_numbered? h, not_blank_of_numbered? h⟩

lemma exists_lines (ht : (lines t).head? = some l) : ∃ ms, lines t = l :: ms := by
  cases hm : lines t with
  | nil => simp [hm] at ht
  | cons d ms =>
    rw [hm] at ht
    exact ⟨ms, by rw [Option.some.inj ht]⟩

/-- The lines of two documents, where the second one starts with a heading on one line. -/
lemma lines_append_numbered {s t : Text} (hs : ∀ c ∈ s.getLast?, isLineBreak c = true)
    (ht : (lines t).head? = some l) (h : numbered? l = some (level, title)) :
    lines (s ++ t) = lines s ++ lines t := by
  refine lines_append_lines hs fun hfeed => ?_
  obtain ⟨r, rfl⟩ : ∃ r, t = '\n' :: r := List.head?_eq_some_iff.mp hfeed
  obtain ⟨ms, hlines⟩ := exists_lines ht
  -- The first line would be empty.
  have hblank := not_blank_of_numbered? h
  rw [← (List.cons.inj hlines).1] at hblank
  cases hblank

/-- The blocks of two documents, where the second one starts with a heading on one line. -/
theorem blocks_append {s t : Text} (hs : ∀ c ∈ s.getLast?, isLineBreak c = true)
    (hclosed : FencesClosed s) (ht : (lines t).head? = some l)
    (h : numbered? l = some (level, title)) :
    blocks (s ++ t) = blocks s ++ (blocks t).map (Block.shift (lines s).length) := by
  obtain ⟨ms, hlines⟩ := exists_lines ht
  have hidle : Pending.idle.Fits [] := trivial
  have hshift := readLines_shift hidle (lines s).length (lines t)
  rw [blocks, lines_append_numbered hs ht h, hlines,
    readLines_anew (beginsAnew_of_numbered? h) hclosed, ← hlines]
  rw [List.length_nil] at hshift
  exact congrArg _ hshift

end Numbered

end Runbook.Markdown
