import Mathlib.Tactic.Common
import Runbook.Proofs.Markdown.Append
import Runbook.Proofs.Markdown.Block

/-! Fenced code between other lines. Wherever no fence is open, the line that opens one ends all that
stands before it, as the end of a document would; what is inside is not looked at but for the line
that closes the fence, and reading begins anew behind it. -/
namespace Runbook.Markdown
open Text

/-- A line that closes a fence of so many marks: at least as many of them, with at most three spaces
before and only blanks after them. -/
def ClosesFence (mark : Char) (size : Nat) (l : Text) : Prop :=
  ∃ (indent marks : Nat) (blanks : Text), indent ≤ 3 ∧ size ≤ marks ∧
    blanks.all isSpaceOrTab = true ∧
    l = List.replicate indent ' ' ++ (List.replicate marks mark ++ blanks)

/-- A line that opens a fence. -/
structure FenceLine where
  indent : Nat
  small : indent ≤ 3
  mark : Char
  isMark : mark = '`' ∨ mark = '~'
  size : Nat
  enough : 3 ≤ size
  info : Text
  /-- All marks are counted. -/
  counted : info.head? ≠ some mark
  noTick : mark = '`' → '`' ∉ info

/-! ### The lines of a fence -/

lemma margin?_spaces {indent : Nat} (h : indent ≤ 3) {rest : Text} (hrest : Clear (· == ' ') rest) :
    margin? (List.replicate indent ' ' ++ rest) = some (indent, rest) := by
  have hspaces : (List.replicate indent ' ').all (· == ' ') = true := by simp
  rw [margin?, dropWhile_append_clear hspaces hrest, List.length_append, List.length_replicate,
    Nat.add_sub_cancel]
  exact if_pos h

lemma clear_marks {mark : Char} (hmark : isSpaceOrTab mark = false) {count : Nat} (h : 1 ≤ count)
    (rest : Text) : Clear (· == ' ') (List.replicate count mark ++ rest) := by
  obtain ⟨k, rfl⟩ := Nat.exists_eq_add_of_le' h
  rw [List.replicate_succ, List.cons_append, clear_cons]
  exact (Bool.or_eq_false_iff.mp hmark).1

/-- The lines that close a fence. -/
theorem Fence.closes_iff {f : Fence} (hmark : isSpaceOrTab f.mark = false) (hsize : 1 ≤ f.size)
    {l : Text} : f.closes l = true ↔ ClosesFence f.mark f.size l := by
  constructor
  · intro h
    unfold Fence.closes at h
    split at h
    · next indent rest hmargin =>
      obtain ⟨hindent, rfl⟩ := eq_of_margin? hmargin
      obtain ⟨hmarks, hblanks⟩ := Bool.and_eq_true_iff.mp h
      refine ⟨indent, _, _, hindent, of_decide_eq_true hmarks, hblanks, ?_⟩
      rw [← exists_replicate f.mark]
    · cases h
  · rintro ⟨indent, marks, blanks, hindent, hmarks, hblanks, rfl⟩
    have hall : (List.replicate marks f.mark).all (· == f.mark) = true := by simp
    have hafter : Clear (· == f.mark) blanks := by
      refine clear_of_all (all_mono (fun c hc => ?_) hblanks)
      have hne : c ≠ f.mark := by
        rintro rfl
        cases hc.symm.trans hmark
      simpa using hne
    rw [Fence.closes, margin?_spaces hindent (clear_marks hmark (Nat.le_trans hsize hmarks) blanks)]
    simp only [takeWhile_append_clear hall hafter, dropWhile_append_clear hall hafter,
      List.length_replicate, hblanks, Bool.and_true, decide_eq_true_eq]
    exact hmarks

namespace FenceLine
variable (o : FenceLine)

def render : Text := List.replicate o.indent ' ' ++ (List.replicate o.size o.mark ++ o.info)

/-- The fence that the line opens. -/
def fence : Fence := ⟨o.indent, o.mark, o.size, trim o.info⟩

lemma mark_not_blank : isBlank o.mark = false := by
  rcases o.isMark with h | h <;> rw [h] <;> decide

lemma mark_not_space : isSpaceOrTab o.mark = false := by
  rcases o.isMark with h | h <;> rw [h] <;> decide

lemma closes_iff {l : Text} : o.fence.closes l = true ↔ ClosesFence o.mark o.size l :=
  Fence.closes_iff o.mark_not_space (Nat.le_trans (by decide) o.enough)

lemma margin?_render :
    margin? o.render = some (o.indent, List.replicate o.size o.mark ++ o.info) :=
  margin?_spaces o.small (clear_marks o.mark_not_space (Nat.le_trans (by decide) o.enough) o.info)

lemma opening?_render : Fence.opening? o.render = some o.fence := by
  obtain ⟨k, hk⟩ := Nat.exists_eq_add_of_le' (Nat.le_trans (by decide) o.enough : 1 ≤ o.size)
  have hall : (List.replicate k o.mark).all (· == o.mark) = true := by simp
  have hinfo : Clear (· == o.mark) o.info := by
    intro c hc
    have hne : c ≠ o.mark := fun h => o.counted (h ▸ hc)
    simpa using hne
  have hmargin := o.margin?_render
  rw [hk, List.replicate_succ, List.cons_append] at hmargin
  have hallowed : (o.mark == '`' && !o.info.contains '`' || o.mark == '~') = true := by
    rcases o.isMark with h | h
    · simp [h, o.noTick h]
    · simp [h]
  have hsize : 3 ≤ 1 + k := by
    have := o.enough
    omega
  rw [Fence.opening?, hmargin]
  simp only [takeWhile_append_clear hall hinfo, dropWhile_append_clear hall hinfo,
    List.length_replicate, hallowed, Bool.true_and, decide_eq_true_eq]
  rw [if_pos hsize, fence, hk, Nat.add_comm 1 k]

lemma exists_margin : ∃ rest, margin? o.render = some (o.indent, o.mark :: rest) := by
  obtain ⟨k, hk⟩ := Nat.exists_eq_add_of_le' o.enough
  refine ⟨List.replicate (k + 2) o.mark ++ o.info, ?_⟩
  rw [o.margin?_render, hk, List.replicate_succ, List.cons_append]

lemma beginsAnew_render : BeginsAnew o.render := by
  obtain ⟨rest, hmargin⟩ := o.exists_margin
  refine ⟨by simp [Pending.interrupts, o.opening?_render], ?_, ?_⟩
  · exact not_indented_of_margin? hmargin o.mark_not_blank
  · exact not_blank_of_margin? hmargin o.mark_not_blank

lemma begin_render (n : Nat) : Pending.begin n o.render = ([], .fenced n o.fence []) := by
  rw [Pending.begin, o.beginsAnew_render.2.2, o.opening?_render]
  rfl

end FenceLine

/-- The blocks of a document with fenced code: those of the lines before it, if every fence is
closed in them; the code, whatever its lines are as long as none of them closes the fence; and
those of the lines behind it, which stand further down. -/
theorem blocks_fence (o : FenceLine) {front inside back : List Text} {close : Text}
    (unbroken : ∀ l ∈ front ++ o.render :: (inside ++ close :: back),
      l.all (!isLineBreak ·) = true)
    (hfront : FencesClosed (unlines front)) (hinside : ∀ l ∈ inside, ¬ ClosesFence o.mark o.size l)
    (hclose : ClosesFence o.mark o.size close) :
    blocks (unlines (front ++ o.render :: (inside ++ close :: back))) =
      blocks (unlines front) ++
        ⟨front.length + 1, front.length + inside.length + 2, .code (trim o.info) (unlines
            (inside.map fun l => l.drop (min o.indent (l.takeWhile (· == ' ')).length)))⟩ ::
          (blocks (unlines back)).map (Block.shift (front.length + inside.length + 2)) := by
  obtain ⟨hf, hrest⟩ := List.forall_mem_append.mp unbroken
  obtain ⟨-, hib⟩ := List.forall_mem_cons.mp hrest
  obtain ⟨-, hcb⟩ := List.forall_mem_append.mp hib
  obtain ⟨-, hb⟩ := List.forall_mem_cons.mp hcb
  have hopen : Pending.idle.step (front.length + 1) o.render = _ := o.begin_render _
  have hbody : ∀ l ∈ inside, o.fence.closes l = false := by
    intro l hl
    rw [Bool.eq_false_iff]
    exact fun h => hinside l hl (o.closes_iff.mp h)
  have hidle : Pending.idle.Fits [] := trivial
  have hshift := readLines_shift hidle (front.length + inside.length + 2) back
  rw [List.length_nil, Nat.zero_add] at hshift
  have hlast : front.length + 1 + inside.length + 1 = front.length + inside.length + 2 := by omega
  rw [FencesClosed, lines_unlines hf] at hfront
  rw [blocks, blocks, blocks, lines_unlines unbroken, lines_unlines hf, lines_unlines hb,
    readLines_anew o.beginsAnew_render hfront, Nat.zero_add, readLines, hopen, List.nil_append,
    readLines_body hbody (o.closes_iff.mpr hclose), List.nil_append, hlast, ← hshift]
  rfl

/-- A fence of tildes indented by two spaces. -/
def tildes : FenceLine where
  indent := 2
  small := by decide
  mark := '~'
  isMark := .inr rfl
  size := 4
  enough := by decide
  info := " sh ` "
  counted := by decide
  noTick := nofun

/-- A quotation is open before the fence, and what is inside looks like a heading, other fences and
a list item. -/
theorem blocks_fence_tildes :
    FencesClosed (unlines ["> quoted", "more"]) ∧
    (∀ l ∈ ["# no heading".toList, "~~~".toList, "   - item".toList, "````".toList],
      ¬ ClosesFence tildes.mark tildes.size l) ∧
    ClosesFence tildes.mark tildes.size " ~~~~~ " ∧
    blocks (unlines (["> quoted".toList, "more".toList] ++ tildes.render ::
        (["# no heading".toList, "~~~".toList, "   - item".toList, "````".toList] ++
          " ~~~~~ ".toList :: ["Title".toList, "===".toList]))) =
      blocks (unlines ["> quoted", "more"]) ++
        [⟨3, 8, .code "sh `" (unlines ["# no heading", "~~~", " - item", "````"])⟩,
          ⟨9, 10, .heading 1 [.text "Title"]⟩] := by
  have hfront : FencesClosed (unlines ["> quoted", "more"]) := by decide
  have hinside : ∀ l ∈ ["# no heading".toList, "~~~".toList, "   - item".toList, "````".toList],
      ¬ ClosesFence tildes.mark tildes.size l := by
    simp only [← tildes.closes_iff]
    decide
  have hclose : ClosesFence tildes.mark tildes.size " ~~~~~ " := tildes.closes_iff.mp (by decide)
  have hback : blocks (unlines ["Title", "==="]) = [⟨1, 2, .heading 1 [.text "Title"]⟩] := by
    decide +kernel
  have hblocks :=
    @blocks_fence tildes _ _ ["Title", "==="] _ (by decide) hfront hinside hclose
  rw [hback] at hblocks
  exact ⟨hfront, hinside, hclose, hblocks⟩

end Runbook.Markdown
