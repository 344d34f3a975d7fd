import Mathlib.Tactic.Common
import Runbook.Markdown.Block
import Runbook.Proofs.Text.Lines

/-! Headings on one line and fenced code, where no block is open before them. -/
namespace Runbook.Markdown
open Text

lemma margin?_clear {l : Text} (h : Clear (· == ' ') l) : margin? l = some (0, l) := by
  rw [margin?, dropWhile_clear h, Nat.sub_self]
  rfl

/-! ### Headings -/

section Numbered
variable {level : Nat} {title : Text}

lemma exists_sign_cons (hlevel : 1 ≤ level) (s : Text) :
    List.replicate level '#' ++ s = '#' :: (List.replicate (level - 1) '#' ++ s) := by
  obtain ⟨k, rfl⟩ := Nat.exists_eq_add_of_le' hlevel
  rw [List.replicate_succ]
  rfl

lemma withoutClosing_clear (h : Clear (· == '#') title.reverse) : withoutClosing title = title := by
  rw [withoutClosing, dropEndWhile_clear h]
  exact if_pos rfl

/-- A title that neither starts nor ends with white space, and does not end with the sign, is what
is read. -/
lemma numbered?_heading (hlevel : 1 ≤ level) (hsix : level ≤ 6) (hfront : Clear isBlank title)
    (hback : Clear isBlank title.reverse) (hsign : Clear (· == '#') title.reverse) :
    numbered? (List.replicate level '#' ++ ' ' :: title) = some (level, title) := by
  have hsigns : (List.replicate level '#').all (· == '#') = true := by simp
  have hspace : Clear (· == '#') (' ' :: title) := clear_cons.mpr (by decide)
  have hmargin : Clear (· == ' ') (List.replicate level '#' ++ ' ' :: title) := by
    rw [exists_sign_cons hlevel]
    exact clear_cons.mpr (by decide)
  rw [numbered?, margin?_clear hmargin]
  simp only [takeWhile_append_clear hsigns hspace, dropWhile_append_clear hsigns hspace,
    List.length_replicate, trim_space, trim_clear hfront hback, withoutClosing_clear hsign]
  rw [if_pos ⟨hlevel, hsix⟩]
  rfl

/-- A line with number signs before a title is a heading on its own. -/
theorem begin_heading (n : Nat) (hlevel : 1 ≤ level) (hsix : level ≤ 6)
    (hfront : Clear isBlank title) (hback : Clear isBlank title.reverse)
    (hsign : Clear (· == '#') title.reverse) :
    Pending.begin n (List.replicate level '#' ++ ' ' :: title) =
      ([⟨n, n, .heading level (inline title)⟩], .idle) := by
  have hnumbered := numbered?_heading hlevel hsix hfront hback hsign
  rw [exists_sign_cons hlevel] at hnumbered ⊢
  set l := '#' :: (List.replicate (level - 1) '#' ++ ' ' :: title) with hl
  have hfence : Fence.opening? l = none := by
    rw [Fence.opening?, margin?_clear (clear_cons.mpr (by decide))]
    rfl
  have hblank : isBlankText l = false := rfl
  rw [Pending.begin, hblank, hfence, hnumbered]
  rfl

end Numbered

/-! ### Fenced code -/

/-- Three backticks and an info string open a block. -/
lemma opening?_ticks {info : Text} (htrim : trim info = info)
    (htick : info.all (· != '`') = true) :
    Fence.opening? ("```" ++ info) = some ⟨0, '`', 3, info⟩ := by
  have hclear : Clear (· == '`') info := clear_of_all htick
  have hmarks : ['`', '`'].all (· == '`') = true := by decide
  have hnot : info.contains '`' = false := by
    rw [List.contains_eq_any_beq, List.any_eq_false]
    intro c hc heq
    obtain rfl : '`' = c := by simpa using heq
    exact absurd (List.all_eq_true.mp htick _ hc) (by decide)
  change Fence.opening? ('`' :: (['`', '`'] ++ info)) = _
  rw [Fence.opening?, margin?_clear (clear_cons.mpr (by decide))]
  simp only [takeWhile_append_clear hmarks hclear, dropWhile_append_clear hmarks hclear, hnot,
    htrim]
  rfl

lemma begin_ticks (n : Nat) {info : Text} (htrim : trim info = info)
    (htick : info.all (· != '`') = true) :
    Pending.begin n ("```" ++ info) = ([], .fenced n ⟨0, '`', 3, info⟩ []) := by
  have hline : isBlankText ("```" ++ info) = false := rfl
  rw [Pending.begin, hline, opening?_ticks htrim htick]
  rfl

/-- What stands inside a fence is kept line by line, less the indentation of the fence, up to the
line that closes it. -/
theorem readLines_body {f : Fence} {source : List Text} (hsource : ∀ l ∈ source, f.closes l = false)
    {close : Text} (hclose : f.closes close = true) (n first : Nat) (body rest : List Text) :
    readLines n (.fenced first f body) (source ++ close :: rest) =
      ⟨first, n + source.length + 1,
          .code f.info (unlines (body ++ source.map f.unindent))⟩ ::
        readLines (n + source.length + 1) .idle rest := by
  induction source generalizing n body with
  | nil =>
    have hstep : (Pending.fenced first f body).step (n + 1) close =
        ([⟨first, n + 1, .code f.info (unlines body)⟩], .idle) := if_pos hclose
    rw [List.nil_append, readLines, hstep, List.map_nil, List.append_nil]
    rfl
  | cons l source ih =>
    obtain ⟨hl, hsource⟩ := List.forall_mem_cons.mp hsource
    have hstep : (Pending.fenced first f body).step (n + 1) l =
        ([], .fenced first f (body ++ [f.unindent l])) := if_neg (by simp [hl])
    rw [List.cons_append, readLines, hstep, List.nil_append, ih hsource, List.append_assoc,
      List.length_cons, List.map_cons]
    congr 3 <;> omega

/-- Nothing is taken off the lines inside a fence that is not indented. -/
lemma readLines_fenced {f : Fence} (hindent : f.indent = 0) {source : List Text}
    (hsource : ∀ l ∈ source, f.closes l = false) {close : Text} (hclose : f.closes close = true)
    (n first : Nat) (body rest : List Text) :
    readLines n (.fenced first f body) (source ++ close :: rest) =
      ⟨first, n + source.length + 1, .code f.info (unlines (body ++ source))⟩ ::
        readLines (n + source.length + 1) .idle rest := by
  have hkeep : ∀ l ∈ source, f.unindent l = id l := by
    intro l _
    rw [Fence.unindent, hindent, Nat.zero_min]
    rfl
  rw [readLines_body hsource hclose, List.map_congr_left hkeep, List.map_id]

end Runbook.Markdown
