import Mathlib.Tactic.Common
import Runbook.Markdown.Inline
import Runbook.Proofs.Text.Span

/-! Inline content of texts with at most one code span. -/
namespace Runbook.Markdown
open Text

namespace Inline

lemma pieces_append {s : Text} (h : s.all (· != '`') = true) (r : Text) :
    pieces (s ++ r) = s.map .other ++ pieces r := by
  induction s with
  | nil => rfl
  | cons c s ih =>
    obtain ⟨hc, hs⟩ := Bool.and_eq_true_iff.mp h
    rw [List.cons_append, pieces, if_neg (by simpa using hc), ih hs]
    rfl

lemma pieces_of_all {s : Text} (h : s.all (· != '`') = true) : pieces s = s.map .other := by
  have happ := pieces_append h []
  rwa [List.append_nil, pieces, List.append_nil] at happ

/-- A backtick before a text without any is a run of its own. -/
lemma pieces_tick {s : Text} (h : Clear (· == '`') s) :
    pieces ('`' :: s) = .ticks 1 :: pieces s := by
  rw [pieces, if_pos rfl]
  cases s with
  | nil => rfl
  | cons c s =>
    have hc : c ≠ '`' := by simpa using h
    rw [pieces, if_neg hc]

lemma ofPieces_other {s : Text} (h : s ≠ []) : ofPieces (s.map .other) = [.text s] := by
  induction s with
  | nil => exact absurd rfl h
  | cons c s ih =>
    rw [List.map_cons, ofPieces]
    cases s with
    | nil => rw [List.map_nil, ofPieces]; rfl
    | cons d s => rw [ih (List.cons_ne_nil _ _)]; rfl

lemma ofPieces_span (s : Text) (ps : List Piece) :
    ofPieces (.ticks 1 :: (s.map .other ++ .ticks 1 :: ps)) =
      .code (spanContent s) :: ofPieces ps := by
  have hother : ∀ p ∈ s.map Piece.other, (decide (p ≠ .ticks 1)) = true := by
    intro p hp
    obtain ⟨c, -, rfl⟩ := List.mem_map.mp hp
    simp
  have htake : (s.map Piece.other ++ .ticks 1 :: ps).takeWhile (· ≠ .ticks 1) =
      s.map Piece.other := by
    rw [List.takeWhile_append_of_pos hother]
    simp
  have hdrop : (s.map Piece.other ++ .ticks 1 :: ps).dropWhile (· ≠ .ticks 1) = .ticks 1 :: ps := by
    rw [List.dropWhile_append_of_pos hother]
    simp
  have hraw : (s.map Piece.other).flatMap Piece.toText = s := by
    rw [List.flatMap_map]
    exact List.flatMap_singleton' s
  rw [ofPieces]
  split
  · next heq =>
    rw [hdrop] at heq
    cases heq
  · next heq =>
    rw [hdrop] at heq
    obtain ⟨-, rfl⟩ := List.cons.inj heq
    rw [htake, hraw]

/-- Nothing is taken off a span that has no line feed and starts with no space. -/
lemma spanContent_eq {s : Text} (hfeed : '\n' ∉ s) (hspace : s.head? ≠ some ' ') :
    spanContent s = s := by
  have hreplace : replaceChar '\n' ' ' s = s := by
    have hkeep : ∀ c ∈ s, (if c == '\n' then ' ' else c) = id c := by
      intro c hc
      have hne : c ≠ '\n' := fun h => hfeed (h ▸ hc)
      simp [hne]
    rw [replaceChar, List.map_congr_left hkeep, List.map_id]
  rw [spanContent]
  simp only [hreplace]
  exact if_neg fun h => hspace h.2.1

end Inline

lemma inline_of_all {s : Text} (hs : s ≠ []) (h : s.all (· != '`') = true) :
    inline s = [.text s] := by
  rw [inline, Inline.pieces_of_all h, Inline.ofPieces_other hs]

/-- A code span is followed by the content of the rest. -/
theorem inline_span {s r : Text} (hs : s ≠ []) (h : s.all (· != '`') = true)
    (hr : Clear (· == '`') r) :
    inline ('`' :: s ++ '`' :: r) = .code (Inline.spanContent s) :: inline r := by
  have hfront : Clear (· == '`') (s ++ '`' :: r) := by
    cases s with
    | nil => exact absurd rfl hs
    | cons c s => simpa using (Bool.and_eq_true_iff.mp h).1
  rw [inline, List.cons_append, Inline.pieces_tick hfront, Inline.pieces_append h,
    Inline.pieces_tick hr, Inline.ofPieces_span, inline]

end Runbook.Markdown
