import Runbook.Text.Basic

/-! Inline content: literal text and code spans. A code span opens with a run of backticks and
closes with the next run of the same length; a run that finds no partner is literal. -/
namespace Runbook.Markdown

/-- Literal text, or the content of a code span. -/
inductive Inline where
  | text (s : Text)
  | code (s : Text)
  deriving DecidableEq, Repr

namespace Inline

/-- A maximal run of backticks, or one other character. -/
inductive Piece where
  | ticks (n : Nat)
  | other (c : Char)
  deriving DecidableEq, Repr

def Piece.toText : Piece → Text
  | ticks n => List.replicate n '`'
  | other c => [c]

/-- A text cut into its runs of backticks and its other characters. -/
def pieces : Text → List Piece
  | [] => []
  | c :: s =>
    if c = '`' then
      match pieces s with
      | .ticks n :: ps => .ticks (n + 1) :: ps
      | ps => .ticks 1 :: ps
    else .other c :: pieces s

/-- Cutting into pieces loses nothing. -/
@[simp] theorem flatMap_pieces (s : Text) : (pieces s).flatMap Piece.toText = s := by
  induction s with
  | nil => rfl
  | cons c s ih =>
    unfold pieces
    split
    · next h =>
      subst h
      split
      · next n ps hp => simpa [hp, Piece.toText, List.replicate_succ] using ih
      · simpa [Piece.toText] using ih
    · simpa [Piece.toText] using ih

/-- The content of a code span: a line feed counts as a space, and one space is taken off at each
end when both ends have one and there is more than white space between. -/
def spanContent (raw : Text) : Text :=
  let s := Text.replaceChar '\n' ' ' raw
  if 2 ≤ s.length ∧ s.head? = some ' ' ∧ s.getLast? = some ' ' ∧ !Text.isBlankText s then
    (s.drop 1).dropLast
  else s

/-- Inline content with literal text before it; texts that meet are one text. -/
def prepend (s : Text) : List Inline → List Inline
  | text t :: rest => text (s ++ t) :: rest
  | rest => text s :: rest

/-- The inline content that pieces make. -/
def ofPieces : List Piece → List Inline
  | [] => []
  | .other c :: ps => prepend [c] (ofPieces ps)
  | .ticks n :: ps =>
    let inside := ps.takeWhile (· ≠ .ticks n)
    match h : ps.dropWhile (· ≠ .ticks n) with
    | [] => prepend (List.replicate n '`') (ofPieces ps)
    | _ :: rest =>
      have : rest.length < ps.length := by
        have := (ps.dropWhile_suffix (· ≠ .ticks n)).length_le
        simp only [h, List.length_cons] at this
        omega
      code (spanContent (inside.flatMap Piece.toText)) :: ofPieces rest
termination_by ps => ps.length

end Inline

/-- The inline content of a text. -/
def inline (s : Text) : List Inline := Inline.ofPieces (Inline.pieces s)

end Runbook.Markdown
