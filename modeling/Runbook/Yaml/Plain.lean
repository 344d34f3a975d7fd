import Runbook.Yaml.Quoted

/-! How far a plain scalar reaches. It has no marks of its own, so its place decides what ends it. -/
namespace Runbook.Yaml

/-- Where a plain scalar stands. -/
structure PlainPlace where
  version : Version
  inFlow : Bool
  /-- The least column of its later lines outside brackets. -/
  indent : Int

/-- A character ends a piece of a plain scalar, given the text after it: a colon before a gap, and
inside brackets commas, brackets and, in the first version, question marks. -/
def PlainPlace.endsPiece (p : PlainPlace) (c : Char) (after : Text) : Bool :=
  if c == ':' then atGap after
  else isGap c ||
    p.inFlow && (",[]\x7b\x7d".toList.contains c || c == '?' && p.version.isFirst)

/-- One piece of a plain scalar without blanks, and what follows it. -/
def plainPiece (p : PlainPlace) : Text → Text × Text
  | [] => ([], [])
  | c :: s =>
    if p.endsPiece c s then ([], c :: s)
    else
      let (piece, rest) := plainPiece p s
      (c :: piece, rest)

/-- The spaces and line breaks at the front of a text, up to a mark between documents. -/
def plainGap : Text → Text × Text
  | [] => ([], [])
  | c :: s =>
    if isBreak c && atSeparator s then ([c], s)
    else if c == ' ' || isBreak c then
      let (gap, rest) := plainGap s
      (c :: gap, rest)
    else ([], c :: s)

/-- A plain scalar from a column on: its text, what follows it and the gap after it, and whether
there is a line break in this gap. -/
def plain (p : PlainPlace) (column fuel : Nat) (s : Text) : Text × Text × Bool :=
  match fuel with
  | 0 => ([], s, false)
  | fuel + 1 =>
    let (piece, after) := plainPiece p s
    if piece.isEmpty then ([], s, false)
    else
      let (gap, rest) := plainGap after
      let crossed := gap.any isBreak
      let column := columnAfter column (piece ++ gap)
      let ends := gap.isEmpty || !gapAllowed gap rest || rest.head? == some '#' ||
        !p.inFlow && column < p.indent
      if ends then (piece, rest, crossed)
      else match plain p column fuel rest with
      -- blanks at the end do not belong to the scalar
      | ([], rest, _) => (piece, rest, crossed)
      | (more, rest, crossed) => (piece ++ gapContent gap ++ more, rest, crossed)

end Runbook.Yaml
