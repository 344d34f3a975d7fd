import Runbook.Yaml.Quoted

/-! Block scalars: lines under a common indentation, kept as they are or folded, with a header that
says what becomes of the line breaks at the end. -/
namespace Runbook.Yaml

/-- What is done with the line breaks at the end of a block scalar. -/
inductive Chomping where
  | strip
  | clip
  | keep
  deriving DecidableEq, Repr

/-- The header of a block scalar. -/
structure BlockHeader where
  chomping : Chomping := .clip
  /-- The indentation of its lines, counted from the block around it. -/
  increment : Option Nat := none
  deriving DecidableEq, Repr

def chomping? : Text → Option (Chomping × Text)
  | '+' :: r => some (.keep, r)
  | '-' :: r => some (.strip, r)
  | _ => none

def increment? : Text → Option (Nat × Text)
  | c :: r => if c.isDigit then some (c.toNat - '0'.toNat, r) else none
  | [] => none

/-- The two parts of a header, in either order. -/
def headerParts (s : Text) : BlockHeader × Text :=
  match chomping? s with
  | some (chomping, r) =>
    match increment? r with
    | some (n, r) => (⟨chomping, some n⟩, r)
    | none => (⟨chomping, none⟩, r)
  | none =>
    match increment? s with
    | some (n, r) =>
      match chomping? r with
      | some (chomping, r) => (⟨chomping, some n⟩, r)
      | none => (⟨.clip, some n⟩, r)
    | none => ({}, s)

/-- The rest of a line that holds nothing but a remark: the text from its end on. -/
def remark? (s : Text) : Option Text :=
  match s.dropWhile (· == ' ') with
  | [] => some []
  | c :: r =>
    if c == '#' then some (r.dropWhile (!isBreak ·)) else if isBreak c then some (c :: r) else none

/-- The header at the front of a text, with the line break that ends it. -/
def blockHeader? (s : Text) : Option (BlockHeader × Text) :=
  let (header, rest) := headerParts s
  if header.increment == some 0 || !atSpace rest then none
  else (remark? rest).map fun after => (header, after.drop 1)

/-- A place in a text: the column and the text that is left. -/
structure Spot where
  column : Nat
  rest : Text
  deriving DecidableEq, Repr

namespace Spot

/-- The place is that of a line at an indentation. -/
def isLine (spot : Spot) (indent : Nat) : Bool := spot.column == indent && !spot.rest.isEmpty

end Spot

/-- The content of the line breaks of blank lines, the column of the first break, the greatest
column that spaces reach, and the place after them. -/
structure BlankLines where
  breaks : Text := []
  first : Option Nat := none
  greatest : Nat := 0
  spot : Spot

/-- The blank lines and the spaces before the first line of a block scalar. -/
def leadingBlanks (column : Nat) : Text → BlankLines
  | [] => { spot := ⟨column, []⟩ }
  | c :: s =>
    if c == ' ' then
      let more := leadingBlanks (column + 1) s
      { more with greatest := max more.greatest (column + 1) }
    else if isBreak c then
      let more := leadingBlanks (columnAfter column [c]) s
      { more with breaks := breakContent c :: more.breaks, first := some column }
    else { spot := ⟨column, c :: s⟩ }

/-- The line breaks of blank lines, and the place after the spaces of the next line up to an
indentation. -/
def blankBreaks (indent column : Nat) : Text → Text × Spot
  | [] => ([], ⟨column, []⟩)
  | c :: s =>
    if c == ' ' && column < indent then blankBreaks indent (column + 1) s
    else if isBreak c then
      let (breaks, spot) := blankBreaks indent (columnAfter column [c]) s
      (breakContent c :: breaks, spot)
    else ([], ⟨column, c :: s⟩)

/-- How the lines of a block scalar are read. -/
structure BlockStyle where
  folded : Bool
  /-- Nothing around the scalar is indented, so that a mark between documents ends it. -/
  outermost : Bool
  indent : Nat

/-- The lines of a block scalar, the content of the break that ended the last line, and the breaks
of the blank lines at the end. -/
structure BlockLines where
  text : Text := []
  ending : Text := []
  breaks : Text
  rest : Text

/-- A line starts with a blank. -/
def startsBlank (s : Text) : Bool := s.head?.any Text.isSpaceOrTab

/-- The lines of a block scalar from a place on, after the breaks of some blank lines. -/
def blockLines (style : BlockStyle) (breaks : Text) (fuel : Nat) (spot : Spot) : BlockLines :=
  match fuel with
  | 0 => { breaks, rest := spot.rest }
  | fuel + 1 =>
    if !spot.isLine style.indent then { breaks, rest := spot.rest }
    else
      let line := spot.rest.takeWhile (!isBreak ·)
      let column := columnAfter spot.column line
      let after := spot.rest.dropWhile (!isBreak ·)
      let ending := (after.take 1).map breakContent
      let (blanks, next) := blankBreaks style.indent (columnAfter column (after.take 1)) (after.drop 1)
      let separated := style.outermost && next.column == 0 && atSeparator next.rest
      if next.isLine style.indent && !separated then
        let glue :=
          if style.folded && ending == ['\n'] && !startsBlank spot.rest && !startsBlank next.rest then
            if blanks.isEmpty then [' '] else []
          else ending
        let more := blockLines style blanks fuel next
        { more with text := breaks ++ line ++ glue ++ more.text }
      else { text := breaks ++ line, ending, breaks := blanks, rest := next.rest }

/-- A block scalar after its mark, which ends at a column, inside a block of some indentation. -/
def block? (folded : Bool) (outer : Int) (column : Nat) (s : Text) : Option (Text × Text) :=
  match blockHeader? s with
  | none => none
  | some (header, body) =>
    let least := (outer + 1).toNat
    let column := columnAfter column (s.take (s.length - body.length))
    let start : Option (BlockStyle × Text × Spot) :=
      match header.increment with
      | none =>
        let blanks := leadingBlanks column body
        if blanks.first.any fun first => 0 < first && first < blanks.greatest then none
        else some (⟨folded, least == 0, max least blanks.greatest⟩, blanks.breaks, blanks.spot)
      | some n =>
        let indent := max least 1 + n - 1
        let (breaks, spot) := blankBreaks indent column body
        some (⟨folded, false, indent⟩, breaks, spot)
    start.map fun (style, breaks, spot) =>
      let lines := blockLines style breaks (spot.rest.length + 1) spot
      let tail := match header.chomping with
        | .strip => []
        | .clip => lines.ending
        | .keep => lines.ending ++ lines.breaks
      (lines.text ++ tail, lines.rest)

end Runbook.Yaml
