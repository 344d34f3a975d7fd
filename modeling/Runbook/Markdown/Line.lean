import Runbook.Text.Digits

/-! The shapes of single lines that decide how a document falls into blocks. -/
namespace Runbook.Markdown

open Text

/-- A line with at most three leading spaces: their number, and what follows them. -/
def margin? (l : Text) : Option (Nat × Text) :=
  let rest := l.dropWhile (· == ' ')
  let indent := l.length - rest.length
  if indent ≤ 3 then some (indent, rest) else none

/-- The line that opens a fenced block. -/
structure Fence where
  indent : Nat
  mark : Char
  size : Nat
  info : Text
  deriving DecidableEq, Repr

namespace Fence

/-- Three or more backticks or tildes open a fence; after backticks the info string has none. -/
def opening? (l : Text) : Option Fence :=
  match margin? l with
  | some (indent, mark :: rest) =>
    let size := 1 + (rest.takeWhile (· == mark)).length
    let info := rest.dropWhile (· == mark)
    if (mark == '`' && !info.contains '`' || mark == '~') && 3 ≤ size then
      some ⟨indent, mark, size, trim info⟩
    else none
  | _ => none

/-- A fence is closed by at least as many marks, with nothing but blanks after them. -/
def closes (f : Fence) (l : Text) : Bool :=
  match margin? l with
  | some (_, rest) =>
    f.size ≤ (rest.takeWhile (· == f.mark)).length &&
      (rest.dropWhile (· == f.mark)).all isSpaceOrTab
  | none => false

/-- A line inside the fence loses as many leading spaces as the fence had, if it has them. -/
def unindent (f : Fence) (l : Text) : Text :=
  l.drop (min f.indent (l.takeWhile (· == ' ')).length)

end Fence

/-- A title without the number signs that close it: they end the title and stand alone or after
a blank. -/
def withoutClosing (title : Text) : Text :=
  let body := dropEndWhile (· == '#') title
  if body.length = title.length then title
  else match body.getLast? with
    | none => []
    | some c => if isSpaceOrTab c then dropEndWhile isSpaceOrTab body else title

/-- A heading on one line, opened by one to six number signs: its level and its title. -/
def numbered? (l : Text) : Option (Nat × Text) :=
  match margin? l with
  | some (_, rest) =>
    let level := (rest.takeWhile (· == '#')).length
    let after := rest.dropWhile (· == '#')
    if 1 ≤ level ∧ level ≤ 6 then
      match after with
      | [] => some (level, [])
      | c :: _ =>
        if isSpaceOrTab c then some (level, withoutClosing (trim after)) else none
    else none
  | none => none

/-- The underline that turns the paragraph above it into a heading: its level. -/
def underline? (l : Text) : Option Nat :=
  match margin? l with
  | some (_, c :: rest) =>
    if (c == '=' || c == '-') && isBlankText (rest.dropWhile (· == c)) then
      some (if c == '=' then 1 else 2)
    else none
  | _ => none

/-- Three or more equal marks with nothing but blanks between them. -/
def isRule (l : Text) : Bool :=
  match margin? l with
  | some (_, c :: rest) =>
    (c == '-' || c == '*' || c == '_') &&
      rest.all (fun d => d == c || isSpaceOrTab d) && 2 ≤ rest.count c
  | _ => false

/-- A line indented far enough to be code. -/
def isIndented (l : Text) : Bool :=
  ("    ".toList).isPrefixOf l || ("\t".toList).isPrefixOf l

/-- An indented line without its indentation. -/
def unindent (l : Text) : Text := if ("\t".toList).isPrefixOf l then l.drop 1 else l.drop 4

/-- A list mark ends the line or is followed by a blank. -/
def endsMark : Text → Bool
  | [] => true
  | c :: _ => isSpaceOrTab c

/-- A line that opens a quotation, a list item or a block of markup. -/
def opensContainer (l : Text) : Bool :=
  match margin? l with
  | some (_, c :: rest) =>
    if c == '>' then true
    else if c == '-' || c == '*' || c == '+' then endsMark rest
    else if c == '<' then
      match rest with
      | d :: _ => d.isAlpha || d == '/' || d == '!' || d == '?'
      | [] => false
    else
      let digits := (c :: rest).takeWhile isDecimal
      1 ≤ digits.length && digits.length ≤ 9 &&
        match (c :: rest).dropWhile isDecimal with
        | d :: after => (d == '.' || d == ')') && endsMark after
        | [] => false
  | _ => false

end Runbook.Markdown
