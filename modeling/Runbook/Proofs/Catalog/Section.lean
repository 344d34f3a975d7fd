import Mathlib.Tactic.Common
import Runbook.Command

/-! Catalogs from the other side: sections of headings and code blocks, the text that they are
written as, and the commands that they stand for. Nothing here refers to how documents are read. -/
namespace Runbook.Catalog
open Text

/-- The characters of names that are written. -/
def isTitleChar (c : Char) : Bool := c.isAlphanum || c == '_' || c == '-'

/-- The characters of types that are written in double quotes. -/
def isTypeChar (c : Char) : Bool := c != '"' && c != '`' && !isLineBreak c

/-- The line ends a block after three backticks: three or more of them, with at most three spaces
before and only blanks after them. -/
def ClosesTicks (l : Text) : Prop :=
  ∃ (indent marks : Nat) (blanks : Text), indent ≤ 3 ∧ 3 ≤ marks ∧
    blanks.all isSpaceOrTab = true ∧
    l = List.replicate indent ' ' ++ (List.replicate marks '`' ++ blanks)

/-- A code block: the word for its language, which may be missing, and the lines of its source. -/
structure Body where
  word : Text
  wordChars : word.all (fun c => !isBlank c && c != '`') = true
  source : List Text
  unbroken : ∀ l ∈ source, l.all (!isLineBreak ·) = true
  unclosed : ∀ l ∈ source, ¬ ClosesTicks l

/-- A heading with a name and types. It is that of a command if there is a code block. -/
structure Section where
  level : Nat
  positive : 1 ≤ level
  small : level ≤ 6
  name : Text
  named : name ≠ []
  nameChars : name.all isTitleChar = true
  types : List Text
  typeChars : ∀ t ∈ types, t.all isTypeChar = true
  body : Option Body

/-- The lines of a code block. -/
def Body.lines (b : Body) : List Text := ("```" ++ b.word) :: b.source ++ ["```".toList]

namespace Section

/-- A type as an attribute. -/
def quoted (t : Text) : Text := "type=\"".toList ++ (t ++ ['"'])

/-- The block of types; none is written where there are no types. -/
def attributes (s : Section) : Text :=
  if s.types.isEmpty then [] else " \x7b" ++ unwords (s.types.map quoted) ++ ['\x7d']

/-- The name stands in a code span for commands. -/
def title (s : Section) : Text :=
  (if s.body.isSome then '`' :: s.name ++ ['`'] else s.name) ++ s.attributes

def heading (s : Section) : Text := List.replicate s.level '#' ++ ' ' :: s.title

def lines (s : Section) : List Text := s.heading :: (s.body.map Body.lines).getD []

/-- The sections as a document. -/
def render (ss : List Section) : Text := unlines (ss.flatMap lines)

/-- The sections that are still open after the last of these: all later ones are deeper. -/
def opened : List Section → List Section
  | [] => []
  | s :: ss => if ss.all (s.level < ·.level) then s :: opened ss else opened ss

/-- The command of a section that starts at some line, after other sections. It is for the types of
all sections that are open, its own included. -/
def command (path : Text) (line : Nat) (before : List Section) (s : Section) (b : Body) :
    Command where
  name := s.name
  language := .ofTag b.word
  source := unlines b.source
  placeholders := []
  types := .ofList ((opened (before ++ [s])).flatMap types)
  description := none
  hidden := s.name.head? = some '_'
  location := some ⟨path, line, line + s.lines.length - 1, s.level⟩
  background := false

/-- The commands of sections that start at some line, after other sections. -/
def commands (path : Text) (line : Nat) (before : List Section) : List Section → List Command
  | [] => []
  | s :: ss =>
    (s.body.map (s.command path line before)).toList ++
      commands path (line + s.lines.length) (before ++ [s]) ss

end Section
end Runbook.Catalog
