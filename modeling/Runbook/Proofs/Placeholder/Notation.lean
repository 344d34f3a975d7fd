import Mathlib.Tactic.Common
import Runbook.Placeholder.Reading
import Runbook.Proofs.Text.Span

/-! The notation of placeholders: the parts that one is written with, the text that they make, and
the placeholder that they mean. Nothing here refers to how placeholders are read. -/
namespace Runbook.Placeholder
open Text

/-- The opener can be written: a variable has only letters, digits and underscores. -/
def Opener.WellFormed : Opener → Prop
  | .input => True
  | .argument => True
  | .environment given => given.all isAliasChar = true

instance : DecidablePred Opener.WellFormed
  | .input => inferInstanceAs (Decidable True)
  | .argument => inferInstanceAs (Decidable True)
  | .environment given => inferInstanceAs (Decidable (given.all isAliasChar = true))

def Opener.render : Opener → Text
  | .input => ['<', '\x7b']
  | .argument => ['$', '\x7b']
  | .environment given => given ++ ['=', '\x7b']

/-- Spaces and tabs, or nothing. -/
structure Blanks where
  text : Text
  blank : text.all isSpaceOrTab = true

/-- A row of decimal digits, no longer than what is read. -/
structure Numeral where
  digits : Text
  nonempty : digits ≠ []
  decimal : digits.all isDecimal = true
  short : digits.length ≤ numeralLimit

/-- Field numbers with single commas between them. -/
structure Numbers where
  first : Numeral
  more : List Numeral

namespace Numbers

def render (n : Numbers) : Text := n.first.digits ++ n.more.flatMap fun m => ',' :: m.digits

def values (n : Numbers) : List Nat := (n.first :: n.more).map fun m => numeral m.digits

end Numbers

/-- What can follow a colon. -/
inductive Shorthand where
  | fields (numbers : Numbers) (multi : Bool)
  | several (numbers : Option Numbers)

namespace Shorthand

def render : Shorthand → Text
  | fields n multi => n.render ++ if multi then ['m'] else []
  | several n => 'm' :: (n.map Numbers.render).getD []

def modifiers : Shorthand → List Modifier
  | fields n multi => .format (.fields n.values) :: if multi then [.multiple] else []
  | several n => .multiple :: (n.map fun n => Modifier.format (.fields n.values)).toList

end Shorthand

/-- The written form of a modifier. -/
inductive Phrase where
  | columns (header : Bool) (gap : Blanks) (numbers : Option Numbers)
  | fields (gap : Blanks) (numbers : Numbers)
  | json
  | filter (gap : Blanks) (word : Text) (latin : word.all Char.isAlphanum = true)
  | list
  | multiple (long : Bool)

namespace Phrase

def keyword : Phrase → Text
  | columns .. => "cols"
  | fields .. => "fields"
  | json => "json"
  | filter .. => "filter"
  | list => "list"
  | multiple long => if long then "multiple" else "multi"

/-- What follows the keyword. -/
def argument : Phrase → Text
  | columns header gap n =>
    (if header then ['+', 'h'] else []) ++ (gap.text ++ (n.map Numbers.render).getD [])
  | fields gap n => gap.text ++ n.render
  | filter gap word _ => gap.text ++ '"' :: word ++ ['"']
  | _ => []

def render (ph : Phrase) : Text := ph.keyword ++ ph.argument

def modifier : Phrase → Modifier
  | columns header _ n => .format (.columns header ((n.map Numbers.values).getD []))
  | fields _ n => .format (.fields n.values)
  | json => .format .json
  | filter _ word _ => .filter word
  | list => .takeAll
  | multiple _ => .multiple

end Phrase

/-- A bar with a modifier after it, and blanks around the bar. -/
structure Link where
  before : Blanks
  after : Blanks
  phrase : Phrase

namespace Link

/-- What stands before the modifier. -/
def lead (l : Link) : Text := l.before.text ++ '|' :: l.after.text

def render (l : Link) : Text := l.lead ++ l.phrase.render

/-- A pipeline as text. -/
def renderAll (ls : List Link) : Text := ls.flatMap render

def modifiers (ls : List Link) : List Modifier := ls.map fun l => l.phrase.modifier

@[simp] theorem renderAll_nil : renderAll [] = [] := rfl

@[simp] theorem renderAll_cons (l : Link) (ls : List Link) :
    renderAll (l :: ls) = l.render ++ renderAll ls := rfl

@[simp] theorem renderAll_append (ls ms : List Link) :
    renderAll (ls ++ ms) = renderAll ls ++ renderAll ms := List.flatMap_append ..

@[simp] theorem modifiers_nil : modifiers [] = [] := rfl

@[simp] theorem modifiers_cons (l : Link) (ls : List Link) :
    modifiers (l :: ls) = l.phrase.modifier :: modifiers ls := rfl

@[simp] theorem modifiers_append (ls ms : List Link) :
    modifiers (ls ++ ms) = modifiers ls ++ modifiers ms := List.map_append ..

end Link

/-- A placeholder as it is written, from the opener to the closing brace. -/
structure Written where
  opener : Opener
  opens : opener.WellFormed
  name : Text
  named : name ≠ []
  nameChars : name.all isNameChar = true
  shorthand : Option Shorthand
  links : List Link
  last : Blanks
  /-- A tab right after the name would belong to it, so blanks there start with a space. -/
  apart : shorthand = none → Clear isNameChar (Link.renderAll links ++ last.text)

/-- The format that a modifier gives. -/
def format? : Modifier → Option Format
  | .format f => some f
  | _ => none

/-- The word that a modifier filters by. -/
def filter? : Modifier → Option Text
  | .filter w => some w
  | _ => none

namespace Written

/-- What stands before the pipeline. -/
def head (w : Written) : Text :=
  w.opener.render ++ w.name ++ (w.shorthand.map fun s => ':' :: s.render).getD []

def render (w : Written) : Text := w.head ++ Link.renderAll w.links ++ w.last.text ++ ['\x7d']

/-- The modifiers of the shorthand. -/
def headModifiers (w : Written) : List Modifier := (w.shorthand.map Shorthand.modifiers).getD []

/-- All modifiers, in either notation. -/
def modifiers (w : Written) : List Modifier := w.headModifiers ++ Link.modifiers w.links

/-- The formats that are given; there can be only one. -/
def formats (w : Written) : List Format := w.modifiers.filterMap format?

/-- Where the values go. A variable is named after its alias, or after the placeholder where that
is empty, with underscores for hyphens. -/
def target (w : Written) : Target :=
  match w.opener with
  | .input => .input
  | .argument => .argument
  | .environment [] => .environment (w.name.map fun c => if c = '-' then '_' else c)
  | .environment given => .environment (given.map fun c => if c = '-' then '_' else c)

/-- The meaning: the format that is given, the last of the filters, and whether all values or
several are wanted. -/
def placeholder (w : Written) : Placeholder where
  target := w.target
  name := w.name
  format := w.formats.head?.getD .lines
  filter := (w.modifiers.filterMap filter?).getLast?
  multiple := w.modifiers.any (· = .multiple)
  takesAll := w.modifiers.any (· = .takeAll)

end Written
end Runbook.Placeholder
