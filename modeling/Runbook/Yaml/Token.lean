import Runbook.Text.Basic

/-! The tokens of YAML. Indentation is made explicit: a block collection has a token where it starts
and one where it ends, and every key has a token before it. -/
namespace Runbook.Yaml

/-- A version of the language. -/
structure Version where
  major : Nat := 1
  minor : Nat := 2
  deriving DecidableEq, Repr

namespace Version

/-- The first version, in which a few more words are booleans, numbers can be written in sixties, and
keys are never left out. -/
def first : Version := ⟨1, 1⟩

def isFirst (v : Version) : Bool := v == first

def isCurrent (v : Version) : Bool := v == {}

/-- The version came after the first one. -/
def isLater (v : Version) : Bool := 1 < v.major || v.major == 1 && 1 < v.minor

/-- The version can be asked for. -/
def isOffered (v : Version) : Bool := v.isFirst || v.isCurrent

end Version

/-- A tag as written: a handle, unless the whole tag is given, and the rest, in which percent signs
stand for themselves. -/
structure Tag where
  handle : Option Text
  suffix : Text
  deriving DecidableEq, Repr

inductive Directive where
  | version (v : Version)
  | handle (name meaning : Text)
  | other
  deriving DecidableEq, Repr

inductive Token where
  | directive (d : Directive)
  | documentStart
  | documentEnd
  | streamEnd
  | sequenceStart
  | mappingStart
  | blockEnd
  | flowSequenceStart
  | flowSequenceEnd
  | flowMappingStart
  | flowMappingEnd
  | entry
  | flowEntry
  | key
  | value
  | reference (name : Text)
  | anchor (name : Text)
  | tag (t : Tag)
  | scalar (text : Text) (plain : Bool)
  deriving DecidableEq, Repr

/-- The characters that end a line. -/
def isBreak (c : Char) : Bool := c == '\n' || c == '\u0085' || c == '\u2028' || c == '\u2029'

/-- Blanks and the characters that end a line. -/
def isGap (c : Char) : Bool := Text.isSpaceOrTab c || isBreak c

/-- The text ends here, or goes on with a character of a class. -/
def atSome (p : Char → Bool) : Text → Bool
  | [] => true
  | c :: _ => p c

/-- The text ends here, or goes on with a blank or a line break. -/
def atGap (s : Text) : Bool := atSome isGap s

/-- The text ends here, or goes on with a space or a line break. -/
def atSpace (s : Text) : Bool := atSome (fun c => c == ' ' || isBreak c) s

/-- A mark that separates documents stands here. -/
def atSeparator (s : Text) : Bool :=
  (("---".toList).isPrefixOf s || ("...".toList).isPrefixOf s) && atGap (s.drop 3)

/-- The characters that a document may hold. -/
def isAllowed (c : Char) : Bool :=
  let n := c.toNat
  n == 0x9 || n == 0xa || n == 0xd || 0x20 ≤ n && n ≤ 0x7e || n == 0x85 ||
    0xa0 ≤ n && n ≤ 0xfffd || 0x10000 ≤ n

/-- The content that a line break stands for. -/
def breakContent (c : Char) : Char := if c == '\u0085' then '\n' else c

/-- What line breaks between words come to: a line feed alone is a space, and before other breaks
it is dropped. -/
def foldBreaks : Text → Text
  | [] => []
  | c :: more => if c != '\n' then c :: more else if more.isEmpty then [' '] else more

/-- The column after some text that begins at a column. Only a line feed begins a line; the mark of
byte order takes no place. -/
def columnAfter (column : Nat) (s : Text) : Nat :=
  s.foldl (fun n c => if c == '\n' then 0 else if c == '\ufeff' then n else n + 1) column

end Runbook.Yaml
