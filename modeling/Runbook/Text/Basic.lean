/-! Text as a list of characters: blanks, line breaks, and the cutting of a text into lines and
words. -/
namespace Runbook

/-- Text is a list of code points, so that a position counts code points from zero. -/
abbrev Text := List Char

instance : Coe String Text := ⟨String.toList⟩

namespace Text

/-- The characters that end a line. -/
def lineBreaks : List Char :=
  ['\n', '\x0b', '\x0c', '\r', '\x1c', '\x1d', '\x1e', '\u0085', '\u2028', '\u2029']

def isLineBreak (c : Char) : Bool := lineBreaks.contains c

/-- The characters that count as white space besides those that end a line. -/
def inlineBlanks : List Char :=
  [' ', '\t', '\x1f', '\u00a0', '\u1680', '\u2000', '\u2001', '\u2002', '\u2003', '\u2004',
    '\u2005', '\u2006', '\u2007', '\u2008', '\u2009', '\u200a', '\u202f', '\u205f', '\u3000']

/-- White space, of a line or at its end. -/
def isBlank (c : Char) : Bool := inlineBlanks.contains c || isLineBreak c

theorem isBlank_of_isLineBreak {c : Char} (h : isLineBreak c) : isBlank c := by simp [isBlank, h]

/-- A space or a tab. -/
def isSpaceOrTab (c : Char) : Bool := c == ' ' || c == '\t'

/-- Nothing but white space. -/
def isBlankText (s : Text) : Bool := s.all isBlank

/-- The text without the characters at its end that satisfy p. -/
def dropEndWhile (p : Char → Bool) (s : Text) : Text := (s.reverse.dropWhile p).reverse

def trimStart (s : Text) : Text := s.dropWhile isBlank

def trimEnd (s : Text) : Text := dropEndWhile isBlank s

/-- The text without the white space at its two ends. -/
def trim (s : Text) : Text := trimEnd (trimStart s)

/-- The lines of a text without the breaks that end them; a carriage return and the line feed
after it are one break. -/
def lines : Text → List Text
  | [] => []
  | '\r' :: '\n' :: s => [] :: lines s
  | c :: s =>
    if isLineBreak c then [] :: lines s
    else match lines s with
      | [] => [[c]]
      | l :: ls => (c :: l) :: ls

/-- The pieces of a text between the characters that satisfy p: one more than there are such
characters. -/
def splitAll (p : Char → Bool) : Text → List Text
  | [] => [[]]
  | c :: s =>
    if p c then [] :: splitAll p s
    else match splitAll p s with
      | [] => [[c]]
      | w :: ws => (c :: w) :: ws

/-- The maximal pieces of a text without white space. -/
def words (s : Text) : List Text := (splitAll isBlank s).filter (!·.isEmpty)

/-- The pieces one after another with a separator between neighbours. -/
def joinWith (separator : Text) : List Text → Text
  | [] => []
  | [s] => s
  | s :: t :: rest => s ++ separator ++ joinWith separator (t :: rest)

/-- The words with one space between neighbours. -/
def unwords (ws : List Text) : Text := joinWith [' '] ws

/-- The lines, each followed by a line feed. -/
def unlines (ls : List Text) : Text := ls.flatMap (· ++ ['\n'])

/-- The rest of a text after a beginning that it has. -/
def dropStart? : Text → Text → Option Text
  | [], s => some s
  | _ :: _, [] => none
  | c :: p, d :: s => if c = d then dropStart? p s else none

theorem dropStart?_eq_some_iff {p s r : Text} : dropStart? p s = some r ↔ s = p ++ r := by
  induction p generalizing s with
  | nil => simp [dropStart?, eq_comm]
  | cons c p ih =>
    cases s with
    | nil => simp [dropStart?]
    | cons d s =>
      by_cases h : c = d
      · simp [dropStart?, h, ih]
      · simp [dropStart?, h, Ne.symm h]

/-- The ends of a text, longest first. -/
def suffixes : Text → List Text
  | [] => [[]]
  | c :: s => (c :: s) :: suffixes s

/-- One text occurs inside another. -/
def occursIn (part : Text) : Text → Bool
  | [] => part.isEmpty
  | c :: s => part.isPrefixOf (c :: s) || occursIn part s

/-- Every occurrence of one character replaced by another. -/
def replaceChar (old new : Char) (s : Text) : Text := s.map fun c => if c == old then new else c

/-- The decimal numeral of a natural number. -/
def ofNat (n : Nat) : Text := (Nat.toDigits 10 n)

/-- The decimal numeral of an integer. -/
def ofInt : Int → Text
  | .ofNat n => ofNat n
  | .negSucc n => '-' :: ofNat (n + 1)

end Text
end Runbook
