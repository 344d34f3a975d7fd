import Runbook.Failure

/-! Command lines as the words of a shell: quoting words so that they are read back, and cutting a
line into words. -/
namespace Runbook.Shell

/-- The characters that need no quoting. -/
def isSafe (c : Char) : Bool := c.isAlphanum || "_@%+=:,./-".toList.contains c

/-- Single quotes around a text; those inside it stand in double quotes. -/
def inQuotes (s : Text) : Text :=
  '\'' :: s.flatMap (fun c => if c == '\'' then "'\"'\"'".toList else [c]) ++ ['\'']

/-- A word as it has to be written. -/
def quote (s : Text) : Text := if !s.isEmpty && s.all isSafe then s else inQuotes s

/-- The words of a command line as one text. -/
def join (ws : List Text) : Text := Text.unwords (ws.map quote)

def isBlank (c : Char) : Bool := c == ' ' || c == '\t' || c == '\r' || c == '\n'

/-- How the next character is read. -/
inductive Mode where
  /-- Between words. -/
  | between
  | word
  | single
  | double
  deriving DecidableEq, Repr

/-- One more character at the front of the first word. -/
def extend (c : Char) : List Text → List Text
  | [] => [[c]]
  | w :: ws => (c :: w) :: ws

/-- The words of a line. In every mode but the one between words the first of them is the rest of
the word that was begun. -/
def splitFrom : Mode → Text → Except Failure (List Text)
  | .between, [] => .ok []
  | .word, [] => .ok [[]]
  | _, [] => .error .unclosedQuotation
  | .single, c :: s =>
    if c = '\'' then splitFrom .word s else (splitFrom .single s).map (extend c)
  | .double, ['\\'] => .error .danglingEscape
  | .double, '\\' :: c :: s =>
    if c = '\\' || c = '"' then (splitFrom .double s).map (extend c)
    else (splitFrom .double s).map fun ws => extend '\\' (extend c ws)
  | .double, c :: s =>
    if c = '"' then splitFrom .word s else (splitFrom .double s).map (extend c)
  | _, ['\\'] => .error .danglingEscape
  | _, '\\' :: c :: s => (splitFrom .word s).map (extend c)
  | mode, c :: s =>
    if isBlank c then
      (splitFrom .between s).map fun ws => if mode = .word then [] :: ws else ws
    else if c = '\'' then splitFrom .single s
    else if c = '"' then splitFrom .double s
    else (splitFrom .word s).map (extend c)

/-- The words of a command line. -/
def split (s : Text) : Except Failure (List Text) := splitFrom .between s

end Runbook.Shell
