import Runbook.Execution.Deed
import Runbook.Selection.Basic
import Runbook.Text.Digits

/-! The programs that let the user choose. Both are fed one line for each candidate and answer with
positions in the list, so that titles may repeat. -/
namespace Runbook.Backend

/-- The backend where none is wanted: fzf needs a terminal. -/
def standard (interactive : Bool) : Backend := if interactive then fzf else rofi

/-- The backend with a name, or the standard one. -/
def choose (name : Text) (interactive : Bool) : Except Failure Backend :=
  if name.isEmpty then .ok (standard interactive)
  else if name = fzf.name then .ok fzf
  else if name = rofi.name then .ok rofi
  else .error (.unknownBackend name)

/-- An option that is given or not. -/
def flag (key : Text) (given : Bool) : List Text := if given then [key] else []

/-- An option with a value. -/
def valued (key : Text) : Option Text → List Text
  | some v => [key, v]
  | none => []

/-- The start of a backend's command line. Of the lines that it gets, fzf shows what follows the
first tab. -/
def program : Backend → List Text
  | fzf => ["fzf", "--delimiter", "\t", "--with-nth", "2..", "--no-sort"]
  | rofi => ["rofi", "-dmenu", "-format", "i"]

/-- The command line of a backend. -/
def argv (o : SelectionOptions) : Backend → List Text
  | fzf =>
    program fzf ++ flag "--exact" (o.exact == some true) ++
      flag "-i" (o.ignoreCase == some true) ++ flag "+i" (o.ignoreCase == some false) ++
      flag "--multi" o.multiple ++ valued "--query" o.query ++
      valued "--prompt" ((o.prompt.filter (!·.isEmpty)).map (· ++ "> ")) ++
      valued "--header" o.header
  | rofi =>
    program rofi ++ flag "-i" (o.ignoreCase == some true) ++
      valued "-matching" (o.exact.map fun exact => if exact then "normal" else "fuzzy") ++
      flag "-multi-select" o.multiple ++ valued "-filter" o.query ++ valued "-p" o.prompt ++
      valued "-mesg" o.header

/-- A title without the characters that would cut it. -/
def oneLine (s : Text) : Text :=
  s.map fun c => if c == '\r' || c == '\n' || c == '\t' then ' ' else c

/-- The lines for some candidates, from a position on. -/
def feedFrom (b : Backend) (position : Nat) : List Candidate → Text
  | [] => []
  | c :: cs =>
    let number : Text := match b with
      | fzf => Text.ofNat position ++ ['\t']
      | rofi => []
    number ++ oneLine c.title ++ '\n' :: feedFrom b (position + 1) cs

def feed (b : Backend) (cs : List Candidate) : Text := feedFrom b 0 cs

/-- The marks of positions in what a backend prints. -/
def marks (output : Text) : Backend → List Text
  | fzf => (Text.lines output).map (·.takeWhile (· != '\t'))
  | rofi => Text.words output

/-- The position that a mark tells, if it is one. Digits without a decimal value cannot be read. -/
def position? (mark : Text) : Except Failure (Option Nat) :=
  if mark.isEmpty || !mark.all Text.isDigit then .ok none
  else
    let digits := mark.takeWhile Text.isDecimal
    match Text.readNumeral digits with
    | .error count => .error (.longNumeral count)
    | .ok n => if digits = mark then .ok (some n) else .error (.notInteger 10 mark)

/-- The values of the candidates that are marked. Other marks are passed over. -/
def valuesAt (cs : List Candidate) : List Text → Except Failure (List Text)
  | [] => .ok []
  | m :: ms =>
    match position? m with
    | .error e => .error e
    | .ok n =>
      match valuesAt cs ms with
      | .error e => .error e
      | .ok values => .ok (((n.bind (cs[·]?)).map Candidate.value).toList ++ values)

/-- The exit codes that mean that nothing fits, and that the user turned away. -/
def codes : Backend → Option Int × Int
  | fzf => (some 1, 130)
  | rofi => (none, 1)

/-- What a backend's answer means. -/
def read (b : Backend) (cs : List Candidate) (outcome : Option Outcome) :
    Except Failure Selection :=
  match outcome with
  | none => .error (.selectorMissing b)
  | some r =>
    if b.codes.1 = some r.code then .ok .empty
    else if b.codes.2 = r.code then .ok .cancelled
    else if r.code ≠ 0 then .error (.selectorFailed b r.code)
    else (valuesAt cs (b.marks r.output)).map Selection.ofValues

/-- Lets the user choose. The header, the query and the prompt are arguments of the backend; with a
null character in one of them there is no process and no outcome of any kind, and such options are
outside the model. -/
def select (b : Backend) (o : SelectionOptions) (cs : List Candidate) : Dialogue Deed Selection :=
  .ask (.run { argv := b.argv o, input := some (b.feed cs) }) fun outcome =>
    .ofExcept (b.read cs outcome)

end Runbook.Backend
