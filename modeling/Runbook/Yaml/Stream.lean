import Runbook.Yaml.Directive
import Runbook.Yaml.Plain

/-! From text to tokens, which are found only when they are asked for. Two things are found out late:
that a block collection has ended, by the indentation of what follows, and that something was a key,
by the colon after it. So a token that may be a key is held back until that is settled. -/
namespace Runbook.Yaml

/-- A place where a token began that a colon may turn into a key. -/
structure Candidate where
  /-- How many tokens of the stream come before it. -/
  number : Nat
  /-- The colon has to come: nothing but a key can stand here. -/
  required : Bool
  position : Nat
  line : Nat
  column : Nat

/-- A bracket that is open: of a sequence or of a mapping. -/
inductive Bracket where
  | sequence
  | mapping
  deriving DecidableEq, Repr

structure Stream where
  /-- The version that was asked for last. -/
  version : Version := {}
  /-- The length of the text. -/
  size : Nat := 0
  rest : Text := []
  position : Nat := 0
  line : Nat := 0
  column : Nat := 0
  /-- The tokens that were found and not taken. -/
  queue : List Token := []
  /-- How many tokens were taken. -/
  taken : Nat := 0
  /-- The open brackets, innermost first. -/
  brackets : List Bracket := []
  /-- The indentation of the innermost block collection, and of those around it. -/
  indent : Int := -1
  outer : List Int := []
  keyAllowed : Bool := true
  /-- The candidate of each open bracket, innermost first, and the one outside them. -/
  candidates : List (Option Candidate) := [none]
  /-- The end of the text has been reached. -/
  ended : Bool := false

/-- Takes a step until one says that it was the last, at most so many times. -/
def repeatUntil {m : Type → Type} [Monad m] (step : m Bool) : Nat → m Unit
  | 0 => pure ()
  | fuel + 1 => do if ← step then pure () else repeatUntil step fuel

namespace Stream

/-- A part of the work on a stream. A failure leaves the stream where it came to. -/
abbrev Reading := EStateM Problem Stream

/-- Goes on to another state, if there is one. -/
def change? (f : Stream → Option Stream) : Reading Unit := do
  match f (← get) with
  | some s => set s
  | none => throw .malformed

def ofExcept {α : Type} : Except Problem α → Reading α
  | .ok a => pure a
  | .error e => throw e

def ofOption {α : Type} : Option α → Reading α
  | some a => pure a
  | none => throw .malformed

def inFlow (s : Stream) : Bool := !s.brackets.isEmpty

/-- Moves over some characters. -/
def skip (n : Nat) (s : Stream) : Stream :=
  let passed := s.rest.take n
  { s with
    rest := s.rest.drop n
    position := s.position + passed.length
    line := s.line + passed.count '\n'
    column := columnAfter s.column passed }

/-- Moves to a later place, given by the text that is left there. -/
def skipTo (rest : Text) (s : Stream) : Stream := s.skip (s.rest.length - rest.length)

def emit (t : Token) (s : Stream) : Stream := { s with queue := s.queue ++ [t] }

/-- A token of so many characters. -/
def mark (t : Token) (size : Nat) (s : Stream) : Stream := (s.emit t).skip size

/-- Moves over white space and remarks to the next token. Outside brackets a new line allows a
key. -/
def toToken : Nat → Stream → Stream
  | 0, s => s
  | fuel + 1, s =>
    match s.rest with
    | [] => s
    | c :: r =>
      let isBlank (c : Char) : Bool := c == ' ' || c == '\t' && s.inFlow
      if isBlank c then toToken fuel (s.skip (s.rest.takeWhile isBlank).length)
      else if c == '\ufeff' && s.position == 0 then toToken fuel (s.skip 1)
      else if c == '#' then toToken fuel (s.skipTo (r.dropWhile (!isBreak ·)))
      else if isBreak c then
        toToken fuel { s.skip 1 with keyAllowed := s.keyAllowed || !s.inFlow }
      else s

/-- Gives up a candidate, which is a fault if it had to become a key. -/
def giveUp : Option Candidate → Option (Option Candidate)
  | some c => if c.required then none else some none
  | none => some none

/-- Gives up the candidate of the innermost bracket. -/
def dropCandidate? (s : Stream) : Option Stream :=
  match s.candidates with
  | c :: cs => (giveUp c).map fun c => { s with candidates := c :: cs }
  | [] => some s

/-- Candidates cannot wait past the end of their line, nor for more than 1024 characters. -/
def dropStale? (s : Stream) : Option Stream :=
  (s.candidates.mapM fun c? : Option Candidate =>
    match c? with
    | some c =>
      if c.line ≠ s.line ∨ 1024 < s.position - c.position then giveUp (some c) else some (some c)
    | none => some none).map fun cs => { s with candidates := cs }

/-- Ends the block collections that are indented more than a column. -/
def unwind (column : Int) (s : Stream) : Stream :=
  if s.inFlow then s else go s.outer s
where
  go : List Int → Stream → Stream
    | [], s => s
    | i :: is, s =>
      if column < s.indent then go is { s.emit .blockEnd with indent := i, outer := is } else s

/-- Notes that a key may begin here. -/
def addCandidate? (s : Stream) : Option Stream :=
  if s.keyAllowed then
    let required := !s.inFlow && s.indent == s.column
    let c : Candidate := ⟨s.taken + s.queue.length, required, s.position, s.line, s.column⟩
    s.dropCandidate?.map fun s => { s with candidates := some c :: s.candidates.drop 1 }
  else some s

/-- Begins a block collection at a column if it is indented more than the one around it. -/
def addIndent? (column : Nat) (s : Stream) : Option Stream :=
  if s.indent < column then some { s with indent := column, outer := s.indent :: s.outer } else none

/-- Begins a block collection here if it is indented more than the one around it. -/
def beginBlock (start : Token) (s : Stream) : Stream :=
  ((s.addIndent? s.column).map (emit start)).getD s

/-- Ends the directives or the document: no block and no candidate stays open. -/
def endBlocks? (s : Stream) : Option Stream :=
  (s.unwind (-1)).dropCandidate?.map fun s => { s with keyAllowed := false }

/-- A plain scalar may begin here. -/
def startsPlain (s : Stream) : Bool :=
  match s.rest with
  | [] => false
  | c :: r =>
    if !isGap c && !("-?:,[]\x7b\x7d#&*!|>'\"%@`".toList.contains c) then true
    else if c == '-' then !atGap r
    else if c == ':' && s.inFlow && !s.version.isFirst then !(r.head?.any Text.isSpaceOrTab)
    else !atGap r && !s.inFlow && (c == '?' || c == ':')

/-- A colon is the mark of a value: before a gap, and inside brackets of a mapping wherever no value
was just announced. In the first version it is one anywhere inside brackets. -/
def atValue (s : Stream) : Bool :=
  match s.rest with
  | ':' :: r =>
    match s.brackets with
    | [] => atGap r
    | .sequence :: _ => s.version.isFirst || atGap r
    | .mapping :: _ => s.version.isFirst || s.queue.getLast? != some .value || atGap r
  | _ => false

/-- The value after a key: the key's own token, and the start of its mapping, come before it. -/
def value? (s : Stream) : Option Stream :=
  match s.candidates with
  | some c :: cs =>
    let place := c.number - s.taken
    let insert (t : Token) (s : Stream) : Stream := { s with queue := s.queue.insertIdx place t }
    let keyed := insert .key { s with candidates := none :: cs, keyAllowed := false }
    let placed :=
      if s.inFlow then keyed
      else ((keyed.addIndent? c.column).map (insert .mappingStart)).getD keyed
    some (placed.mark .value 1)
  | _ =>
    if s.inFlow then ({ s with keyAllowed := false }).dropCandidate?.map (mark .value 1)
    else if !s.keyAllowed then none
    else (s.beginBlock .mappingStart).dropCandidate?.map (mark .value 1)

/-- An item of a block sequence, or a key that is announced. -/
def indicator? (start token : Token) (s : Stream) : Option Stream :=
  if s.inFlow then s.dropCandidate?.map (mark token 1)
  else if !s.keyAllowed then none
  else (s.beginBlock start).dropCandidate?.map (mark token 1)

def openBracket? (b : Bracket) (t : Token) (s : Stream) : Option Stream :=
  s.addCandidate?.map fun s =>
    mark t 1 { s with
      brackets := b :: s.brackets, candidates := none :: s.candidates, keyAllowed := true }

def closeBracket? (t : Token) (s : Stream) : Option Stream :=
  s.dropCandidate?.map fun s =>
    let s := match s.brackets with
      | _ :: bs => { s with brackets := bs, candidates := s.candidates.drop 1 }
      | [] => s
    mark t 1 { s with keyAllowed := false }

/-- A token that may be a key, found together with what follows it. -/
def content (found : Stream → Except Problem (Token × Text)) : Reading Unit := do
  change? addCandidate?
  let (t, rest) ← ofExcept (found (← get))
  modify fun s => (({ s with keyAllowed := false }).emit t).skipTo rest

/-- Something that may be missing, as the content of a token. -/
def named {α : Type} (token : α → Token) (found : Option (α × Text)) :
    Except Problem (Token × Text) :=
  found.elim (.error .malformed) fun (a, rest) => .ok (token a, rest)

/-- A directive after its percent sign. The version that it asks for is in force at once. -/
def readDirective (r : Text) : Reading Unit := do
  change? endBlocks?
  let (d, rest) ← ofExcept (directive (← get).version r)
  if let .version v := d then modify ({ · with version := v })
  let after ← ofOption (remark? rest)
  modify fun s => (s.emit (.directive d)).skipTo (after.drop 1)

/-- A block scalar after its mark. -/
def readBlock (folded : Bool) (r : Text) : Reading Unit := do
  change? dropCandidate?
  let s ← get
  let (t, rest) ← ofOption (block? folded s.indent (s.column + 1) r)
  set ((({ s with keyAllowed := true }).emit (.scalar t false)).skipTo rest)

/-- A plain scalar. A key may follow it on a new line. -/
def readPlain : Reading Unit := do
  change? addCandidate?
  modify fun s =>
    let place : PlainPlace := ⟨s.version, s.inFlow, s.indent + 1⟩
    let (t, rest, crossed) := plain place s.column (s.size + 1) s.rest
    (({ s with keyAllowed := crossed }).emit (.scalar t true)).skipTo rest

/-- The end of the text. -/
def finish : Reading Unit := do
  change? endBlocks?
  modify fun s => { s.emit .streamEnd with ended := true, candidates := [none] }

/-- The token that begins with a character, which is the next one. -/
def token (c : Char) (r : Text) : Reading Unit := do
  let s ← get
  if c == '%' && s.column == 0 then readDirective r
  else if s.column == 0 && atSeparator s.rest then
    change? endBlocks?
    modify (mark (if c == '-' then .documentStart else .documentEnd) 3)
  else if c == '[' then change? (openBracket? .sequence .flowSequenceStart)
  else if c == '\x7b' then change? (openBracket? .mapping .flowMappingStart)
  else if c == ']' then change? (closeBracket? .flowSequenceEnd)
  else if c == '\x7d' then change? (closeBracket? .flowMappingEnd)
  else if c == ',' then
    change? dropCandidate?
    modify fun s => mark .flowEntry 1 { s with keyAllowed := true }
  else if c == '-' && atGap r then
    change? (indicator? .sequenceStart .entry)
    modify ({ · with keyAllowed := true })
  else if c == '?' && (s.inFlow || atGap r) then
    change? (indicator? .mappingStart .key)
    modify ({ · with keyAllowed := !s.inFlow })
  else if s.atValue then change? value?
  else if c == '*' then content fun _ => named .reference (anchorName? r)
  else if c == '&' then content fun _ => named .anchor (anchorName? r)
  else if c == '!' then content fun s => named .tag (tag? s.version r)
  else if (c == '|' || c == '>') && !s.inFlow then readBlock (c == '>') r
  else if c == '\'' then content fun _ => (single r).map fun (t, rest) => (.scalar t false, rest)
  else if c == '"' then content fun _ => (double r).map fun (t, rest) => (.scalar t false, rest)
  else if s.startsPlain then readPlain
  else throw .malformed

/-- Finds one more token, and the ends of the block collections before it. -/
def fetch : Reading Unit := do
  modify fun s => s.toToken (s.size + 1)
  change? dropStale?
  modify fun s => s.unwind s.column
  match (← get).rest with
  | [] => finish
  | c :: r => token c r

/-- The number of the first token that may still turn out to be a key. -/
def nearest? (s : Stream) : Option Nat := (s.candidates.filterMap (·.map Candidate.number)).min?

/-- What the first token is has been settled. Otherwise one more token is found. -/
def advance : Reading Bool := do
  let s ← get
  if s.ended then return true
  else if s.queue.isEmpty then
    fetch
    return false
  else
    change? dropStale?
    if (← get).nearest? == some s.taken then
      fetch
      return false
    else return true

def settle : Reading Unit := do
  repeatUntil advance ((← get).size + 3)

/-- The next token. -/
def peek : Reading Token := do
  settle
  return (← get).queue.headD .streamEnd

/-- Takes the next token. -/
def take : Reading Token := do
  let t ← peek
  modify fun s => { s with queue := s.queue.drop 1, taken := s.taken + 1 }
  return t

/-- A stream at the beginning of a text. The version stays as it was asked for before. -/
def restart (s : Stream) (text : Text) : Stream :=
  { version := s.version, size := text.length, rest := text }

end Stream
end Runbook.Yaml
