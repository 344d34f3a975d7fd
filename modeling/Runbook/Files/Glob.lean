import Runbook.Files.Surroundings

/-! Patterns for the names of files. A star stands for any characters, a question mark for one, and
brackets for one of a set; two stars by themselves stand for any directories. -/
namespace Runbook

/-- A set of characters, given by closed ranges, or its complement. -/
structure CharSet where
  negated : Bool
  ranges : List (Char × Char)
  deriving DecidableEq, Repr

def CharSet.contains (s : CharSet) (c : Char) : Bool :=
  s.negated != s.ranges.any fun r => r.1 ≤ c && c ≤ r.2

namespace Glob

/-- A piece of a pattern for one name. -/
inductive Piece where
  | any
  | one
  | set (s : CharSet)
  | char (c : Char)
  deriving DecidableEq, Repr

/-- The content of brackets cut at the hyphens that stand between the ends of a range: the first
chunk has at least so many characters, the others have at least two but for the last. -/
def chunks (fuel least : Nat) (s : Text) : List Text :=
  match fuel with
  | 0 => [s]
  | fuel + 1 =>
    let start := s.take least
    let more := (s.drop least).takeWhile (· != '-')
    match (s.drop least).dropWhile (· != '-') with
    | [] => [start ++ more]
    | ['-'] => [start ++ more ++ ['-']]
    | _ :: rest => (start ++ more) :: chunks fuel 2 rest

/-- Ranges that run backwards are empty; the chunks around one grow together. -/
def dropEmptyRanges : List Text → List Text
  | [] => []
  | c :: rest =>
    match dropEmptyRanges rest with
    | [] => [c]
    | d :: ds =>
      if (d.head?.getD '\x00') < (c.getLast?.getD '\x00') then (c.dropLast ++ d.drop 1) :: ds
      else c :: d :: ds

def single (c : Char) : Char × Char := (c, c)

/-- The ranges of a chunk whose first character may be the end of a range, and of those after
it. -/
def rangesFrom (chunk : Text) : List Text → List (Char × Char)
  | [] => chunk.map single
  | d :: ds =>
    chunk.dropLast.map single ++
      (chunk.getLast?.getD '\x00', d.head?.getD '\x00') :: rangesFrom (d.drop 1) ds

/-- The ranges of chunks. A hyphen before which there is nothing stands for itself. -/
def ranges (chunk : Text) (more : List Text) : List (Char × Char) :=
  match chunk, more with
  | [], d :: ds => rangesFrom ('-' :: d) ds
  | chunk, more => rangesFrom chunk more

/-- The set that the content of brackets describes. The sign of negation belongs to the first
chunk, and one that comes to the front only when empty ranges are left out negates as well. -/
def charSet (content : Text) : CharSet :=
  let least := if content.head? == some '!' then 2 else 1
  match dropEmptyRanges (chunks content.length least content) with
  | [] => ⟨false, []⟩
  | ('!' :: c) :: cs => ⟨true, ranges c cs⟩
  | c :: cs => ⟨false, ranges c cs⟩

/-- What belongs to the content of brackets in any case, and the rest: the sign of negation, and a
closing bracket that comes first. -/
def firstInBrackets : Text → Text × Text
  | '!' :: ']' :: s => (['!', ']'], s)
  | '!' :: s => (['!'], s)
  | ']' :: s => ([']'], s)
  | s => ([], s)

theorem length_firstInBrackets_le (s : Text) : (firstInBrackets s).2.length ≤ s.length := by
  unfold firstInBrackets
  split
  · exact Nat.le_add_right _ 2
  · exact Nat.le_succ _
  · exact Nat.le_succ _
  · exact Nat.le_refl _

/-- The content of brackets after the opening one, and what follows the closing one. -/
def brackets? (s : Text) : Option (Text × Text) :=
  match (firstInBrackets s).2.dropWhile (· != ']') with
  | [] => none
  | _ :: rest =>
    some ((firstInBrackets s).1 ++ (firstInBrackets s).2.takeWhile (· != ']'), rest)

theorem length_of_brackets? {s content rest : Text} (h : brackets? s = some (content, rest)) :
    rest.length < s.length := by
  have hle := ((firstInBrackets s).2.dropWhile_suffix (· != ']')).length_le
  have hfirst := length_firstInBrackets_le s
  unfold brackets? at h
  split at h
  · simp at h
  · next hr =>
    cases h
    rw [hr, List.length_cons] at hle
    omega

/-- The pieces of a pattern for one name. A bracket that is not closed stands for itself. -/
def pieces (s : Text) : List Piece :=
  match s with
  | [] => []
  | '*' :: r => .any :: pieces r
  | '?' :: r => .one :: pieces r
  | '[' :: r =>
    match h : brackets? r with
    | some (content, rest) =>
      have := length_of_brackets? h
      .set (charSet content) :: pieces rest
    | none => .char '[' :: pieces r
  | c :: r => .char c :: pieces r
termination_by s.length

/-- A character fits a piece that stands for one. -/
def Piece.accepts : Piece → Char → Bool
  | any, _ => true
  | one, _ => true
  | set s, c => s.contains c
  | char d, c => c == d

/-- What can be left of a name after a piece, given what can be left before it. Both are ends of the
name, the longest one first. -/
def Piece.rests (p : Piece) (before : List Text) : List Text :=
  match p with
  | any => (before.head?.map Text.suffixes).getD []
  | p => before.filterMap fun
    | c :: r => if p.accepts c then some r else none
    | [] => none

/-- A name fits the pieces of a pattern. -/
def fits (ps : List Piece) (name : Text) : Bool :=
  (ps.foldl (fun before p => p.rests before) [name]).any List.isEmpty

/-- A part of a pattern for paths. -/
inductive Part where
  | name (s : Text)
  | wild (ps : List Piece)
  /-- Any number of directories. -/
  | deep
  /-- Nothing more; what comes before is a directory. -/
  | stop
  deriving DecidableEq, Repr

def hasWildcard (s : Text) : Bool := s.any fun c => c == '*' || c == '?' || c == '['

def doubleStar : Text := ['*', '*']

def part (s : Text) : Except Failure Part :=
  if s = doubleStar then .ok .deep
  else if Text.occursIn doubleStar s then .error .looseStars
  else .ok (if hasWildcard s then .wild (pieces s) else .name s)

/-- The parts of a pattern, which has to be relative. -/
def parse (s : Text) : Except Failure (List Part) :=
  let path := Path.ofText s
  if path.isAbsolute then .error .absolutePattern
  else (path.parts.mapM part).map (· ++ if s.getLast? = some '/' then [.stop] else [])

/-- Something fits the parts of a pattern from a path on. Whatever parts follow, they can be looked
for in a directory only. -/
def found (s : Surroundings) (p : Path) : List Part → Except Failure Bool
  | [] => .ok true
  | .stop :: _ => .ok true
  | .name part :: ps => do
    let next := p.child part
    if ← if ps.isEmpty then s.has next else s.isDirectory next then found s next ps else return false
  | .wild pattern :: ps => do
    (← s.entries p).anyM fun e =>
      if (ps.isEmpty || e.2.isDirectory) && fits pattern e.1 then found s (p.child e.1) ps
      else return false
  | .deep :: ps => do
    (← s.directories p).anyM fun below => found s { p with parts := p.parts ++ below } ps

end Glob
end Runbook
