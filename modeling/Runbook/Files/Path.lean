import Runbook.Text.Utf8

/-! Paths: how they are written, joined and made absolute. -/
namespace Runbook

/-- A path is relative, or starts with one slash or with exactly two. Empty parts and single dots
are left out. -/
structure Path where
  slashes : Nat := 0
  parts : List Text := []
  deriving DecidableEq, Repr

/-- A place in the tree of all files: the names from the root down. -/
abbrev Place := List Text

namespace Path

def parent : Text := ['.', '.']

def isPart (s : Text) : Bool := !s.isEmpty && s != ['.']

/-- The path with a written form; three slashes or more at its start count as one. -/
def ofText (s : Text) : Path :=
  let count := (s.takeWhile (· == '/')).length
  ⟨if count ≤ 2 then count else 1, (Text.splitAll (· == '/') s).filter isPart⟩

def isAbsolute (p : Path) : Bool := p.slashes != 0

/-- The written form. The relative path without parts is a dot. -/
def toText (p : Path) : Text :=
  if p.slashes = 0 && p.parts.isEmpty then ['.']
  else List.replicate p.slashes '/' ++ Text.joinWith ['/'] p.parts

/-- The second path as seen from the first. -/
def join (p q : Path) : Path := if q.isAbsolute then q else { p with parts := p.parts ++ q.parts }

/-- A path followed by a name or another written path. -/
def child (p : Path) (s : Text) : Path := p.join (ofText s)

/-- The last part, if there is any. -/
def name (p : Path) : Text := p.parts.getLast?.getD []

/-- The path of a place. -/
def ofPlace (place : Place) : Path := ⟨1, place⟩

/-- The longest name of a file, in bytes. -/
def longestName : Nat := 255

def isLongName (name : Text) : Bool := longestName < Text.byteCount name

/-- The longest written path, in bytes. -/
def longest : Nat := 4095

/-- A written path that is too long. -/
def isLongText (s : Text) : Bool := longest < Text.byteCount s

def isLong (p : Path) : Bool := isLongText p.toText

/-- There is a null character in the path. -/
def hasNull (p : Path) : Bool := p.parts.any (·.contains '\x00')

/-- One part further; the parent of the root is the root. -/
def step (place : Place) (part : Text) : Place :=
  if part = parent then place.dropLast else place ++ [part]

/-- The place of a path as seen from a directory, by its parts alone. -/
def place (directory : Place) (p : Path) : Place :=
  p.parts.foldl step (if p.isAbsolute then [] else directory)

/-- A place and the places above it, nearest first. -/
def upwards (place : Place) : List Place :=
  (List.range (place.length + 1)).map fun n => place.take (place.length - n)

end Path
end Runbook
