import Runbook.Text.Basic

/-! What can be wrong with data that is read as settings. -/
namespace Runbook

inductive Reason where
  | missing
  | notText
  /-- Bytes that are no text. -/
  | unreadableText
  | notList
  | notBoolean
  | unknownBoolean
  | notOffered
  | notMapping
  | unknownKey
  | keyNotText
  deriving DecidableEq, Repr

/-- A reason with the path to the place: keys, and positions in lists counted from zero. -/
structure Issue where
  path : List Text
  reason : Reason
  deriving DecidableEq, Repr

/-- A value, or all that is wrong. -/
inductive Checked (α : Type) where
  | good (value : α)
  | bad (issues : List Issue)
  deriving DecidableEq, Repr

namespace Checked

def map (f : α → β) : Checked α → Checked β
  | good x => good (f x)
  | bad issues => bad issues

/-- The issues of both sides, in order. -/
def and (f : Checked (α → β)) (x : Checked α) : Checked β :=
  match f, x with
  | good f, good x => good (f x)
  | good _, bad issues => bad issues
  | bad issues, good _ => bad issues
  | bad issues, bad more => bad (issues ++ more)

instance : Applicative Checked where
  pure := good
  map := map
  seq f x := and f (x ())

def fail (reason : Reason) : Checked α := bad [⟨[], reason⟩]

def issues : Checked α → List Issue
  | good _ => []
  | bad issues => issues

/-- The same below a key. -/
def below (key : Text) : Checked α → Checked α
  | good x => good x
  | bad issues => bad (issues.map fun i => { i with path := key :: i.path })

/-- A value together with more issues after its own. -/
def alsoFail (x : Checked α) (more : List Issue) : Checked α :=
  if more.isEmpty then x else bad (x.issues ++ more)

end Checked
end Runbook
