import Runbook.Failure

/-! Computations that ask their surroundings. A dialogue is the tree of all its courses: each
question branches over the answers that it can get. -/
namespace Runbook

/-- A kind of questions, with the type of answers to each. -/
class Asking (Q : Type) where
  Answer : Q → Type

/-- A computation that ends with a result or a failure after some questions. -/
inductive Dialogue (Q : Type) [Asking Q] (α : Type) where
  | done (result : α)
  | fail (cause : Failure)
  | ask (question : Q) (next : Asking.Answer question → Dialogue Q α)

namespace Dialogue

/-- One dialogue after another. -/
def bind {Q α β : Type} [Asking Q] (d : Dialogue Q α) (f : α → Dialogue Q β) : Dialogue Q β :=
  match d with
  | done a => f a
  | fail e => fail e
  | ask q next => ask q fun a => (next a).bind f

instance {Q : Type} [Asking Q] : Monad (Dialogue Q) where
  pure := done
  bind := bind

/-- A single question. -/
def query {Q : Type} [Asking Q] (q : Q) : Dialogue Q (Asking.Answer q) := ask q done

def ofExcept {Q α : Type} [Asking Q] : Except Failure α → Dialogue Q α
  | .ok a => done a
  | .error e => fail e

/-- The end that a dialogue comes to when something answers. -/
def run {Q α : Type} [Asking Q] {m : Type → Type} [Monad m]
    (reply : (q : Q) → m (Asking.Answer q)) : Dialogue Q α → m (Except Failure α)
  | done a => pure (.ok a)
  | fail e => pure (.error e)
  | ask q next => do run reply (next (← reply q))

/-- A dialogue whose failure is a result. -/
def attempt {Q α : Type} [Asking Q] : Dialogue Q α → Dialogue Q (Except Failure α)
  | done a => done (.ok a)
  | fail e => done (.error e)
  | ask q next => ask q fun a => (next a).attempt

/-- A dialogue that goes on after a failure. -/
def rescue {Q α : Type} [Asking Q] (d : Dialogue Q α) (handle : Failure → Dialogue Q α) :
    Dialogue Q α :=
  d.attempt.bind fun
    | .ok a => done a
    | .error e => handle e

/-- The same dialogue with its questions put in other words. -/
def rephrase {Q R α : Type} [Asking Q] [Asking R]
    (put : (q : Q) → Dialogue R (Asking.Answer q)) : Dialogue Q α → Dialogue R α
  | done a => done a
  | fail e => fail e
  | ask q next => (put q).bind fun a => (next a).rephrase put

end Dialogue
end Runbook
