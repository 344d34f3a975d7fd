import Mathlib.Tactic.Common
import Runbook.Proofs.Resolution.Dialogue
import Runbook.Session.Basic

/-! How the program ends after a failure. Only the kind of the failure counts for the exit status.
The kinds are told apart here cause by cause, and the status that is in use agrees with them. -/
namespace Runbook

namespace Failure

/-- The kinds of failures: nothing was chosen, a choice was given up, something else that the user
can mend, a value that is not as it should be, and all that nobody provided for. -/
inductive Kind where
  | empty
  | cancelled
  | mistake
  | value
  | crash
  deriving DecidableEq, Repr

/-- The kind of a problem in a YAML document that is well formed. -/
def ofYaml : Yaml.Problem → Kind
  | .noCharacter sizable => if sizable then .value else .crash
  | .number _ => .value
  | .manyExponents => .value
  | .date fault => if fault = .endOfTime then .crash else .value
  | .malformed => .crash
  | .tooDeep => .crash
  | .refusedVersion => .crash
  | .untypedVersion => .crash
  | .noNumber => .crash
  | .greatSixties => .crash
  | .notBoolean => .crash
  | .repeatedKey => .crash
  | .fluidKey => .crash

def kind : Failure → Kind
  | emptySelection _ | noCommands _ | noProjects => .empty
  | cancelledSelection _ => .cancelled
  | placeholder .. | catalog .. | entry .. | configMissing _ => .mistake
  | unknownReference _ | cyclicReference _ | invalidOutput .. | commandFailed .. => .mistake
  | selectorMissing _ | selectorFailed .. => .mistake
  | unsupportedLanguage .. | executableMissing _ | editorMissing _ | noLocation _ => .mistake
  | settings _ | json _ | longNumeral _ | undecodable _ => .value
  | unknownBackend _ | notInteger .. | unknownLevel _ | looseStars => .value
  | unclosedQuotation | danglingEscape | nulByte => .value
  | yaml problem => ofYaml problem
  | tooDeep | endlessReference | unofferedChoice => .crash
  | editorUnnamed | nameTooLong | fileMissing | subcommandMissing | absolutePattern => .crash

/-- The end that the program comes to: an exit status, or the failure itself where it crashes. -/
def outcome (e : Failure) : Except Failure Int :=
  match e.kind with
  | .empty => .ok 1
  | .cancelled => .ok 1
  | .mistake => .ok 2
  | .value => .ok 2
  | .crash => .error e

/-- What the user is told before: the message in a line, unless the program crashes. -/
def reports (e : Failure) : List (Exchanged Request) :=
  if e.kind = .crash then [] else [⟨.report (Text.trimEnd e.message ++ ['\n']), ()⟩]

/-- The exit status that is in use is that of the kind. -/
theorem exitStatus?_eq (e : Failure) :
    e.exitStatus? = match e.kind with
      | .empty => some 1
      | .cancelled => some 1
      | .mistake => some 2
      | .value => some 2
      | .crash => none := by
  cases e with
  | yaml problem =>
    cases problem with
    | noCharacter sizable => cases sizable <;> rfl
    | date fault => cases fault <;> rfl
    | _ => rfl
  | _ => rfl

end Failure

/-- What is done about a failure, whoever answers. -/
lemma run_told (e : Failure) (answering : Answering Request) (past : List (Exchanged Request)) :
    ((told e).run answering.reply).run past = (e.outcome, past ++ e.reports) := by
  unfold told Failure.outcome Failure.reports
  rw [e.exitStatus?_eq]
  cases e.kind with
  | crash => exact congrArg (Prod.mk _) (List.append_nil past).symm
  | _ => rfl

end Runbook
