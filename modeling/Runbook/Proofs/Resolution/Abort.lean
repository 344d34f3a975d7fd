import Mathlib.Tactic.Common
import Runbook.Proofs.Resolution.Nesting
import Runbook.Proofs.Resolution.PostOrder

/-! The end of a resolution at its first failure. To tell what an answer amounts to one has to know
for which placeholder it is given, so the questions are told with their placeholders here; without
these they are the questions of the resolution that runs. -/
namespace Runbook.Resolution

/-- A question with the placeholder whose values it is about. -/
structure Inquiry where
  placeholder : Placeholder
  question : Question

instance : Asking Inquiry where
  Answer i := Asking.Answer i.question

/-- The question alone. -/
def plainly (i : Inquiry) : Course (Asking.Answer i) := Dialogue.query i.question

/-- The questions of a course, all for one placeholder. -/
def askedFor {α : Type} (p : Placeholder) (d : Course α) : Dialogue Inquiry α :=
  d.rephrase fun q => Dialogue.query (⟨p, q⟩ : Inquiry)

/-- The values of a placeholder, when it is known how commands are resolved. -/
def Context.valuesFor (ctx : Context) (resolve : Command → Dialogue Inquiry Inputs)
    (wantedBy : Text) (p : Placeholder) : Dialogue Inquiry (List Text) :=
  match ctx.index.get? p.name with
  | none => .fail (.unknownReference p.name)
  | some d =>
    (resolve d).bind fun inputs => askedFor p ((output d inputs wantedBy).bind (ctx.choose p))

/-- The inputs of a command, down to a depth. -/
def Context.walkFor (ctx : Context) : Nat → Command → Dialogue Inquiry Inputs
  | 0, _ => .fail .endlessReference
  | depth + 1, c => gather (ctx.valuesFor (ctx.walkFor depth) c.name) {} c.placeholders

/-- The inputs of a command whose references are checked before. -/
def Context.inquire (ctx : Context) (top : Command) : Dialogue Inquiry Inputs :=
  match check ctx.index [top.name] top with
  | .error e => .fail e
  | .ok () => ctx.walkFor ctx.depth top

lemma askedFor_plainly {α : Type} (p : Placeholder) (d : Course α) :
    (askedFor p d).rephrase plainly = d :=
  Dialogue.rephrase_rephrase (fun _ => rfl) d

lemma walkFor_plainly (ctx : Context) (depth : Nat) (c : Command) :
    (ctx.walkFor depth c).rephrase plainly = ctx.walk depth c := by
  induction depth generalizing c with
  | zero => rfl
  | succ depth ih =>
    rw [Context.walkFor, Context.walk]
    apply gather_rephrase
    intro p
    rw [Context.valuesFor, Context.valuesBy]
    cases ctx.index.get? p.name with
    | none => rfl
    | some d =>
      change ((ctx.walkFor depth d).bind _).rephrase plainly = _
      rw [Dialogue.rephrase_bind, ih]
      congr 1
      funext inputs
      exact askedFor_plainly p _

/-- Without the placeholders, it is the resolution that runs. -/
theorem inquire_plainly (ctx : Context) (top : Command) :
    (ctx.inquire top).rephrase plainly = ctx.resolve [] top := by
  unfold Context.inquire
  cases h : check ctx.index [top.name] top with
  | error e =>
    rw [Context.resolve_refused h]
    rfl
  | ok u =>
    rw [Context.resolve_accepted h]
    exact walkFor_plainly ctx ctx.depth top

end Resolution

/-- The question and its answer, without the placeholder. -/
def Exchanged.plain (x : Exchanged Resolution.Inquiry) : Exchanged Resolution.Question :=
  ⟨x.question.question, x.answer⟩

namespace Resolution

/-- Every course is one of questions with their placeholders. -/
lemma ends_of_plain {α : Type} {d : Dialogue Inquiry α} {log : List (Exchanged Question)}
    {r : Except Failure α} (h : (d.rephrase plainly).Ends log r) :
    ∃ asked, d.Ends asked r ∧ asked.map Exchanged.plain = log := by
  induction d generalizing log with
  | done a =>
    cases h
    exact ⟨[], .done a, rfl⟩
  | fail e =>
    cases h
    exact ⟨[], .fail e, rfl⟩
  | ask i next ih =>
    change (Dialogue.ask i.question fun a => (next a).rephrase plainly).Ends log r at h
    cases h with
    | @ask _ _ a _ _ tail =>
      obtain ⟨asked, hasked, rfl⟩ := ih a tail
      exact ⟨⟨i, a⟩ :: asked, .ask hasked, rfl⟩

/-- The answers that amount to failures: an output or a selection that fails by itself, an empty
selection and a cancelled one, and an output that is no JSON document where one is wanted. -/
inductive Failing : Exchanged Inquiry → Failure → Prop
  | output (p : Placeholder) (c : Command) (inputs : Inputs) (wantedBy : Text) (e : Failure) :
      Failing ⟨⟨p, .output c inputs wantedBy⟩, .error e⟩ e
  | selection (p : Placeholder) (o : SelectionOptions) (cs : List Candidate) (e : Failure) :
      Failing ⟨⟨p, .selection o cs⟩, .error e⟩ e
  | empty (p : Placeholder) (o : SelectionOptions) (cs : List Candidate) :
      Failing ⟨⟨p, .selection o cs⟩, .ok .empty⟩ (.emptySelection (.values p.name))
  | cancelled (p : Placeholder) (o : SelectionOptions) (cs : List Candidate) :
      Failing ⟨⟨p, .selection o cs⟩, .ok .cancelled⟩ (.cancelledSelection (.values p.name))
  | document {p : Placeholder} (c : Command) (inputs : Inputs) (wantedBy : Text) {text : Text}
      {e : Json.Error} (wanted : p.format = .json)
      (malformed : Json.parse text = .error (.error e)) :
      Failing ⟨⟨p, .output c inputs wantedBy⟩, .ok text⟩ (.invalidOutput p.name e)

/-! ### What happens at an answer -/

lemma aborts_accept (p : Placeholder) (o : SelectionOptions) (cs : List Candidate) :
    (askedFor p ((selection o cs).bind (accept p))).Aborts Failing := by
  intro a
  cases a with
  | error e =>
    refine ⟨trivial, fun e' he => ?_⟩
    cases he
    rfl
  | ok s =>
    cases s with
    | chosen values =>
      refine ⟨trivial, fun e he => ?_⟩
      cases he
    | empty =>
      refine ⟨trivial, fun e he => ?_⟩
      cases he
      rfl
    | cancelled =>
      refine ⟨trivial, fun e he => ?_⟩
      cases he
      rfl

lemma aborts_choose (ctx : Context) (p : Placeholder) (text : Text) :
    (askedFor p (ctx.choose p text)).Aborts Failing := by
  unfold Context.choose
  split
  · trivial
  · trivial
  · trivial
  · split
    · trivial
    · exact aborts_accept p _ _

lemma choose_malformed (ctx : Context) {p : Placeholder} {text : Text} {e : Json.Error}
    (wanted : p.format = .json) (malformed : Json.parse text = .error (.error e)) :
    ctx.choose p text = .fail (.invalidOutput p.name e) := by
  have hmenu : Menu.ofOutput p.format text = .error (.error e) := by
    rw [wanted]
    change (Json.parse text).map _ = _
    rw [malformed]
    rfl
  rw [Context.choose, hmenu]

/-- The step: the output for a placeholder, and what is done with it. -/
lemma aborts_output (ctx : Context) (p : Placeholder) (d : Command) (inputs : Inputs)
    (wantedBy : Text) :
    (askedFor p ((output d inputs wantedBy).bind (ctx.choose p))).Aborts Failing := by
  intro a
  cases a with
  | error e =>
    refine ⟨trivial, fun e' he => ?_⟩
    cases he
    rfl
  | ok text =>
    refine ⟨aborts_choose ctx p text, fun e he => ?_⟩
    cases he with
    | document _ _ _ wanted malformed =>
      change askedFor p (ctx.choose p text) = _
      rw [choose_malformed ctx wanted malformed]
      rfl

lemma aborts_gather {values : Placeholder → Dialogue Inquiry (List Text)}
    (h : ∀ p, (values p).Aborts Failing) (inputs : Inputs) (ps : List Placeholder) :
    (gather values inputs ps).Aborts Failing := by
  induction ps generalizing inputs with
  | nil => trivial
  | cons p ps ih => exact (h p).bind fun vs => ih _

/-- The run: a walk stops at the first failing answer, however deep it is. -/
theorem aborts_walkFor (ctx : Context) (depth : Nat) (c : Command) :
    (ctx.walkFor depth c).Aborts Failing := by
  induction depth generalizing c with
  | zero => trivial
  | succ depth ih =>
    apply aborts_gather
    intro p
    unfold Context.valuesFor
    split
    · trivial
    · next d hd => exact (ih d).bind fun inputs => aborts_output ctx p d inputs c.name

lemma aborts_inquire (ctx : Context) (top : Command) : (ctx.inquire top).Aborts Failing := by
  unfold Context.inquire
  split
  · trivial
  · exact aborts_walkFor ctx ctx.depth top

/-- A resolution depends on the answers only as they come: as long as two courses of it get the same
ones they ask the same, the next question included. The first answer that amounts to a failure is
the last one, and the resolution ends with that failure. -/
theorem resolve_aborts (ctx : Context) (top : Command) :
    (∀ (one other : Answering Question) (k : Nat),
      (∀ j < k, ∀ x ∈ ((ctx.resolve [] top).held one).2[j]?,
        ∀ y ∈ ((ctx.resolve [] top).held other).2[j]?, x.answer ≍ y.answer) →
      (((ctx.resolve [] top).held one).2.map Exchanged.question).take (k + 1) =
        (((ctx.resolve [] top).held other).2.map Exchanged.question).take (k + 1)) ∧
      ∀ answering : Answering Question, ∃ asked : List (Exchanged Inquiry),
        (ctx.inquire top).Ends asked ((ctx.resolve [] top).held answering).1 ∧
        asked.map Exchanged.plain = ((ctx.resolve [] top).held answering).2 ∧
        ∀ front x back e, asked = front ++ x :: back → Failing x e →
          back = [] ∧ ((ctx.resolve [] top).held answering).1 = .error e := by
  refine ⟨fun one other k same => ?_, fun answering => ?_⟩
  · have hone := ((ctx.resolve [] top).held_ends one).1
    have hother := ((ctx.resolve [] top).held_ends other).1
    exact hone.take_questions hother k same
  · have hends := ((ctx.resolve [] top).held_ends answering).1
    rw [← inquire_plainly] at hends
    obtain ⟨asked, hasked, hplain⟩ := ends_of_plain hends
    rw [inquire_plainly] at hasked hplain
    refine ⟨asked, hasked, hplain, fun front x back e hlog hfails => ?_⟩
    exact (aborts_inquire ctx top).of_ends hasked hlog hfails

/-- A command below another one puts out what is no JSON document, though one is wanted. -/
def garbled : Context where
  index := .ofList [
    { name := "list" },
    { name := "pick", placeholders := [{ target := .argument, name := "list", format := .json }] }]

def garbledTop : Command where
  name := "top"
  placeholders := [
    { target := .environment "A", name := "list" },
    { target := .input, name := "pick" },
    { target := .argument, name := "list" }]

/-- Nothing is asked after the output that cannot be read, on either level. -/
theorem resolve_garbled :
    ((garbled.resolve [] garbledTop).held answerFirst).1 =
        .error (.invalidOutput "list" ⟨.valueExpected, ⟨1, 1, 0⟩⟩) ∧
      ((garbled.resolve [] garbledTop).held answerFirst).2.length = 3 ∧
      ∃ asked, (garbled.inquire garbledTop).Ends asked
          ((garbled.resolve [] garbledTop).held answerFirst).1 ∧
        asked.map Exchanged.plain = ((garbled.resolve [] garbledTop).held answerFirst).2 ∧
        ∀ front x back e, asked = front ++ x :: back → Failing x e →
          back = [] ∧ ((garbled.resolve [] garbledTop).held answerFirst).1 = .error e := by
  have accepted : check garbled.index [garbledTop.name] garbledTop = .ok () := by cbv
  refine ⟨?_, ?_, (resolve_aborts garbled garbledTop).2 answerFirst⟩
  · rw [Context.resolve_accepted accepted]
    decide +kernel
  · rw [Context.resolve_accepted accepted]
    decide +kernel

end Runbook.Resolution
