import Mathlib.Tactic.Common
import Runbook.Proofs.Resolution.Dialogue
import Runbook.Resolution.Walk

/-! A resolution that tells of the calls within it. Without what it tells it is the resolution that
runs, so that every run has calls, each with the chain of names being resolved around it. -/
namespace Runbook.Resolution

/-- A call within a resolution, with the names that are being resolved around it. -/
inductive Call where
  /-- A command is resolved. -/
  | inputs (around : List Text) (c : Command)
  /-- The values of a placeholder are found. -/
  | values (around : List Text) (p : Placeholder)

/-- What a resolution does that tells of its calls. -/
inductive Move where
  | enter (call : Call)
  | ask (question : Question)

instance : Asking Move where
  Answer
    | .enter _ => Unit
    | .ask q => Asking.Answer q

/-- Only the questions are put. -/
def silently : (m : Move) → Course (Asking.Answer m)
  | .enter _ => .done ()
  | .ask q => .query q

/-- Questions among other moves. -/
def aloud {α : Type} (d : Course α) : Dialogue Move α :=
  d.rephrase fun q => Dialogue.query (Move.ask q)

lemma aloud_silently {α : Type} (d : Course α) : (aloud d).rephrase silently = d :=
  Dialogue.rephrase_rephrase (fun _ => rfl) d

/-- The questions of a log, with their answers. -/
def questions : List (Exchanged Move) → List (Exchanged Question)
  | [] => []
  | ⟨.enter _, _⟩ :: moves => questions moves
  | ⟨.ask q, a⟩ :: moves => ⟨q, a⟩ :: questions moves

/-- The calls of a log. -/
def calls : List (Exchanged Move) → List Call
  | [] => []
  | ⟨.enter call, _⟩ :: moves => call :: calls moves
  | ⟨.ask _, _⟩ :: moves => calls moves

@[simp] lemma questions_append (front back : List (Exchanged Move)) :
    questions (front ++ back) = questions front ++ questions back := by
  induction front with
  | nil => rfl
  | cons move front ih =>
    obtain ⟨_ | _, a⟩ := move
    · exact ih
    · exact congrArg (List.cons _) ih

@[simp] lemma calls_append (front back : List (Exchanged Move)) :
    calls (front ++ back) = calls front ++ calls back := by
  induction front with
  | nil => rfl
  | cons move front ih =>
    obtain ⟨_ | _, a⟩ := move
    · exact congrArg (List.cons _) ih
    · exact ih

/-- Every course without the calls is one with them. -/
theorem ends_of_silent {α : Type} {d : Dialogue Move α} {log : List (Exchanged Question)}
    {r : Except Failure α} (h : (d.rephrase silently).Ends log r) :
    ∃ moves, d.Ends moves r ∧ questions moves = log := by
  induction d generalizing log with
  | done a =>
    cases h
    exact ⟨[], .done a, rfl⟩
  | fail e =>
    cases h
    exact ⟨[], .fail e, rfl⟩
  | ask m next ih =>
    cases m with
    | enter call =>
      obtain ⟨moves, hm, rfl⟩ := ih () h
      exact ⟨⟨.enter call, ()⟩ :: moves, .ask hm, rfl⟩
    | ask q =>
      change (Dialogue.ask q fun a => (next a).rephrase silently).Ends log r at h
      cases h with
      | @ask _ _ a _ _ tail =>
        obtain ⟨moves, hm, rfl⟩ := ih a tail
        exact ⟨⟨.ask q, a⟩ :: moves, .ask hm, rfl⟩

/-- Questions alone make no calls. -/
lemma calls_of_aloud {α : Type} {d : Course α} {moves : List (Exchanged Move)}
    {r : Except Failure α} (h : (aloud d).Ends moves r) :
    calls moves = [] ∧ d.Ends (questions moves) r := by
  induction d generalizing moves with
  | done a =>
    cases h
    exact ⟨rfl, .done a⟩
  | fail e =>
    cases h
    exact ⟨rfl, .fail e⟩
  | ask q next ih =>
    change (Dialogue.ask (Move.ask q) fun a => aloud (next a)).Ends moves r at h
    cases h with
    | ask tail =>
      obtain ⟨hc, hn⟩ := ih _ tail
      exact ⟨hc, .ask hn⟩

/-- The values of a placeholder, with the calls told of. -/
def Context.valuesAloud (ctx : Context) (around : List Text)
    (resolve : Command → Dialogue Move Inputs) (wantedBy : Text) (p : Placeholder) :
    Dialogue Move (List Text) :=
  .ask (.enter (.values around p)) fun _ =>
    match ctx.index.get? p.name with
    | none => .fail (.unknownReference p.name)
    | some c =>
      .ask (.enter (.inputs around c)) fun _ =>
        (resolve c).bind fun inputs => aloud ((output c inputs wantedBy).bind (ctx.choose p))

/-- The inputs of a command, with the calls within told of, down to a depth. -/
def Context.walkAloud (ctx : Context) : Nat → List Text → Command → Dialogue Move Inputs
  | 0, _, _ => .fail .endlessReference
  | depth + 1, around, c =>
    gather (ctx.valuesAloud (around ++ [c.name]) (ctx.walkAloud depth (around ++ [c.name])) c.name)
      {} c.placeholders

/-- Placeholders in turn, with questions in other words. -/
lemma gather_rephrase {Q R : Type} [Asking Q] [Asking R]
    {put : (q : Q) → Dialogue R (Asking.Answer q)} {values : Placeholder → Dialogue Q (List Text)}
    {others : Placeholder → Dialogue R (List Text)} (h : ∀ p, (values p).rephrase put = others p)
    (inputs : Inputs) (ps : List Placeholder) :
    (gather values inputs ps).rephrase put = gather others inputs ps := by
  induction ps generalizing inputs with
  | nil => rfl
  | cons p ps ih =>
    rw [gather, gather, Dialogue.rephrase_bind, h p]
    congr 1
    funext vs
    exact ih _

/-- Without what it tells, the walk is the one that runs. -/
theorem walkAloud_silently (ctx : Context) (depth : Nat) (around : List Text) (c : Command) :
    (ctx.walkAloud depth around c).rephrase silently = ctx.walk depth c := by
  induction depth generalizing around c with
  | zero => rfl
  | succ depth ih =>
    rw [Context.walkAloud, Context.walk]
    apply gather_rephrase
    intro p
    change Dialogue.rephrase silently (match ctx.index.get? p.name with
      | none => .fail (.unknownReference p.name)
      | some c => _) = _
    rw [Context.valuesBy]
    cases ctx.index.get? p.name with
    | none => rfl
    | some d =>
      change ((ctx.walkAloud depth _ d).bind _).rephrase silently = _
      rw [Dialogue.rephrase_bind, ih]
      congr 1
      funext inputs
      exact aloud_silently _

end Runbook.Resolution
