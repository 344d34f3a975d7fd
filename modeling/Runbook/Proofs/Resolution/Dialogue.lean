import Mathlib.Tactic.Common
import Runbook.Resolution.Dialogue

/-! The courses that a dialogue can take. A course is known by its log, the questions with the
answers that they got, and by the end that it comes to. -/
namespace Runbook

/-- A question and the answer that it got. -/
structure Exchanged (Q : Type) [Asking Q] where
  question : Q
  answer : Asking.Answer question

/-- A way of answering, which may depend on all that was asked and answered before. -/
abbrev Answering (Q : Type) [Asking Q] := List (Exchanged Q) → (q : Q) → Asking.Answer q

/-- One answer, with the log made longer. -/
def Answering.reply {Q : Type} [Asking Q] (answering : Answering Q) (q : Q) :
    StateM (List (Exchanged Q)) (Asking.Answer q) :=
  fun log => (answering log q, log ++ [⟨q, answering log q⟩])

/-- Every answer of a log was given by the one who answers, after what came before. -/
def Answering.Gave {Q : Type} [Asking Q] (answering : Answering Q)
    (log : List (Exchanged Q)) : Prop :=
  ∀ x ∈ log, ∃ past, x.answer = answering past x.question

namespace Dialogue
variable {Q α β : Type} [Asking Q]

/-- The dialogue comes to an end after some exchanges. -/
inductive Ends : Dialogue Q α → List (Exchanged Q) → Except Failure α → Prop
  | done (a : α) : Ends (.done a) [] (.ok a)
  | fail (e : Failure) : Ends (.fail e) [] (.error e)
  | ask {q : Q} {next : Asking.Answer q → Dialogue Q α} {a : Asking.Answer q}
      {log : List (Exchanged Q)} {r : Except Failure α} (tail : Ends (next a) log r) :
      Ends (.ask q next) (⟨q, a⟩ :: log) r

/-- The end of a dialogue and its log, when somebody answers. -/
def held (d : Dialogue Q α) (answering : Answering Q) :
    Except Failure α × List (Exchanged Q) :=
  (d.run answering.reply).run []

lemma run_reply (d : Dialogue Q α) (answering : Answering Q) (past : List (Exchanged Q)) :
    ∃ log, d.Ends log ((d.run answering.reply).run past).1 ∧ answering.Gave log ∧
      ((d.run answering.reply).run past).2 = past ++ log := by
  induction d generalizing past with
  | done a => exact ⟨[], .done a, by simp [Answering.Gave], (List.append_nil past).symm⟩
  | fail e => exact ⟨[], .fail e, by simp [Answering.Gave], (List.append_nil past).symm⟩
  | ask q next ih =>
    obtain ⟨log, hlog, hgave, hpast⟩ := ih (answering past q) (past ++ [⟨q, answering past q⟩])
    refine ⟨⟨q, answering past q⟩ :: log, .ask hlog, ?_, ?_⟩
    · exact List.forall_mem_cons.mpr ⟨⟨past, rfl⟩, hgave⟩
    · exact hpast.trans (List.append_cons past _ log).symm

/-- Whoever answers, the dialogue takes one of its courses to the end. -/
theorem held_ends (d : Dialogue Q α) (answering : Answering Q) :
    d.Ends (d.held answering).2 (d.held answering).1 ∧ answering.Gave (d.held answering).2 := by
  obtain ⟨log, hlog, hgave, hpast⟩ := run_reply d answering []
  rw [List.nil_append] at hpast
  change (d.held answering).2 = log at hpast
  exact hpast ▸ ⟨hlog, hgave⟩

/-- Whoever answers the second of two dialogues answers after what was asked in the first. -/
lemma run_reply_bind (d : Dialogue Q α) (f : α → Dialogue Q β) (answering : Answering Q)
    (past : List (Exchanged Q)) :
    ((d.bind f).run answering.reply).run past =
      match (d.run answering.reply).run past with
      | (.ok a, log) => ((f a).run answering.reply).run log
      | (.error e, log) => (.error e, log) := by
  induction d generalizing past with
  | done a => rfl
  | fail e => rfl
  | ask q next ih => exact ih _ _

lemma run_reply_rescue (d : Dialogue Q α) (handle : Failure → Dialogue Q α)
    (answering : Answering Q) (past : List (Exchanged Q)) :
    ((d.rescue handle).run answering.reply).run past =
      match (d.run answering.reply).run past with
      | (.ok a, log) => (.ok a, log)
      | (.error e, log) => ((handle e).run answering.reply).run log := by
  induction d generalizing past with
  | done a => rfl
  | fail e => rfl
  | ask q next ih => exact ih _ _

lemma ends_ofExcept_iff {x : Except Failure α} {log : List (Exchanged Q)} {r : Except Failure α} :
    (ofExcept x : Dialogue Q α).Ends log r ↔ log = [] ∧ r = x := by
  cases x with
  | error e =>
    constructor
    · intro h
      cases h
      exact ⟨rfl, rfl⟩
    · rintro ⟨rfl, rfl⟩
      exact .fail e
  | ok a =>
    constructor
    · intro h
      cases h
      exact ⟨rfl, rfl⟩
    · rintro ⟨rfl, rfl⟩
      exact .done a

/-- A course of two dialogues in a row is one of the first that fails, or one of each. -/
lemma Ends.of_bind {d : Dialogue Q α} {f : α → Dialogue Q β} {log : List (Exchanged Q)}
    {r : Except Failure β} (h : (d.bind f).Ends log r) :
    (∃ e, d.Ends log (.error e) ∧ r = .error e) ∨
      ∃ a front back, d.Ends front (.ok a) ∧ (f a).Ends back r ∧ log = front ++ back := by
  induction d generalizing log with
  | done a => exact .inr ⟨a, [], log, .done a, h, rfl⟩
  | fail e =>
    cases h
    exact .inl ⟨e, .fail e, rfl⟩
  | ask q next ih =>
    cases h with
    | ask tail =>
      rcases ih _ tail with ⟨e, he, hr⟩ | ⟨a, front, back, ha, hb, rfl⟩
      · exact .inl ⟨e, .ask he, hr⟩
      · exact .inr ⟨a, _, back, .ask ha, hb, rfl⟩

/-- A course with a result is one of each. -/
lemma Ends.of_bind_ok {d : Dialogue Q α} {f : α → Dialogue Q β} {log : List (Exchanged Q)} {b : β}
    (h : (d.bind f).Ends log (.ok b)) :
    ∃ a front back, d.Ends front (.ok a) ∧ (f a).Ends back (.ok b) ∧ log = front ++ back :=
  h.of_bind.resolve_left fun ⟨_, _, he⟩ => nomatch he

/-- A course of each dialogue makes one of both in a row. -/
lemma Ends.bind {d : Dialogue Q α} {f : α → Dialogue Q β} {front back : List (Exchanged Q)} {a : α}
    {r : Except Failure β} (hd : d.Ends front (.ok a)) (hf : (f a).Ends back r) :
    (d.bind f).Ends (front ++ back) r := by
  induction d generalizing front with
  | done b =>
    cases hd
    exact hf
  | fail e => cases hd
  | ask q next ih =>
    cases hd with
    | ask tail => exact .ask (ih _ tail)

/-- No course goes on where another one has ended. -/
theorem Ends.unique {d : Dialogue Q α} {log log' rest rest' : List (Exchanged Q)}
    {r r' : Except Failure α} (h : d.Ends log r) (h' : d.Ends log' r')
    (same : log ++ rest = log' ++ rest') : log = log' ∧ r = r' := by
  induction h generalizing log' with
  | done a =>
    cases h'
    exact ⟨rfl, rfl⟩
  | fail e =>
    cases h'
    exact ⟨rfl, rfl⟩
  | ask tail ih =>
    cases h' with
    | ask tail' =>
      obtain ⟨hhead, htail⟩ := List.cons.inj same
      cases hhead
      obtain ⟨rfl, rfl⟩ := ih tail' htail
      exact ⟨rfl, rfl⟩

/-- Where two courses get the same answers to their first questions, they have these questions in
common, and the next one too. -/
theorem Ends.take_questions {d : Dialogue Q α} {log log' : List (Exchanged Q)}
    {r r' : Except Failure α} (h : d.Ends log r) (h' : d.Ends log' r') (k : Nat)
    (same : ∀ j < k, ∀ x ∈ log[j]?, ∀ y ∈ log'[j]?, x.answer ≍ y.answer) :
    (log.map Exchanged.question).take (k + 1) = (log'.map Exchanged.question).take (k + 1) := by
  induction h generalizing log' k with
  | done a =>
    cases h'
    rfl
  | fail e =>
    cases h'
    rfl
  | @ask q next a log r tail ih =>
    cases h' with
    | @ask _ _ a' log' _ tail' =>
      cases k with
      | zero => rfl
      | succ k =>
        -- The first answers coincide, so that the two courses go on with one dialogue.
        have ha : a = a' := eq_of_heq (same 0 (Nat.succ_pos k) ⟨q, a⟩ rfl ⟨q, a'⟩ rfl)
        subst ha
        have hrest := ih tail' k fun j hj => same (j + 1) (Nat.succ_lt_succ hj)
        exact congrArg (q :: ·) hrest

/-- Where an answer amounts to a failure, the dialogue fails with it at once. -/
def Aborts (fails : Exchanged Q → Failure → Prop) : Dialogue Q α → Prop
  | done _ => True
  | fail _ => True
  | ask q next => ∀ a, (next a).Aborts fails ∧ ∀ e, fails ⟨q, a⟩ e → next a = .fail e

lemma Aborts.bind {fails : Exchanged Q → Failure → Prop} {d : Dialogue Q α} {f : α → Dialogue Q β}
    (hd : d.Aborts fails) (hf : ∀ a, (f a).Aborts fails) : (d.bind f).Aborts fails := by
  induction d with
  | done a => exact hf a
  | fail e => trivial
  | ask q next ih =>
    intro a
    obtain ⟨hnext, hfail⟩ := hd a
    refine ⟨ih a hnext, fun e he => ?_⟩
    change (next a).bind f = .fail e
    rw [hfail e he]
    rfl

/-- An answer that amounts to a failure is the last one of a course, and the course ends with it. -/
theorem Aborts.of_ends {fails : Exchanged Q → Failure → Prop} {d : Dialogue Q α}
    (hd : d.Aborts fails) {log : List (Exchanged Q)} {r : Except Failure α} (h : d.Ends log r)
    {front back : List (Exchanged Q)} {x : Exchanged Q} (hlog : log = front ++ x :: back)
    {e : Failure} (hx : fails x e) : back = [] ∧ r = .error e := by
  induction h generalizing front with
  | done a => simp at hlog
  | fail e' => simp at hlog
  | @ask q next a log r tail ih =>
    obtain ⟨hnext, hfail⟩ := hd a
    cases front with
    | nil =>
      obtain ⟨rfl, rfl⟩ := List.cons.inj hlog
      rw [hfail e hx] at tail
      cases tail
      exact ⟨rfl, rfl⟩
    | cons y front => exact ih hnext (List.cons.inj hlog).2

/-- All that a dialogue asks, and all that it gives, is of some kind, whatever the answers are. -/
def Meets (asks : Q → Prop) (gives : α → Prop) : Dialogue Q α → Prop
  | done a => gives a
  | fail _ => True
  | ask q next => asks q ∧ ∀ a, (next a).Meets asks gives

section Meets
variable {asks : Q → Prop} {gives : α → Prop} {d : Dialogue Q α}

lemma Meets.mono {asks' : Q → Prop} {gives' : α → Prop} (h : d.Meets asks gives)
    (hasks : ∀ q, asks q → asks' q) (hgives : ∀ a, gives a → gives' a) :
    d.Meets asks' gives' := by
  induction d with
  | done a => exact hgives a h
  | fail e => trivial
  | ask q next ih => exact ⟨hasks q h.1, fun a => ih a (h.2 a)⟩

lemma Meets.bind {gives' : β → Prop} {f : α → Dialogue Q β} (h : d.Meets asks gives)
    (hf : ∀ a, gives a → (f a).Meets asks gives') : (d.bind f).Meets asks gives' := by
  induction d with
  | done a => exact hf a h
  | fail e => trivial
  | ask q next ih => exact ⟨h.1, fun a => ih a (h.2 a)⟩

lemma Meets.rephrase {R : Type} [Asking R] {asks' : R → Prop}
    {put : (q : Q) → Dialogue R (Asking.Answer q)} (h : d.Meets asks gives)
    (hput : ∀ q, asks q → (put q).Meets asks' fun _ => True) :
    (d.rephrase put).Meets asks' gives := by
  induction d with
  | done a => exact h
  | fail e => trivial
  | ask q next ih => exact (hput q h.1).bind fun a _ => ih a (h.2 a)

lemma meets_true (d : Dialogue Q α) : d.Meets (fun _ => True) fun _ => True := by
  induction d with
  | done a => trivial
  | fail e => trivial
  | ask q next ih => exact ⟨trivial, ih⟩

lemma meets_ofExcept (x : Except Failure α) :
    (ofExcept x : Dialogue Q α).Meets asks fun _ => True := by
  cases x <;> trivial

/-- What holds of a dialogue holds of each of its courses. -/
theorem Meets.of_ends (h : d.Meets asks gives) {log : List (Exchanged Q)} {r : Except Failure α}
    (ends : d.Ends log r) : (∀ x ∈ log, asks x.question) ∧ ∀ a, r = .ok a → gives a := by
  induction ends with
  | done a =>
    refine ⟨fun x hx => ?_, fun b hb => ?_⟩
    · cases hx
    · cases hb
      exact h
  | fail e =>
    refine ⟨fun x hx => ?_, fun b hb => ?_⟩
    · cases hx
    · cases hb
  | ask tail ih =>
    obtain ⟨hlog, hresult⟩ := ih (h.2 _)
    exact ⟨List.forall_mem_cons.mpr ⟨h.1, hlog⟩, hresult⟩

end Meets

lemma bind_assoc {γ : Type} (d : Dialogue Q α) (f : α → Dialogue Q β) (g : β → Dialogue Q γ) :
    (d.bind f).bind g = d.bind fun a => (f a).bind g := by
  induction d with
  | done a => rfl
  | fail e => rfl
  | ask q next ih =>
    change ask q _ = ask q _
    congr 1
    funext a
    exact ih a

/-- What comes after the first of two dialogues may itself be cut in two. -/
lemma bind_eq_bind {γ : Type} {d : Dialogue Q α} {f : α → Dialogue Q β} {g : β → Dialogue Q γ}
    {h : α → Dialogue Q γ} (same : ∀ a, h a = (f a).bind g) : d.bind h = (d.bind f).bind g := by
  rw [bind_assoc]
  congr 1
  funext a
  exact same a

lemma rephrase_bind {R : Type} [Asking R] (put : (q : Q) → Dialogue R (Asking.Answer q))
    (d : Dialogue Q α) (f : α → Dialogue Q β) :
    (d.bind f).rephrase put = (d.rephrase put).bind fun a => (f a).rephrase put := by
  induction d with
  | done a => rfl
  | fail e => rfl
  | ask q next ih =>
    change (put q).bind _ = ((put q).bind _).bind _
    rw [bind_assoc]
    congr 1
    funext a
    exact ih a

/-- Questions that are put in other words, and those in the first words again. -/
lemma rephrase_rephrase {R : Type} [Asking R] {put : (q : Q) → Dialogue R (Asking.Answer q)}
    {back : (r : R) → Dialogue Q (Asking.Answer r)} (h : ∀ q, (put q).rephrase back = query q)
    (d : Dialogue Q α) : (d.rephrase put).rephrase back = d := by
  induction d with
  | done a => rfl
  | fail e => rfl
  | ask q next ih =>
    change ((put q).bind _).rephrase back = _
    rw [rephrase_bind, h]
    change ask q _ = ask q _
    congr 1
    funext a
    exact ih a

end Dialogue
end Runbook
