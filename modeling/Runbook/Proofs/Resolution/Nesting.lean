import Mathlib.Data.List.Nodup
import Mathlib.Tactic.Common
import Runbook.Proofs.Resolution.Grounding
import Runbook.Proofs.Resolution.Narration

/-! The calls within the resolution of a checked command. The references are checked once, before
anything is asked; every call is then on a chain of different names, none fails for a reference,
and the depth to which references are followed is never felt. -/
namespace Runbook.Resolution

/-- Failures that a resolution has by itself: a missing reference, a cycle, or no end. -/
def isReferenceFailure : Failure → Bool
  | .unknownReference _ => true
  | .cyclicReference _ => true
  | .endlessReference => true
  | _ => false

/-- The failure that was the answer to a question. -/
def failure? : (q : Question) → Asking.Answer q → Option Failure
  | .output .., .error e => some e
  | .output .., .ok _ => none
  | .selection .., .error e => some e
  | .selection .., .ok _ => none

/-- Commands and selectors have only failures of their own. -/
def OwnFailures (answering : Answering Question) : Prop :=
  ∀ log q e, failure? q (answering log q) = some e → isReferenceFailure e = false

/-- The same of the answers in a log. -/
def OwnLog (log : List (Exchanged Question)) : Prop :=
  ∀ x ∈ log, ∀ e, failure? x.question x.answer = some e → isReferenceFailure e = false

lemma OwnFailures.log {answering : Answering Question} (own : OwnFailures answering)
    {log : List (Exchanged Question)} (h : answering.Gave log) : OwnLog log := by
  intro x hx e he
  obtain ⟨past, ha⟩ := h x hx
  exact own past x.question e (ha ▸ he)

lemma ownLog_append {front back : List (Exchanged Question)} :
    OwnLog (front ++ back) ↔ OwnLog front ∧ OwnLog back := List.forall_mem_append

/-- Not a failure for a reference. -/
def Sound {α : Type} (r : Except Failure α) : Prop :=
  ∀ e, r = .error e → isReferenceFailure e = false

/-- A course that is sound whatever is answered. -/
def Blameless {α : Type} (d : Course α) : Prop :=
  ∀ log r, d.Ends log r → OwnLog log → Sound r

lemma sound_ok {α : Type} (a : α) : Sound (.ok a) := fun _ h => nomatch h

lemma sound_error {α : Type} {e : Failure} (h : isReferenceFailure e = false) :
    Sound (α := α) (.error e) := by
  intro e' he
  obtain rfl := Except.error.inj he
  exact h

lemma Sound.of_error {α β : Type} {e : Failure} (h : Sound (α := α) (.error e)) :
    Sound (α := β) (.error e) := sound_error (h e rfl)

lemma Blameless.bind {α β : Type} {d : Course α} {f : α → Course β} (hd : Blameless d)
    (hf : ∀ a, Blameless (f a)) : Blameless (d.bind f) := by
  intro log r h own
  rcases h.of_bind with ⟨e, he, rfl⟩ | ⟨a, front, back, ha, hb, rfl⟩
  · exact (hd log _ he own).of_error
  · exact hf a back r hb (ownLog_append.mp own).2

/-- A failure was an answer in a log. -/
def Answered (log : List (Exchanged Question)) (e : Failure) : Prop :=
  ∃ x ∈ log, failure? x.question x.answer = some e

/-- A course whose failures are of its own kind, unless they were answers. -/
def FailsBy {α : Type} (own : Failure → Prop) (d : Course α) : Prop :=
  ∀ log e, d.Ends log (.error e) → own e ∨ Answered log e

section FailsBy
variable {α β : Type} {own : Failure → Prop}

lemma failsBy_done (a : α) : FailsBy own (.done a) := by
  intro log e h
  cases h

lemma failsBy_fail {e : Failure} (h : own e) : FailsBy (α := α) own (.fail e) := by
  intro log e' he
  cases he
  exact .inl h

lemma FailsBy.bind {d : Course α} {f : α → Course β} (hd : FailsBy own d)
    (hf : ∀ a, FailsBy own (f a)) : FailsBy own (d.bind f) := by
  intro log e h
  rcases h.of_bind with ⟨e', he, heq⟩ | ⟨a, front, back, -, hb, rfl⟩
  · obtain rfl := Except.error.inj heq
    exact hd log _ he
  · rcases hf a back e hb with he | ⟨x, hx, hfail⟩
    · exact .inl he
    · exact .inr ⟨x, List.mem_append_right _ hx, hfail⟩

lemma FailsBy.mono {other : Failure → Prop} {d : Course α} (h : FailsBy own d)
    (hown : ∀ e, own e → other e) : FailsBy other d :=
  fun log e he => (h log e he).imp_left (hown e)

lemma FailsBy.blameless {d : Course α} (h : FailsBy (fun e => isReferenceFailure e = false) d) :
    Blameless d := by
  intro log r hr hlog e he
  rcases h log e (he ▸ hr) with hown | ⟨x, hx, hfail⟩
  · exact hown
  · exact hlog x hx e hfail

lemma failsBy_output (c : Command) (inputs : Inputs) (wantedBy : Text) :
    FailsBy own (output c inputs wantedBy) := by
  intro log e h
  cases h with
  | @ask _ _ a _ _ tail =>
    cases a with
    | error e' =>
      cases tail
      exact .inr ⟨_, List.mem_cons_self .., rfl⟩
    | ok text => cases tail

lemma failsBy_selection (o : SelectionOptions) (cs : List Candidate) :
    FailsBy own (selection o cs) := by
  intro log e h
  cases h with
  | @ask _ _ a _ _ tail =>
    cases a with
    | error e' =>
      cases tail
      exact .inr ⟨_, List.mem_cons_self .., rfl⟩
    | ok chosen => cases tail

/-- What is done with an output does not fail for a reference. -/
lemma failsBy_choose (ctx : Context) (p : Placeholder) (text : Text) :
    FailsBy (fun e => isReferenceFailure e = false) (ctx.choose p text) := by
  unfold Context.choose
  split
  · exact failsBy_fail rfl
  · exact failsBy_fail rfl
  · exact failsBy_fail rfl
  · split
    · exact failsBy_done _
    · apply (failsBy_selection _ _).bind
      intro s
      cases s with
      | chosen values => exact failsBy_done values
      | empty => exact failsBy_fail rfl
      | cancelled => exact failsBy_fail rfl

lemma failsBy_offer (ctx : Context) (p : Placeholder) (c : Command) (inputs : Inputs)
    (wantedBy : Text) :
    FailsBy (fun e => isReferenceFailure e = false)
      ((output c inputs wantedBy).bind (ctx.choose p)) :=
  (failsBy_output c inputs wantedBy).bind (failsBy_choose ctx p)

end FailsBy

/-- The invariant of the walk: the chain with the command at its end holds different names, all
but the first from the index, and the references of the command are grounded beyond it. -/
structure Secure (index : Index) (chain : List Text) (c : Command) : Prop where
  started : chain ≠ []
  distinct : chain.Nodup
  known : chain.tail ⊆ index.names
  grounded : ∀ p ∈ c.placeholders, Grounded index chain p.name

lemma name_of_get? {index : Index} {name : Text} {c : Command} (h : index.get? name = some c) :
    c.name = name := by
  unfold Index.get? Index.find? at h
  simpa using List.find?_some h

lemma secure_of_check {index : Index} {top : Command} (h : check index [top.name] top = .ok ()) :
    Secure index [top.name] top where
  started := by simp
  distinct := List.nodup_singleton _
  known := by simp
  grounded _ hp := grounded_of_check h hp

namespace Secure
variable {index : Index} {chain : List Text} {c : Command}

lemma length_le (h : Secure index chain c) : chain.length ≤ index.names.length + 1 := by
  obtain ⟨name, rest, rfl⟩ := List.exists_cons_of_ne_nil h.started
  have hrest : rest.Nodup := (List.nodup_cons.mp h.distinct).2
  have hle := hrest.length_le_of_subset h.known
  exact Nat.succ_le_succ hle

/-- The step of the walk: a reference of a secure command is there, and secure in its turn. -/
theorem below (h : Secure index chain c) {p : Placeholder} (hp : p ∈ c.placeholders) :
    ∃ d, index.get? p.name = some d ∧ Secure index (chain ++ [d.name]) d := by
  have hg := h.grounded p hp
  have hgrounded := hg
  cases hg with
  | @intro _ d clear found below =>
    have hname := name_of_get? found
    refine ⟨d, found, ?_, ?_, ?_, ?_⟩
    · exact List.append_ne_nil_of_right_ne_nil chain (List.cons_ne_nil _ _)
    · rw [hname, List.nodup_append]
      refine ⟨h.distinct, List.nodup_singleton _, ?_⟩
      intro n hn m hm hnm
      rw [hnm, List.mem_singleton.mp hm] at hn
      exact clear hn
    · intro n hn
      rw [List.tail_append_of_ne_nil h.started, List.mem_append] at hn
      rcases hn with hn | hn
      · exact h.known hn
      · rw [List.mem_singleton.mp hn, hname]
        exact get?_mem_names found
    · intro q hq
      rw [hname]
      exact hgrounded.below_avoids found hq

end Secure

/-- A call on a secure chain. -/
def Call.Secure (index : Index) : Call → Prop
  | .inputs around c => around ≠ [] ∧ Resolution.Secure index (around ++ [c.name]) c
  | .values around p => ∃ c, Resolution.Secure index around c ∧ p ∈ c.placeholders

/-- A narrated dialogue all of whose courses are sound and make secure calls. -/
def Orderly {α : Type} (index : Index) (d : Dialogue Move α) : Prop :=
  ∀ moves r, d.Ends moves r → OwnLog (questions moves) →
    Sound r ∧ ∀ call ∈ calls moves, call.Secure index

lemma orderly_done {α : Type} (index : Index) (a : α) : Orderly index (.done a) := by
  intro moves r h _
  cases h
  exact ⟨sound_ok a, by simp [calls]⟩

lemma Orderly.bind {α β : Type} {index : Index} {d : Dialogue Move α} {f : α → Dialogue Move β}
    (hd : Orderly index d) (hf : ∀ a, Orderly index (f a)) : Orderly index (d.bind f) := by
  intro moves r h own
  rcases h.of_bind with ⟨e, he, rfl⟩ | ⟨a, front, back, ha, hb, rfl⟩
  · obtain ⟨hs, hc⟩ := hd moves _ he own
    exact ⟨hs.of_error, hc⟩
  · rw [questions_append, ownLog_append] at own
    obtain ⟨-, hfront⟩ := hd front _ ha own.1
    obtain ⟨hs, hback⟩ := hf a back r hb own.2
    refine ⟨hs, ?_⟩
    rw [calls_append]
    exact List.forall_mem_append.mpr ⟨hfront, hback⟩

lemma Orderly.enter {α : Type} {index : Index} {call : Call} {d : Dialogue Move α}
    (hcall : call.Secure index) (hd : Orderly index d) :
    Orderly index (.ask (.enter call) fun _ => d) := by
  intro moves r h own
  cases h with
  | ask tail =>
    obtain ⟨hs, hc⟩ := hd _ r tail own
    exact ⟨hs, List.forall_mem_cons.mpr ⟨hcall, hc⟩⟩

lemma Blameless.aloud {α : Type} (index : Index) {d : Course α} (hd : Blameless d) :
    Orderly index (aloud d) := by
  intro moves r h own
  obtain ⟨hc, hn⟩ := calls_of_aloud h
  refine ⟨hd _ r hn own, ?_⟩
  simp [hc]

lemma orderly_gather {index : Index} {values : Placeholder → Dialogue Move (List Text)}
    {ps : List Placeholder} (h : ∀ p ∈ ps, Orderly index (values p)) (inputs : Inputs) :
    Orderly index (gather values inputs ps) := by
  induction ps generalizing inputs with
  | nil => exact orderly_done index inputs
  | cons p ps ih =>
    obtain ⟨hp, hps⟩ := List.forall_mem_cons.mp h
    exact hp.bind fun vs => ih hps _

/-- A secure command is resolved in an orderly way, when the depth suffices for the names that
are not on the chain. -/
theorem Secure.orderly {ctx : Context} {depth : Nat} {around : List Text} {c : Command}
    (h : Secure ctx.index (around ++ [c.name]) c)
    (hd : ctx.index.names.length + 2 ≤ depth + (around ++ [c.name]).length) :
    Orderly ctx.index (ctx.walkAloud depth around c) := by
  induction depth generalizing around c with
  | zero =>
    have := h.length_le
    omega
  | succ depth ih =>
    refine orderly_gather (fun p hp => ?_) {}
    refine Orderly.enter ⟨c, h, hp⟩ ?_
    obtain ⟨d, hget, hsecure⟩ := h.below hp
    simp only [hget]
    refine Orderly.enter ⟨h.started, hsecure⟩ (Orderly.bind (ih hsecure ?_) fun inputs => ?_)
    · simp only [List.length_append, List.length_singleton] at hd ⊢
      omega
    · exact (failsBy_offer ctx p d inputs c.name).blameless.aloud ctx.index

lemma Secure.blameless_walk {ctx : Context} {depth : Nat} {around : List Text} {c : Command}
    (h : Secure ctx.index (around ++ [c.name]) c)
    (hd : ctx.index.names.length + 2 ≤ depth + (around ++ [c.name]).length) :
    Blameless (ctx.walk depth c) := by
  intro log r hr own
  rw [← walkAloud_silently ctx depth around c] at hr
  obtain ⟨moves, hm, rfl⟩ := ends_of_silent hr
  exact (h.orderly hd moves r hm own).1

lemma gather_congr {Q : Type} [Asking Q] {v w : Placeholder → Dialogue Q (List Text)}
    {ps : List Placeholder} (h : ∀ p ∈ ps, v p = w p) (inputs : Inputs) :
    gather v inputs ps = gather w inputs ps := by
  induction ps generalizing inputs with
  | nil => rfl
  | cons p ps ih =>
    obtain ⟨hp, hps⟩ := List.forall_mem_cons.mp h
    rw [gather, gather, hp]
    congr 1
    funext vs
    exact ih hps _

/-- A depth that suffices may as well be greater. -/
theorem Secure.walk_succ {ctx : Context} {depth : Nat} {chain : List Text} {c : Command}
    (h : Secure ctx.index chain c)
    (hd : ctx.index.names.length + 2 ≤ depth + chain.length) :
    ctx.walk (depth + 1) c = ctx.walk depth c := by
  induction depth generalizing chain c with
  | zero =>
    have := h.length_le
    omega
  | succ depth ih =>
    rw [Context.walk, Context.walk]
    refine gather_congr (fun p hp => ?_) {}
    obtain ⟨d, hget, hsecure⟩ := h.below hp
    have hd' : ctx.index.names.length + 2 ≤ depth + (chain ++ [d.name]).length := by
      simp only [List.length_append, List.length_singleton]
      omega
    simp only [Context.valuesBy, hget]
    rw [ih hsecure hd']

lemma Secure.walk_eq {ctx : Context} {depth depth' : Nat} {chain : List Text} {c : Command}
    (h : Secure ctx.index chain c) (hd : ctx.index.names.length + 2 ≤ depth + chain.length)
    (hle : depth ≤ depth') : ctx.walk depth' c = ctx.walk depth c := by
  induction hle with
  | refl => rfl
  | @step n hn ih =>
    have hn' : depth ≤ n := hn
    rw [h.walk_succ (by omega), ih]

/-- The names that are being resolved in a call, outermost first. -/
def Call.chain : Call → List Text
  | .inputs around c => around ++ [c.name]
  | .values around _ => around

/-- The call does not fail for a reference, whatever is answered in it. -/
def Context.Trusts (ctx : Context) : Call → Prop
  | .inputs around c => Blameless (ctx.resolve around c)
  | .values around p => Blameless (ctx.values around p)

lemma Context.depth_suffices (ctx : Context) {chain : List Text} (h : chain ≠ []) :
    ctx.index.names.length + 2 ≤ ctx.depth + chain.length := by
  have hpos := List.length_pos_iff.mpr h
  have hnames : ctx.index.names.length = ctx.index.commands.length := List.length_map _
  unfold Context.depth
  omega

lemma Context.resolve_refused {ctx : Context} {top : Command} {e : Failure}
    (h : check ctx.index [top.name] top = .error e) : ctx.resolve [] top = .fail e := by
  simp [Context.resolve, h]

lemma Context.resolve_accepted {ctx : Context} {top : Command}
    (h : check ctx.index [top.name] top = .ok ()) :
    ctx.resolve [] top = ctx.walk ctx.depth top := by
  simp [Context.resolve, h]

/-- Nothing is asked for a command without placeholders. -/
lemma Context.resolve_plain (ctx : Context) {c : Command} (h : c.placeholders = []) :
    ctx.resolve [] c = .done {} := by
  have accepted : check ctx.index [c.name] c = .ok () := by
    unfold check
    rw [h]
    unfold checkAll
    rfl
  rw [resolve_accepted accepted]
  change gather _ {} c.placeholders = _
  rw [h]
  rfl

lemma Context.resolve_nested (ctx : Context) {around : List Text} (h : around ≠ []) (c : Command) :
    ctx.resolve around c = ctx.walk ctx.depth c := by
  unfold Context.resolve
  rw [if_neg (by simpa using h)]

lemma Call.Secure.distinct {index : Index} {call : Call} (h : call.Secure index) :
    call.chain.Nodup ∧ call.chain.length ≤ index.names.length + 1 := by
  cases call with
  | inputs around c => exact ⟨h.2.distinct, h.2.length_le⟩
  | values around p =>
    obtain ⟨c, hc, -⟩ := h
    exact ⟨hc.distinct, hc.length_le⟩

lemma Call.Secure.trusted {ctx : Context} {call : Call} (h : call.Secure ctx.index) :
    ctx.Trusts call := by
  cases call with
  | inputs around c =>
    change Blameless (ctx.resolve around c)
    rw [ctx.resolve_nested h.1]
    exact h.2.blameless_walk (ctx.depth_suffices h.2.started)
  | values around p =>
    obtain ⟨c, hc, hp⟩ := h
    obtain ⟨d, hget, hsecure⟩ := hc.below hp
    change Blameless (ctx.valuesBy (ctx.resolve around) _ p)
    simp only [Context.valuesBy, hget]
    rw [ctx.resolve_nested hc.started]
    refine (hsecure.blameless_walk (ctx.depth_suffices hsecure.started)).bind fun inputs => ?_
    exact (failsBy_offer ctx p d inputs _).blameless

/-- A resolution that fails for a reference has asked nothing. If the references of the command
are accepted, then whatever is answered, the run comes to an end that is no failure for a
reference, at any depth that the index allows; and it is a narrated one, each of whose calls has a
chain of different names, no longer than the index by more than one, and cannot fail so either. -/
theorem resolve_checks_references (ctx : Context) (top : Command)
    (answering : Answering Question) (own : OwnFailures answering) :
    (∀ e, ((ctx.resolve [] top).held answering).1 = .error e → isReferenceFailure e = true →
      ((ctx.resolve [] top).held answering).2 = []) ∧
    (check ctx.index [top.name] top = .ok () →
      (∀ e, ((ctx.resolve [] top).held answering).1 = .error e → isReferenceFailure e = false) ∧
      (∀ depth, ctx.index.names.length < depth → ctx.walk depth top = ctx.resolve [] top) ∧
      ∃ moves, (ctx.walkAloud ctx.depth [] top).Ends moves ((ctx.resolve [] top).held answering).1 ∧
        questions moves = ((ctx.resolve [] top).held answering).2 ∧
        ∀ call ∈ calls moves, call.chain.Nodup ∧
          call.chain.length ≤ ctx.index.names.length + 1 ∧ ctx.Trusts call) := by
  obtain ⟨hends, hgave⟩ := (ctx.resolve [] top).held_ends answering
  generalize (ctx.resolve [] top).held answering = end_ at hends hgave ⊢
  obtain ⟨r, log⟩ := end_
  dsimp only at hends hgave ⊢
  cases hcheck : check ctx.index [top.name] top with
  | error e =>
    have hfail : ctx.resolve [] top = .fail e := by simp [Context.resolve, hcheck]
    rw [hfail] at hends
    cases hends
    exact ⟨fun _ _ _ => rfl, fun h => nomatch h⟩
  | ok u =>
    have hsecure := secure_of_check hcheck
    have hdepth := ctx.depth_suffices hsecure.started
    have hwalk : ctx.resolve [] top = ctx.walk ctx.depth top := by simp [Context.resolve, hcheck]
    rw [hwalk, ← walkAloud_silently ctx ctx.depth [] top] at hends
    obtain ⟨moves, hm, rfl⟩ := ends_of_silent hends
    obtain ⟨hsound, hcalls⟩ := Secure.orderly hsecure hdepth moves r hm (own.log hgave)
    refine ⟨fun e he href => ?_, fun _ => ⟨hsound, fun depth hd => ?_, moves, hm, rfl, ?_⟩⟩
    · rw [hsound e he] at href
      cases href
    · rw [hwalk]
      rcases Nat.le_total depth ctx.depth with hle | hle
      · exact (hsecure.walk_eq (by simpa using Nat.succ_le_of_lt hd) hle).symm
      · exact hsecure.walk_eq hdepth hle
    · intro call hcall
      have hs := hcalls call hcall
      exact ⟨hs.distinct.1, hs.distinct.2, hs.trusted⟩

/-- Two commands that refer to the same third one. -/
def sharing : Context where
  index := .ofList [
    { name := "a", placeholders := [{ target := .argument, name := "c" }] },
    { name := "b", placeholders := [{ target := .input, name := "c" }] },
    { name := "c" }]

def sharingTop : Command where
  name := "top"
  placeholders := [{ target := .argument, name := "a" }, { target := .argument, name := "b" }]

/-- Every command puts out one line, and everything that is offered is chosen. -/
def answerAll : Answering Question
  | _, .output .. => .ok "x\n"
  | _, .selection _ cs => .ok (.chosen (cs.map Candidate.value))

lemma answerAll_own : OwnFailures answerAll := by
  intro log q e h
  cases q <;> cases h

/-- A shared reference is accepted; its command is asked for twice, on two chains. -/
theorem resolve_shared_reference :
    OwnFailures answerAll ∧ check sharing.index ["top"] sharingTop = .ok () ∧
      ((sharing.resolve [] sharingTop).held answerAll).2.length = 8 ∧
      ∃ moves, (sharing.walkAloud sharing.depth [] sharingTop).Ends moves
          ((sharing.resolve [] sharingTop).held answerAll).1 ∧
        questions moves = ((sharing.resolve [] sharingTop).held answerAll).2 ∧
        ∀ call ∈ calls moves, call.chain.Nodup ∧
          call.chain.length ≤ sharing.index.names.length + 1 ∧ sharing.Trusts call := by
  have hcheck : check sharing.index [sharingTop.name] sharingTop = .ok () := by cbv
  have hwalk : sharing.resolve [] sharingTop = sharing.walk sharing.depth sharingTop := by
    simp [Context.resolve, hcheck]
  have h := resolve_checks_references sharing sharingTop answerAll answerAll_own
  exact ⟨answerAll_own, hcheck, by rw [hwalk]; decide +kernel, (h.2 hcheck).2.2⟩

end Runbook.Resolution
