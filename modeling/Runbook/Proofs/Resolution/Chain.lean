import Mathlib.Tactic.Common
import Runbook.Proofs.Resolution.Trail

/-! A chain that is given to a resolution. It names the commands that are being resolved already, and
leading back into it would be a cycle; but references are checked only where it is empty, and the
walk does not look at it. -/
namespace Runbook.Resolution

/-- There is a command for every name that some placeholders lead to. -/
def Complete (index : Index) (ps : List Placeholder) : Prop :=
  ∀ name, Reached index ps name → index.contains name = true

/-- A command leads back to itself, or to one that is being resolved already. -/
def LeadsBack (index : Index) (chain : List Text) (c : Command) : Prop :=
  ∃ name, Reached index c.placeholders name ∧ (name ∈ chain ∨ name = c.name)

/-- A command that leads back to itself is refused for a cycle, if there is nothing else to refuse
it for. -/
lemma check_leadsBack {index : Index} {top : Command} (complete : Complete index top.placeholders)
    (back : LeadsBack index [] top) :
    ∃ path, check index [top.name] top = .error (.cyclicReference path) := by
  cases h : check index [top.name] top with
  | ok u =>
    obtain ⟨name, ⟨p, hp, hl⟩, hname⟩ := back
    cases (grounded_of_check h hp).leads hl with
    | intro clear _ _ => exact absurd hname (by simpa using clear)
  | error e =>
    rcases check_error h with ⟨name, -, hr, hnone⟩ | ⟨names, name, -, rfl, -, -⟩
    · have hsome := complete name hr
      rw [Index.contains, hnone] at hsome
      cases hsome
    · exact ⟨names ++ [name], rfl⟩

/-! ### Failures of the walk -/

/-- A failure other than for a cycle. -/
def IsAcyclic (e : Failure) : Prop := ∀ path, e ≠ .cyclicReference path

lemma isAcyclic_of_not_reference {e : Failure} (h : isReferenceFailure e = false) :
    IsAcyclic e := by
  rintro path rfl
  cases h

lemma FailsBy.answered {α : Type} {d : Course α} (h : FailsBy IsAcyclic d)
    {log : List (Exchanged Question)} {path : List Text}
    (ends : d.Ends log (.error (.cyclicReference path))) :
    Answered log (.cyclicReference path) :=
  (h _ _ ends).resolve_left fun hown => hown path rfl

lemma FailsBy.not_refused {α : Type} {d : Course α} (h : FailsBy IsAcyclic d) (path : List Text) :
    d ≠ .fail (.cyclicReference path) := by
  rintro rfl
  obtain ⟨x, hx, -⟩ := h.answered (.fail _)
  cases hx

lemma failsBy_valuesBy (ctx : Context) {resolve : Command → Course Inputs} (wantedBy : Text)
    (p : Placeholder) (h : ∀ c, FailsBy IsAcyclic (resolve c)) :
    FailsBy IsAcyclic (ctx.valuesBy resolve wantedBy p) := by
  unfold Context.valuesBy
  split
  · exact failsBy_fail fun _ => nofun
  · next c hc =>
    refine (h c).bind fun inputs => ?_
    exact (failsBy_offer ctx p c inputs wantedBy).mono fun _ => isAcyclic_of_not_reference

lemma failsBy_gather {own : Failure → Prop} {values : Placeholder → Course (List Text)}
    (h : ∀ p, FailsBy own (values p)) (inputs : Inputs) (ps : List Placeholder) :
    FailsBy own (gather values inputs ps) := by
  induction ps generalizing inputs with
  | nil => exact failsBy_done inputs
  | cons p ps ih => exact (h p).bind fun vs => ih _

/-- The walk knows no cycles, at any depth. -/
theorem failsBy_walk (ctx : Context) (depth : Nat) (c : Command) :
    FailsBy IsAcyclic (ctx.walk depth c) := by
  induction depth generalizing c with
  | zero => exact failsBy_fail fun _ => nofun
  | succ depth ih =>
    rw [Context.walk]
    exact failsBy_gather (fun p => failsBy_valuesBy ctx c.name p ih) {} c.placeholders

section Given
variable {ctx : Context} {chain : List Text}

/-- With a chain there is only the walk. -/
lemma failsBy_resolve (given : chain ≠ []) (c : Command) :
    FailsBy IsAcyclic (ctx.resolve chain c) := by
  rw [ctx.resolve_nested given]
  exact failsBy_walk ctx ctx.depth c

lemma failsBy_values (given : chain ≠ []) (p : Placeholder) :
    FailsBy IsAcyclic (ctx.values chain p) :=
  failsBy_valuesBy ctx _ p (failsBy_resolve given)

end Given

/-! ### Successful walks -/

/-- Every way on from the placeholders that a walk went through comes to an end. -/
lemma PostOrder.grounded {ctx : Context} {wantedBy : Text} {ps : List Placeholder}
    {log : List (Exchanged Question)} {taken : List (Placeholder × List Text)}
    (h : PostOrder ctx wantedBy ps log taken) : ∀ p ∈ ps, Grounded ctx.index [] p.name := by
  induction h with
  | nil => exact List.forall_mem_nil _
  | cons found _ _ _ _ ihBelow ih =>
    have hp := Grounded.intro (List.not_mem_nil) found ihBelow
    exact List.forall_mem_cons.mpr ⟨hp, ih⟩

lemma walk_of_resolve {ctx : Context} {chain : List Text} {c : Command} {inputs : Inputs}
    {log : List (Exchanged Question)} (h : (ctx.resolve chain c).Ends log (.ok inputs)) :
    (ctx.walk ctx.depth c).Ends log (.ok inputs) := by
  unfold Context.resolve at h
  split at h
  · split at h
    · cases h
    · exact h
  · exact h

/-- No resolution of a command that leads to a cycle succeeds, with or without a chain. -/
theorem resolve_not_ok {ctx : Context} {chain : List Text} {c : Command} {name : Text}
    (reached : Reached ctx.index c.placeholders name)
    (cycle : Relation.TransGen (Refers ctx.index) name name) (log : List (Exchanged Question))
    (inputs : Inputs) : ¬ (ctx.resolve chain c).Ends log (.ok inputs) := by
  intro h
  obtain ⟨taken, horder, -⟩ := postOrder_of_walk (walk_of_resolve h)
  obtain ⟨p, hp, hl⟩ := reached
  exact ((horder.grounded p hp).leads hl).not_leads_back cycle

/-- A command that leads back to itself or into the chain, and to nothing that is missing, is refused
for a cycle exactly if no chain is given, and so is a placeholder for it. With a chain no course ends
for a cycle, unless that was an answer; but none succeeds either where there is a cycle among the
commands that are reached. -/
theorem resolve_heeds_no_chain (ctx : Context) (chain : List Text) :
    (∀ c, Complete ctx.index c.placeholders → LeadsBack ctx.index chain c →
      ((∃ path, ctx.resolve chain c = .fail (.cyclicReference path)) ↔ chain = [])) ∧
    (∀ p c, ctx.index.get? p.name = some c → Complete ctx.index c.placeholders →
      LeadsBack ctx.index chain c →
      ((∃ path, ctx.values chain p = .fail (.cyclicReference path)) ↔ chain = [])) ∧
    (chain ≠ [] → ∀ log path,
      (∀ c, (ctx.resolve chain c).Ends log (.error (.cyclicReference path)) →
        Answered log (.cyclicReference path)) ∧
      ∀ p, (ctx.values chain p).Ends log (.error (.cyclicReference path)) →
        Answered log (.cyclicReference path)) ∧
    ∀ c name, Reached ctx.index c.placeholders name →
      Relation.TransGen (Refers ctx.index) name name →
      ∀ log inputs, ¬ (ctx.resolve chain c).Ends log (.ok inputs) := by
  have refused {c : Command} (complete : Complete ctx.index c.placeholders)
      (back : LeadsBack ctx.index [] c) :
      ∃ path, ctx.resolve [] c = .fail (.cyclicReference path) := by
    obtain ⟨path, hpath⟩ := check_leadsBack complete back
    exact ⟨path, Context.resolve_refused hpath⟩
  refine ⟨fun c complete back => ⟨?_, ?_⟩, fun p c found complete back => ⟨?_, ?_⟩,
    fun given log path => ⟨fun c => ?_, fun p => ?_⟩, fun c name => resolve_not_ok⟩
  · rintro ⟨path, hpath⟩
    by_contra given
    exact (failsBy_resolve given c).not_refused path hpath
  · rintro rfl
    exact refused complete back
  · rintro ⟨path, hpath⟩
    by_contra given
    exact (failsBy_values given p).not_refused path hpath
  · rintro rfl
    obtain ⟨path, hpath⟩ := refused complete back
    refine ⟨path, ?_⟩
    rw [Context.values, Context.valuesBy, found]
    change (ctx.resolve [] c).bind _ = _
    rw [hpath]
    rfl
  · exact (failsBy_resolve given c).answered
  · exact (failsBy_values given p).answered

/-- A command that refers to a single one. -/
def referring (name other : Text) : Command where
  name
  placeholders := [{ target := .argument, name := other }]

/-- One command refers to another one, and one to itself. -/
def linked : Context where
  index := .ofList [{ name := "x" }, referring "y" "x", referring "z" "z"]

lemma complete_linked {ps : List Placeholder}
    (h : ∀ p ∈ ps, p.name ∈ (["x", "y", "z"] : List Text)) : Complete linked.index ps := by
  intro name hr
  have hmem : name ∈ (["x", "y", "z"] : List Text) := hr.mem h (by decide +kernel)
  have hall : ∀ n ∈ (["x", "y", "z"] : List Text), linked.index.contains n = true := by
    decide +kernel
  exact hall name hmem

lemma reached_referring (index : Index) (name other : Text) :
    Reached index (referring name other).placeholders other :=
  ⟨_, List.mem_cons_self .., .refl⟩

/-- The output of the command that is being resolved is asked for, and the resolution succeeds. -/
theorem resolve_into_chain :
    Complete linked.index (referring "top" "x").placeholders ∧
      LeadsBack linked.index ["x"] (referring "top" "x") ∧
      (¬ ∃ path, linked.resolve ["x"] (referring "top" "x") = .fail (.cyclicReference path)) ∧
      ((linked.resolve ["x"] (referring "top" "x")).held answerFirst).1 =
        .ok { arguments := ["x"] } := by
  have succeeds : ((linked.resolve ["x"] (referring "top" "x")).held answerFirst).1 =
      .ok { arguments := ["x"] } := by
    rw [linked.resolve_nested (List.cons_ne_nil _ _)]
    decide +kernel
  refine ⟨complete_linked (by decide), ⟨_, reached_referring .., .inl (by decide)⟩, ?_, succeeds⟩
  rintro ⟨path, hpath⟩
  rw [hpath] at succeeds
  cases succeeds

/-- The command that refers to itself is refused without a chain; with one it does not succeed. -/
theorem resolve_linked :
    (¬ ∃ path, linked.resolve ["x"] (referring "top" "x") = .fail (.cyclicReference path)) ∧
      (¬ ∃ path, linked.values ["x"] { target := .input, name := "y" } =
        .fail (.cyclicReference path)) ∧
      (∀ log path,
        (linked.resolve ["x"] (referring "top" "x")).Ends log (.error (.cyclicReference path)) →
          Answered log (.cyclicReference path)) ∧
      (∃ path, linked.resolve [] (referring "z" "z") = .fail (.cyclicReference path)) ∧
      ∀ log inputs, ¬ (linked.resolve ["x"] (referring "z" "z")).Ends log (.ok inputs) := by
  have given := resolve_heeds_no_chain linked ["x"]
  have back (name : Text) : LeadsBack linked.index ["x"] (referring name "x") :=
    ⟨"x", reached_referring .., .inl (by decide)⟩
  have hz : LeadsBack linked.index [] (referring "z" "z") :=
    ⟨"z", reached_referring .., .inr rfl⟩
  have found : linked.index.get? "y" = some (referring "y" "x") := by cbv
  have cycle : Refers linked.index "z" "z" :=
    ⟨referring "z" "z", by cbv, _, List.mem_cons_self .., rfl⟩
  refine ⟨fun h => ?_, fun h => ?_, fun log path => (given.2.2.1 (by decide) log path).1 _,
    ?_, given.2.2.2 _ "z" (reached_referring ..) (.single cycle)⟩
  · have := (given.1 _ (complete_linked (by decide)) (back "top")).mp h
    cases this
  · have := (given.2.1 _ _ found (complete_linked (by decide)) (back "y")).mp h
    cases this
  · exact ((resolve_heeds_no_chain linked []).1 _ (complete_linked (by decide)) hz).mpr rfl

end Runbook.Resolution
