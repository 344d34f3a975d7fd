import Mathlib.Logic.Relation
import Mathlib.Tactic.Common
import Runbook.Proofs.Resolution.PostOrder

/-! What a resolution depends on. Of all commands only those count that can be reached from the top
command's placeholders: the check of references and the walk look up no other name. -/
namespace Runbook.Resolution

/-- A name that some placeholders lead to, directly or through the placeholders of the commands
between. -/
def Reached (index : Index) (ps : List Placeholder) (name : Text) : Prop :=
  ∃ p ∈ ps, Relation.ReflTransGen (Refers index) p.name name

/-- Both indexes have the same command, or none, under every name that some placeholders lead to. -/
def AgreeFrom (index other : Index) (ps : List Placeholder) : Prop :=
  ∀ name, Reached index ps name → index.get? name = other.get? name

/-- Names that are closed under references hold all that is reached from them. -/
lemma Reached.mem {index : Index} {ps : List Placeholder} {names : List Text} {name : Text}
    (h : Reached index ps name) (start : ∀ p ∈ ps, p.name ∈ names)
    (closed : ∀ n ∈ names, ∀ c ∈ index.get? n, ∀ p ∈ c.placeholders, p.name ∈ names) :
    name ∈ names := by
  obtain ⟨p, hp, hl⟩ := h
  induction hl with
  | refl => exact start p hp
  | tail _ hr ih =>
    obtain ⟨c, hc, q, hq, rfl⟩ := hr
    exact closed _ ih c hc q hq

namespace AgreeFrom
variable {index other : Index} {p : Placeholder} {ps qs : List Placeholder} {c : Command}

lemma look (h : AgreeFrom index other ps) (hp : p ∈ ps) :
    index.get? p.name = other.get? p.name := h p.name ⟨p, hp, .refl⟩

lemma mono (h : AgreeFrom index other ps) (hqs : qs ⊆ ps) : AgreeFrom index other qs := by
  rintro name ⟨q, hq, hl⟩
  exact h name ⟨q, hqs hq, hl⟩

/-- The step from a command to one that it refers to. -/
lemma below (h : AgreeFrom index other ps) (hp : p ∈ ps) (hc : index.get? p.name = some c) :
    AgreeFrom index other c.placeholders := by
  rintro name ⟨q, hq, hl⟩
  have hr : Refers index p.name q.name := ⟨c, hc, q, hq, rfl⟩
  exact h name ⟨p, hp, .head hr hl⟩

end AgreeFrom

/-! ### The check of references -/

lemma checkAll_missing {index : Index} {chain known : List Text} {p : Placeholder}
    {ps : List Placeholder} (h : index.get? p.name = none) :
    checkAll index chain known (p :: ps) = .error (.unknownReference p.name) := by
  rw [checkAll]
  split
  · rfl
  · simp_all

lemma checkAll_found {index : Index} {chain known : List Text} {p : Placeholder}
    {ps : List Placeholder} {c : Command} (h : index.get? p.name = some c) :
    checkAll index chain known (p :: ps) =
      if p.name ∈ chain then .error (.cyclicReference (chain ++ [p.name]))
      else if p.name ∈ known then checkAll index chain known ps
      else (checkAll index (chain ++ [p.name]) known c.placeholders).bind fun known =>
        checkAll index chain (p.name :: known) ps := by
  rw [checkAll]
  split
  · simp_all
  · next d hd =>
    obtain rfl : c = d := Option.some.inj (h.symm.trans hd)
    split
    · rfl
    · split
      · rfl
      · cases checkAll index (chain ++ [p.name]) known c.placeholders <;> rfl

/-- The check looks at no command that is not reached. -/
theorem checkAll_congr {index other : Index} {chain known : List Text} {ps : List Placeholder}
    (h : AgreeFrom index other ps) :
    checkAll index chain known ps = checkAll other chain known ps := by
  fun_induction checkAll index chain known ps with
  | case1 => rw [checkAll]
  | case2 chain known p ps hc =>
    rw [checkAll_missing ((h.look (List.mem_cons_self ..)).symm.trans hc)]
  | case3 chain known p ps c hc hchain =>
    rw [checkAll_found ((h.look (List.mem_cons_self ..)).symm.trans hc), if_pos hchain]
  | case4 chain known p ps c hc hchain hknown ih =>
    rw [checkAll_found ((h.look (List.mem_cons_self ..)).symm.trans hc), if_neg hchain,
      if_pos hknown]
    exact ih (h.mono (List.subset_cons_self ..))
  | case5 chain known p ps c hc hchain hknown hlt e he ih =>
    have hbelow := ih (h.below (List.mem_cons_self ..) hc)
    rw [checkAll_found ((h.look (List.mem_cons_self ..)).symm.trans hc), if_neg hchain,
      if_neg hknown, ← hbelow, he]
    rfl
  | case6 chain known p ps c hc hchain hknown hlt known' hk ih₁ ih =>
    have hbelow := ih₁ (h.below (List.mem_cons_self ..) hc)
    rw [checkAll_found ((h.look (List.mem_cons_self ..)).symm.trans hc), if_neg hchain,
      if_neg hknown, ← hbelow, hk]
    exact ih (h.mono (List.subset_cons_self ..))

lemma check_congr {index other : Index} {c : Command} (chain : List Text)
    (h : AgreeFrom index other c.placeholders) : check index chain c = check other chain c := by
  rw [check, check, checkAll_congr h]

/-! ### The walk -/

/-- Nor does the walk, at any depth. -/
theorem walk_congr {index other : Index} (options : SelectionOptions) (depth : Nat) {c : Command}
    (h : AgreeFrom index other c.placeholders) :
    Context.walk ⟨index, options⟩ depth c = Context.walk ⟨other, options⟩ depth c := by
  induction depth generalizing c with
  | zero => rfl
  | succ depth ih =>
    rw [Context.walk, Context.walk]
    refine gather_congr (fun p hp => ?_) {}
    rw [Context.valuesBy, Context.valuesBy]
    have hlook : (⟨other, options⟩ : Context).index.get? p.name = index.get? p.name :=
      (h.look hp).symm
    rw [hlook]
    cases hd : index.get? p.name with
    | none => rfl
    | some d =>
      change (Context.walk _ depth d).bind _ = (Context.walk _ depth d).bind _
      rw [ih (h.below hp hd)]
      rfl

/-- The whole resolution is the same. The two indexes differ in size, and so do the depths to which
they are followed, but neither depth is ever felt. -/
theorem resolve_congr {index other : Index} (options : SelectionOptions) {top : Command}
    (h : AgreeFrom index other top.placeholders) :
    Context.resolve ⟨index, options⟩ [] top = Context.resolve ⟨other, options⟩ [] top := by
  let first : Context := ⟨index, options⟩
  let second : Context := ⟨other, options⟩
  change first.resolve [] top = second.resolve [] top
  have hcheck := check_congr [top.name] h
  cases hc : check index [top.name] top with
  | error e =>
    have hc' : check other [top.name] top = .error e := hcheck.symm.trans hc
    rw [Context.resolve_refused hc, Context.resolve_refused hc']
  | ok u =>
    have hc' : check other [top.name] top = .ok () := hcheck.symm.trans hc
    have hfirst := first.depth_suffices (List.cons_ne_nil top.name [])
    have hsecond := second.depth_suffices (List.cons_ne_nil top.name [])
    rw [Context.resolve_accepted hc, Context.resolve_accepted hc']
    calc first.walk first.depth top
        = first.walk (max first.depth second.depth) top :=
          ((secure_of_check hc).walk_eq hfirst (Nat.le_max_left ..)).symm
      _ = second.walk (max first.depth second.depth) top := walk_congr options _ h
      _ = second.walk second.depth top :=
          (secure_of_check hc').walk_eq hsecond (Nat.le_max_right ..)

/-! ### Lists of commands -/

/-- One more command in a list changes nothing for the names that another command has before it, and
for those that are not its own. -/
lemma agreeFrom_insert {front back : List Command} {c : Command} {ps : List Placeholder}
    (h : c.name ∈ front.map Command.name ∨ ¬ Reached (.ofList (front ++ back)) ps c.name) :
    AgreeFrom (.ofList (front ++ back)) (.ofList (front ++ c :: back)) ps := by
  intro name hr
  rw [Index.get?_ofList, Index.get?_ofList]
  unfold Index.find?
  rw [List.find?_append, List.find?_append]
  cases hf : front.find? fun d => d.name = name with
  | some d => rfl
  | none =>
    have hne : c.name ≠ name := by
      rintro rfl
      rcases h with h | h
      · obtain ⟨d, hd, hn⟩ := List.mem_map.mp h
        exact List.find?_eq_none.mp hf d hd (by simpa using hn)
      · exact h hr
    rw [List.find?_cons_of_neg (by simpa using hne)]

/-- Commands that cannot be reached do not matter: a resolution asks the same questions and comes to
the same end, whoever answers, when two lists of commands have the same first commands under all
names that are reached. So it does when a command is added behind another one of its name, and when
one that is not reached is added, taken away or, by both, replaced. -/
theorem resolve_reached_only (options : SelectionOptions) (top : Command) :
    (∀ cs others : List Command,
      (∀ name, Reached (.ofList cs) top.placeholders name →
        (Index.ofList cs).get? name = (Index.ofList others).get? name) →
      ∀ answering, (Context.resolve ⟨.ofList cs, options⟩ [] top).held answering =
        (Context.resolve ⟨.ofList others, options⟩ [] top).held answering) ∧
      ∀ (front back : List Command) (c : Command),
        (c.name ∈ front.map Command.name ∨
          ¬ Reached (.ofList (front ++ back)) top.placeholders c.name) →
        ∀ answering, (Context.resolve ⟨.ofList (front ++ back), options⟩ [] top).held answering =
          (Context.resolve ⟨.ofList (front ++ c :: back), options⟩ [] top).held answering := by
  refine ⟨fun cs others agree answering => ?_, fun front back c h answering => ?_⟩
  · rw [resolve_congr options agree]
  · rw [resolve_congr options (agreeFrom_insert h)]

/-- The layered commands among others: one that refers to itself, one with a missing reference, and
later ones of names that are taken. -/
def crowded : List Command :=
  { name := "loop", placeholders := [{ target := .argument, name := "loop" }] } ::
    { name := "torn", placeholders := [{ target := .input, name := "gone" }] } ::
    layered.index.commands ++ [{ name := "hosts", source := "other" }, { name := "paths" }]

lemma reached_layered {name : Text}
    (h : Reached (.ofList layered.index.commands) layeredTop.placeholders name) :
    name ∈ (["paths", "hosts"] : List Text) := by
  refine h.mem (by decide) ?_
  decide +kernel

theorem resolve_crowded :
    (∀ name, Reached (.ofList layered.index.commands) layeredTop.placeholders name →
      (Index.ofList layered.index.commands).get? name = (Index.ofList crowded).get? name) ∧
    (Context.resolve ⟨.ofList layered.index.commands, {}⟩ [] layeredTop).held answerFirst =
      (Context.resolve ⟨.ofList crowded, {}⟩ [] layeredTop).held answerFirst := by
  have agree : ∀ name, Reached (.ofList layered.index.commands) layeredTop.placeholders name →
      (Index.ofList layered.index.commands).get? name = (Index.ofList crowded).get? name := by
    have hall : ∀ name ∈ (["paths", "hosts"] : List Text),
        (Index.ofList layered.index.commands).get? name = (Index.ofList crowded).get? name := by
      decide +kernel
    exact fun name h => hall name (reached_layered h)
  exact ⟨agree, (resolve_reached_only {} layeredTop).1 _ _ agree answerFirst⟩

end Runbook.Resolution
