import Mathlib.Tactic.Common
import Runbook.Proofs.Resolution.Gathering
import Runbook.Proofs.Resolution.Nesting

/-! What a resolution that succeeds has asked, and in which order: a walk over the tree of
references, where what is named comes before what names it. -/
namespace Runbook.Resolution

/-- What is asked about an output for a placeholder, and the values that are taken. There is no
question where all are taken; otherwise there is one, and what is chosen is taken. -/
inductive Taken (options : SelectionOptions) (p : Placeholder) (text : Text) :
    List (Exchanged Question) → List Text → Prop
  | all {menu : Menu} (shaped : Menu.ofOutput p.format text = .ok menu)
      (listed : p.takesAll = true) : Taken options p text [] (menu.candidates.map Candidate.value)
  | chosen {menu : Menu} {values : List Text} (shaped : Menu.ofOutput p.format text = .ok menu)
      (unlisted : p.takesAll = false) :
      Taken options p text
        [⟨.selection
          { exact := options.exact, ignoreCase := options.ignoreCase, multiple := p.multiple
            query := p.filter, prompt := some p.name, header := menu.header }
          menu.candidates, .ok (.chosen values)⟩]
        values

/-- The walk over the references of some placeholders, from left to right: all that is asked for
the command that a placeholder names, then that command's output, started with the inputs that its
own placeholders gave it, then the selection. -/
inductive PostOrder (ctx : Context) :
    Text → List Placeholder → List (Exchanged Question) → List (Placeholder × List Text) → Prop
  | nil (wantedBy : Text) : PostOrder ctx wantedBy [] [] []
  | cons {wantedBy text : Text} {p : Placeholder} {ps : List Placeholder} {d : Command}
      {inputs : Inputs} {below asked log : List (Exchanged Question)} {values : List Text}
      {takenBelow taken : List (Placeholder × List Text)}
      (found : ctx.index.get? p.name = some d)
      (references : PostOrder ctx d.name d.placeholders below takenBelow)
      (gathered : inputs.Holds takenBelow)
      (selected : Taken ctx.options p text asked values)
      (others : PostOrder ctx wantedBy ps log taken) :
      PostOrder ctx wantedBy (p :: ps)
        (below ++ ⟨.output d inputs wantedBy, .ok text⟩ :: (asked ++ log)) ((p, values) :: taken)

/-! ### From the run to the walk -/

lemma output_ends {c : Command} {inputs : Inputs} {wantedBy text : Text}
    {log : List (Exchanged Question)} (h : (output c inputs wantedBy).Ends log (.ok text)) :
    log = [⟨.output c inputs wantedBy, .ok text⟩] := by
  cases h with
  | @ask _ _ a _ _ tail =>
    cases a with
    | error e => cases tail
    | ok text' =>
      cases tail
      rfl

lemma selection_ends {o : SelectionOptions} {cs : List Candidate} {s : Selection}
    {log : List (Exchanged Question)} (h : (selection o cs).Ends log (.ok s)) :
    log = [⟨.selection o cs, .ok s⟩] := by
  cases h with
  | @ask _ _ a _ _ tail =>
    cases a with
    | error e => cases tail
    | ok s' =>
      cases tail
      rfl

lemma accept_ends {p : Placeholder} {s : Selection} {values : List Text}
    {log : List (Exchanged Question)} (h : (accept p s).Ends log (.ok values)) :
    s = .chosen values ∧ log = [] := by
  cases s <;> cases h
  exact ⟨rfl, rfl⟩

lemma choose_ends {ctx : Context} {p : Placeholder} {text : Text} {values : List Text}
    {log : List (Exchanged Question)} (h : (ctx.choose p text).Ends log (.ok values)) :
    Taken ctx.options p text log values := by
  unfold Context.choose at h
  split at h
  · cases h
  · cases h
  · cases h
  · next menu hmenu =>
    split at h
    · next hall =>
      cases h
      exact .all hmenu hall
    · next hall =>
      obtain ⟨s, front, back, hs, ha, rfl⟩ := h.of_bind_ok
      obtain ⟨rfl, rfl⟩ := accept_ends ha
      rw [selection_ends hs]
      exact .chosen hmenu (Bool.eq_false_iff.mpr hall)

/-- The questions for the placeholders of a command are walked in post-order if those for the
commands they name are. -/
lemma postOrder_of_gather {ctx : Context} {resolve : Command → Course Inputs} {wantedBy : Text}
    (below : ∀ d log inputs, (resolve d).Ends log (.ok inputs) →
      ∃ taken, PostOrder ctx d.name d.placeholders log taken ∧ inputs.Holds taken)
    {ps : List Placeholder} {past : List (Placeholder × List Text)} {start inputs : Inputs}
    {log : List (Exchanged Question)} (hstart : start.Holds past)
    (h : (gather (ctx.valuesBy resolve wantedBy) start ps).Ends log (.ok inputs)) :
    ∃ taken, PostOrder ctx wantedBy ps log taken ∧ inputs.Holds (past ++ taken) := by
  induction ps generalizing past start log with
  | nil =>
    cases h
    exact ⟨[], .nil wantedBy, by simpa using hstart⟩
  | cons p ps ih =>
    rw [gather] at h
    obtain ⟨values, front, back, hp, hps, rfl⟩ := h.of_bind_ok
    unfold Context.valuesBy at hp
    split at hp
    · cases hp
    · next d hd =>
      obtain ⟨given, asked, answered, hgiven, hoffer, rfl⟩ := hp.of_bind_ok
      obtain ⟨text, shown, chosen, htext, hvalues, rfl⟩ := hoffer.of_bind_ok
      obtain rfl := output_ends htext
      obtain ⟨takenBelow, hbelow, hholds⟩ := below d asked given hgiven
      obtain ⟨taken, hothers, hinputs⟩ := ih (hstart.add p values) hps
      refine ⟨(p, values) :: taken, ?_, ?_⟩
      · simpa using PostOrder.cons hd hbelow hholds (choose_ends hvalues) hothers
      · simpa using hinputs

/-- A walk that ends with inputs has asked in post-order. -/
theorem postOrder_of_walk {ctx : Context} {depth : Nat} {c : Command} {inputs : Inputs}
    {log : List (Exchanged Question)} (h : (ctx.walk depth c).Ends log (.ok inputs)) :
    ∃ taken, PostOrder ctx c.name c.placeholders log taken ∧ inputs.Holds taken := by
  induction depth generalizing c inputs log with
  | zero => cases h
  | succ depth ih =>
    rw [Context.walk] at h
    simpa using postOrder_of_gather (fun d log inputs => ih) Inputs.holds_nil h

/-! ### The commands that are evaluated -/

/-- The commands whose output was asked for, each with the name of the one that wanted it. -/
def evaluated : List (Exchanged Question) → List (Command × Text)
  | [] => []
  | ⟨.output c _ wantedBy, _⟩ :: log => (c, wantedBy) :: evaluated log
  | ⟨.selection .., _⟩ :: log => evaluated log

@[simp] lemma evaluated_append (front back : List (Exchanged Question)) :
    evaluated (front ++ back) = evaluated front ++ evaluated back := by
  induction front with
  | nil => rfl
  | cons x front ih =>
    obtain ⟨_ | _, a⟩ := x
    · exact congrArg (List.cons _) ih
    · exact ih

/-- The command that a placeholder names, after those below it. -/
def Context.belowReference (ctx : Context) (below : Command → List (Command × Text))
    (wantedBy : Text) (p : Placeholder) : List (Command × Text) :=
  match ctx.index.get? p.name with
  | none => []
  | some d => below d ++ [(d, wantedBy)]

/-- The commands below a command in the tree of references, in post-order and down to a depth, each
with the name of the one that wants it. A command stands there once for each way to it. -/
def Context.below (ctx : Context) : Nat → Command → List (Command × Text)
  | 0, _ => []
  | depth + 1, c => c.placeholders.flatMap (ctx.belowReference (ctx.below depth) c.name)

lemma Taken.evaluated_eq_nil {options : SelectionOptions} {p : Placeholder} {text : Text}
    {log : List (Exchanged Question)} {values : List Text} (h : Taken options p text log values) :
    evaluated log = [] := by
  cases h <;> rfl

/-- Nothing is evaluated but the tree, whatever the answers are, if the depth suffices for it. -/
lemma PostOrder.evaluated_eq {ctx : Context} {depth : Nat} {chain : List Text} {c : Command}
    {wantedBy : Text} {ps : List Placeholder} {log : List (Exchanged Question)}
    {taken : List (Placeholder × List Text)} (h : PostOrder ctx wantedBy ps log taken)
    (hc : Secure ctx.index chain c) (hps : ps ⊆ c.placeholders)
    (hd : ctx.index.names.length + 1 ≤ depth + chain.length) :
    evaluated log = ps.flatMap (ctx.belowReference (ctx.below depth) wantedBy) := by
  induction h generalizing depth chain c with
  | nil => rfl
  | @cons wantedBy text p ps d inputs below asked log values _ _ found _ _ selected _ ihBelow ih =>
    obtain ⟨hp, hps⟩ := List.cons_subset.mp hps
    obtain ⟨d', hd', hsecure⟩ := hc.below hp
    obtain rfl : d = d' := Option.some.inj (found.symm.trans hd')
    have hlength : (chain ++ [d.name]).length = chain.length + 1 := by simp
    have hle := hsecure.length_le
    -- The names that are not on the chain yet leave room for one more level.
    obtain ⟨rest, rfl⟩ : ∃ rest, depth = rest + 1 := Nat.exists_eq_succ_of_ne_zero (by omega)
    have hbelow : evaluated below = ctx.below (rest + 1) d :=
      ihBelow hsecure (List.Subset.refl _) (by omega)
    have hothers := ih hc hps hd
    rw [evaluated_append, hbelow, evaluated, evaluated_append, selected.evaluated_eq_nil,
      hothers, List.flatMap_cons, Context.belowReference, found]
    simp

/-- A resolution that succeeds has asked in post-order, and only for the tree of references; its
inputs are those that the values of the top command's placeholders make. -/
theorem resolve_post_order (ctx : Context) (top : Command) (answering : Answering Question)
    (accepted : check ctx.index [top.name] top = .ok ()) {inputs : Inputs}
    (succeeds : ((ctx.resolve [] top).held answering).1 = .ok inputs) :
    ∃ taken, PostOrder ctx top.name top.placeholders ((ctx.resolve [] top).held answering).2 taken ∧
      inputs.Holds taken ∧
      ∀ depth, ctx.index.names.length < depth →
        evaluated ((ctx.resolve [] top).held answering).2 = ctx.below depth top := by
  have hends := ((ctx.resolve [] top).held_ends answering).1
  have hwalk : ctx.resolve [] top = ctx.walk ctx.depth top := by simp [Context.resolve, accepted]
  rw [succeeds, hwalk] at hends
  rw [hwalk]
  obtain ⟨taken, horder, hholds⟩ := postOrder_of_walk hends
  refine ⟨taken, horder, hholds, fun depth hdepth => ?_⟩
  obtain ⟨rest, rfl⟩ : ∃ rest, depth = rest + 1 := Nat.exists_eq_succ_of_ne_zero (by omega)
  have hsecure := secure_of_check accepted
  exact horder.evaluated_eq hsecure (List.Subset.refl _) (Nat.succ_le_succ (Nat.le_of_lt_succ hdepth))

/-- A variable that is set from two references, one of which takes all, below a reference that is
named twice. -/
def layered : Context where
  index := .ofList [
    { name := "hosts" },
    { name := "paths"
      placeholders := [
        { target := .environment "AT", name := "hosts" },
        { target := .environment "AT", name := "hosts", takesAll := true }] }]

def layeredTop : Command where
  name := "top"
  placeholders := [
    { target := .argument, name := "paths", multiple := true },
    { target := .environment "IN", name := "paths", filter := some "x" },
    { target := .argument, name := "hosts", takesAll := true }]

/-- Every command puts out two lines, and the first candidate is chosen. -/
def answerFirst : Answering Question
  | _, .output .. => .ok "x\ny\n"
  | _, .selection _ cs => .ok (.chosen ((cs.map Candidate.value).take 1))

theorem resolve_layered :
    check layered.index ["top"] layeredTop = .ok () ∧
      ((layered.resolve [] layeredTop).held answerFirst).1 =
        .ok { arguments := ["x", "x", "y"], environment := [("IN", "x")] } ∧
      ∃ taken, PostOrder layered "top" layeredTop.placeholders
          ((layered.resolve [] layeredTop).held answerFirst).2 taken ∧
        Inputs.Holds { arguments := ["x", "x", "y"], environment := [("IN", "x")] } taken ∧
        ∀ depth, 2 < depth →
          evaluated ((layered.resolve [] layeredTop).held answerFirst).2 =
            layered.below depth layeredTop := by
  have accepted : check layered.index [layeredTop.name] layeredTop = .ok () := by cbv
  have hwalk : layered.resolve [] layeredTop = layered.walk layered.depth layeredTop := by
    simp [Context.resolve, accepted]
  have succeeds : ((layered.resolve [] layeredTop).held answerFirst).1 =
      .ok { arguments := ["x", "x", "y"], environment := [("IN", "x")] } := by
    rw [hwalk]
    decide +kernel
  exact ⟨accepted, succeeds, resolve_post_order layered layeredTop answerFirst accepted succeeds⟩

/-- What is named twice stands twice in the tree of references, with all that is below it. -/
example : (layered.below 3 layeredTop).map (fun x => (x.1.name, x.2)) =
    ([("hosts", "paths"), ("hosts", "paths"), ("paths", "top"), ("hosts", "paths"),
      ("hosts", "paths"), ("paths", "top"), ("hosts", "top")] : List (Text × Text)) := by
  decide +kernel

end Runbook.Resolution
