import Mathlib.Tactic.Common
import Runbook.Proofs.Resolution.Nesting
import Runbook.Proofs.Resolution.Reachability

/-! The check of references and the paths of references. The check leaves out what it knows to be
right; a plain one, which keeps nothing in mind, follows every path in full. Both come to the same
end, and the paths from the command decide which end that is. -/
namespace Runbook.Resolution

/-- Checks the references of some placeholders of the last command of a chain, each of them as if
it were the first. -/
def checkPlainly (index : Index) (chain : List Text) : List Placeholder → Except Failure Unit
  | [] => .ok ()
  | p :: ps =>
    match h : index.get? p.name with
    | none => .error (.unknownReference p.name)
    | some c =>
      if hc : p.name ∈ chain then .error (.cyclicReference (chain ++ [p.name]))
      else
        have := freeNames_lt (get?_mem_names h) hc
        match checkPlainly index (chain ++ [p.name]) c.placeholders with
        | .error e => .error e
        | .ok () => checkPlainly index chain ps
termination_by ps => (freeNames index chain, ps.length)

/-- A path of references from a command: the names on it, from that of the command on, and the
command that it comes to. -/
inductive Trail (index : Index) (top : Command) : List Text → Command → Prop
  | start : Trail index top [top.name] top
  | next {names : List Text} {c d : Command} {p : Placeholder} (before : Trail index top names c)
      (refers : p ∈ c.placeholders) (found : index.get? p.name = some d) :
      Trail index top (names ++ [p.name]) d

section Plain
variable {index : Index} {chain : List Text} {p : Placeholder} {ps : List Placeholder}

lemma checkPlainly_missing (h : index.get? p.name = none) :
    checkPlainly index chain (p :: ps) = .error (.unknownReference p.name) := by
  rw [checkPlainly]
  split
  · rfl
  · simp_all

lemma checkPlainly_found {c : Command} (h : index.get? p.name = some c) :
    checkPlainly index chain (p :: ps) =
      if p.name ∈ chain then .error (.cyclicReference (chain ++ [p.name]))
      else (checkPlainly index (chain ++ [p.name]) c.placeholders).bind fun _ =>
        checkPlainly index chain ps := by
  rw [checkPlainly]
  split
  · simp_all
  · next d hd =>
    obtain rfl : c = d := Option.some.inj (h.symm.trans hd)
    split
    · rfl
    · cases checkPlainly index (chain ++ [p.name]) c.placeholders <;> rfl

/-- Nothing is wrong with placeholders that are grounded. -/
lemma checkPlainly_grounded (h : ∀ p ∈ ps, Grounded index chain p.name) :
    checkPlainly index chain ps = .ok () := by
  fun_induction checkPlainly index chain ps with
  | case1 => rfl
  | case2 chain p ps hnone =>
    cases h p (List.mem_cons_self ..) with
    | intro _ found _ => cases hnone.symm.trans found
  | case3 chain p ps c hc hchain =>
    cases h p (List.mem_cons_self ..) with
    | intro clear _ _ => exact absurd hchain clear
  | case4 chain p ps c hc hchain hlt e he ih =>
    obtain ⟨hp, -⟩ := List.forall_mem_cons.mp h
    cases he.symm.trans (ih fun q hq => hp.below_avoids hc hq)
  | case5 chain p ps c hc hchain hlt hok ih₁ ih => exact ih (List.forall_mem_cons.mp h).2

end Plain

/-! ### What is known -/

/-- All that a known name refers to is known. -/
def Closed (index : Index) (known : List Text) : Prop :=
  ∀ name ∈ known, ∀ other, Refers index name other → other ∈ known

lemma Closed.cons {index : Index} {known : List Text} (h : Closed index known) {name : Text}
    {c : Command} (found : index.get? name = some c)
    (below : ∀ p ∈ c.placeholders, p.name ∈ known) : Closed index (name :: known) := by
  intro n hn other hr
  apply List.mem_cons_of_mem
  rcases List.mem_cons.mp hn with rfl | hn
  · obtain ⟨d, hd, p, hp, rfl⟩ := hr
    obtain rfl := Option.some.inj (found.symm.trans hd)
    exact below p hp
  · exact h n hn other hr

lemma Closed.leads {index : Index} {known : List Text} (h : Closed index known)
    {name other : Text} (hname : name ∈ known)
    (hl : Relation.ReflTransGen (Refers index) name other) : other ∈ known := by
  induction hl with
  | refl => exact hname
  | tail _ hr ih => exact h _ ih _ hr

/-- A name becomes known only after all that it refers to. -/
lemma closed_of_checkAll {index : Index} {chain known known' : List Text}
    {ps : List Placeholder} (closed : Closed index known)
    (h : checkAll index chain known ps = .ok known') :
    Closed index known' ∧ known ⊆ known' ∧ ∀ p ∈ ps, p.name ∈ known' := by
  fun_induction checkAll index chain known ps generalizing known' with
  | case1 chain known =>
    obtain rfl := Except.ok.inj h
    exact ⟨closed, List.Subset.refl _, List.forall_mem_nil _⟩
  | case2 => cases h
  | case3 => cases h
  | case4 chain known p ps c hc hchain hmem ih =>
    obtain ⟨hclosed, hsub, hps⟩ := ih closed h
    exact ⟨hclosed, hsub, List.forall_mem_cons.mpr ⟨hsub hmem, hps⟩⟩
  | case5 => cases h
  | case6 chain known p ps c hc hchain hmem hlt known₁ hk ih₁ ih =>
    obtain ⟨hclosed₁, hsub₁, hbelow⟩ := ih₁ closed hk
    obtain ⟨hclosed, hsub, hps⟩ := ih (hclosed₁.cons hc hbelow) h
    obtain ⟨hp, hsub'⟩ := List.cons_subset.mp hsub
    exact ⟨hclosed, List.Subset.trans hsub₁ hsub', List.forall_mem_cons.mpr ⟨hp, hps⟩⟩

/-- Where the known names are grounded and closed under references, the check that leaves them out
comes to the same end as the plain one. -/
theorem checkAll_eq_checkPlainly {index : Index} {chain known : List Text}
    {ps : List Placeholder} (closed : Closed index known)
    (grounded : ∀ name ∈ known, Grounded index chain name) :
    (checkAll index chain known ps).map (fun _ => ()) = checkPlainly index chain ps := by
  -- A known name does not lead to one that is about to be checked, which is not known, so the known
  -- names stay grounded on the longer chain.
  have further {chain known : List Text} {name : Text} (closed : Closed index known)
      (grounded : ∀ n ∈ known, Grounded index chain n) (hname : name ∉ known) :
      ∀ n ∈ known, Grounded index (chain ++ [name]) n := by
    intro n hn
    refine (grounded n hn).avoiding fun m hm hl => hname ?_
    rw [← List.mem_singleton.mp hm]
    exact closed.leads hn hl
  fun_induction checkAll index chain known ps with
  | case1 => rw [checkPlainly]; rfl
  | case2 chain known p ps hnone => rw [checkPlainly_missing hnone]; rfl
  | case3 chain known p ps c hc hchain => rw [checkPlainly_found hc, if_pos hchain]; rfl
  | case4 chain known p ps c hc hchain hmem ih =>
    have hbelow : checkPlainly index (chain ++ [p.name]) c.placeholders = .ok () :=
      checkPlainly_grounded fun q hq => (grounded _ hmem).below_avoids hc hq
    rw [checkPlainly_found hc, if_neg hchain, hbelow]
    exact ih closed grounded
  | case5 chain known p ps c hc hchain hmem hlt e he ih =>
    have hbelow := ih closed (further closed grounded hmem)
    rw [checkPlainly_found hc, if_neg hchain, ← hbelow, he]
    rfl
  | case6 chain known p ps c hc hchain hmem hlt known₁ hk ih₁ ih =>
    have hbelow := ih₁ closed (further closed grounded hmem)
    obtain ⟨hclosed, -, hnames⟩ := closed_of_checkAll closed hk
    obtain ⟨hknown, hgrounded⟩ := grounded_of_checkAll (List.subset_append_left ..) grounded hk
    have hp : Grounded index chain p.name := .intro hchain hc hgrounded
    rw [checkPlainly_found hc, if_neg hchain, ← hbelow, hk]
    exact ih (hclosed.cons hc hnames) (List.forall_mem_cons.mpr ⟨hp, hknown⟩)

/-! ### Paths -/

namespace Trail
variable {index : Index} {top c : Command} {names : List Text}

/-- All that the last command of a path refers to is reached. -/
lemma reached (h : Trail index top names c) {p : Placeholder} (hp : p ∈ c.placeholders) :
    Reached index top.placeholders p.name := by
  induction h generalizing p with
  | start => exact ⟨p, hp, .refl⟩
  | next before refers found ih =>
    obtain ⟨q, hq, hl⟩ := ih refers
    exact ⟨q, hq, hl.tail ⟨_, found, p, hp, rfl⟩⟩

/-- The paths from an accepted command are secure. -/
lemma secure (h : Trail index top names c) (accepted : check index [top.name] top = .ok ()) :
    Secure index names c := by
  induction h with
  | start => exact secure_of_check accepted
  | next before refers found ih =>
    obtain ⟨d, hd, hsecure⟩ := ih.below refers
    obtain rfl := Option.some.inj (found.symm.trans hd)
    rwa [name_of_get? found] at hsecure

end Trail

/-- The end of a check that fails: it has come to a name that is missing, or back to one of the
names on its path, which are different before. -/
lemma checkPlainly_error {index : Index} {top c : Command} {chain : List Text}
    {ps : List Placeholder} {e : Failure} (path : Trail index top chain c) (distinct : chain.Nodup)
    (hps : ps ⊆ c.placeholders) (h : checkPlainly index chain ps = .error e) :
    (∃ name, e = .unknownReference name ∧ Reached index top.placeholders name ∧
      index.get? name = none) ∨
    ∃ names name d, e = .cyclicReference (names ++ [name]) ∧
      Trail index top (names ++ [name]) d ∧ names.count name = 1 := by
  fun_induction checkPlainly index chain ps generalizing c with
  | case1 => cases h
  | case2 chain p ps hnone =>
    obtain rfl := Except.error.inj h
    exact .inl ⟨_, rfl, path.reached (hps (List.mem_cons_self ..)), hnone⟩
  | case3 chain p ps d hd hchain =>
    obtain rfl := Except.error.inj h
    have hnext := path.next (hps (List.mem_cons_self ..)) hd
    exact .inr ⟨chain, p.name, d, rfl, hnext, List.count_eq_one_of_mem distinct hchain⟩
  | case4 chain p ps d hd hchain hlt e' he ih =>
    obtain rfl := Except.error.inj h
    have hnext := path.next (hps (List.mem_cons_self ..)) hd
    have hdistinct := distinct.concat hchain
    rw [List.concat_eq_append] at hdistinct
    exact ih hnext hdistinct (List.Subset.refl _) he
  | case5 chain p ps d hd hchain hlt hok ih₁ ih =>
    exact ih path distinct (List.cons_subset.mp hps).2 h

lemma check_eq_checkPlainly (index : Index) (top : Command) :
    check index [top.name] top = checkPlainly index [top.name] top.placeholders :=
  checkAll_eq_checkPlainly (List.forall_mem_nil _) (List.forall_mem_nil _)

/-- Why a command is refused. -/
lemma check_error {index : Index} {top : Command} {e : Failure}
    (h : check index [top.name] top = .error e) :
    (∃ name, e = .unknownReference name ∧ Reached index top.placeholders name ∧
      index.get? name = none) ∨
    ∃ names name d, e = .cyclicReference (names ++ [name]) ∧
      Trail index top (names ++ [name]) d ∧ names.count name = 1 := by
  rw [check_eq_checkPlainly] at h
  exact checkPlainly_error .start (List.nodup_singleton _) (List.Subset.refl _) h

/-- The check has the same outcome as the plain one. It accepts a command exactly if there is a
command for every name that is reached and no path of references comes back to a name on it. When it
refuses one, a name that is reached is missing, or the chain it tells of is a path whose last name
stands on it once before. -/
theorem check_follows_paths (index : Index) (top : Command) :
    check index [top.name] top = checkPlainly index [top.name] top.placeholders ∧
    (check index [top.name] top = .ok () ↔
      (∀ name, Reached index top.placeholders name → index.contains name = true) ∧
      ∀ names c, Trail index top names c → names.Nodup) ∧
    ∀ e, check index [top.name] top = .error e →
      (∃ name, e = .unknownReference name ∧ Reached index top.placeholders name ∧
        index.contains name = false) ∨
      ∃ names name c, e = .cyclicReference (names ++ [name]) ∧
        Trail index top (names ++ [name]) c ∧ names.count name = 1 := by
  refine ⟨check_eq_checkPlainly index top,
    ⟨fun h => ⟨?_, fun names c path => (path.secure h).distinct⟩, ?_⟩, fun e h => ?_⟩
  · rintro name ⟨p, hp, hl⟩
    cases (grounded_of_check h hp).leads hl with
    | intro _ found _ => exact Option.isSome_of_eq_some found
  · rintro ⟨complete, simple⟩
    cases h : check index [top.name] top with
    | ok u => rfl
    | error e =>
      rcases check_error h with ⟨name, -, hr, hnone⟩ | ⟨names, name, c, -, path, hone⟩
      · have hsome := complete name hr
        rw [Index.contains, hnone] at hsome
        cases hsome
      · have hmem : name ∈ names := List.count_pos_iff.mp (by omega)
        have hdisjoint := (List.nodup_append.mp (simple _ _ path)).2.2
        exact absurd rfl (hdisjoint name hmem name (List.mem_singleton_self _))
  · rcases check_error h with ⟨name, he, hr, hnone⟩ | hcyclic
    · exact .inl ⟨name, he, hr, by rw [Index.contains, hnone]; rfl⟩
    · exact .inr hcyclic

end Runbook.Resolution
