import Mathlib.Logic.Relation
import Mathlib.Tactic.Common
import Runbook.Resolution.References

/-! What the check of references establishes. A name is grounded when every way on from it through
placeholders ends; the check accepts a command only if all its references are. -/
namespace Runbook.Resolution

/-- All that can be reached from a name through placeholders exists, stays clear of the names to
be avoided, and every way on comes to an end. -/
inductive Grounded (index : Index) (avoid : List Text) : Text → Prop
  | intro {name : Text} {c : Command} (clear : name ∉ avoid) (found : index.get? name = some c)
      (below : ∀ p ∈ c.placeholders, Grounded index avoid p.name) : Grounded index avoid name

/-- The command of one name has a placeholder for another. -/
def Refers (index : Index) (name other : Text) : Prop :=
  ∃ c, index.get? name = some c ∧ ∃ p ∈ c.placeholders, p.name = other

namespace Grounded
variable {index : Index} {avoid : List Text} {name other : Text}

lemma of_refers (h : Grounded index avoid name) (hr : Refers index name other) :
    Grounded index avoid other := by
  obtain ⟨d, hd, p, hp, rfl⟩ := hr
  cases h with
  | intro clear found below =>
    obtain rfl := Option.some.inj (found.symm.trans hd)
    exact below p hp

lemma leads (h : Grounded index avoid name)
    (hl : Relation.ReflTransGen (Refers index) name other) : Grounded index avoid other := by
  induction hl with
  | refl => exact h
  | tail _ hr ih => exact ih.of_refers hr

/-- No way leads from a grounded name back to it. -/
theorem not_leads_back (h : Grounded index avoid name) :
    ¬ Relation.TransGen (Refers index) name name := by
  induction h with
  | @intro name c clear found below ih =>
    intro hl
    obtain ⟨other, hr, hback⟩ := Relation.TransGen.head'_iff.mp hl
    have hfirst := hr
    obtain ⟨d, hd, p, hp, rfl⟩ := hr
    obtain rfl := Option.some.inj (found.symm.trans hd)
    exact ih p hp (Relation.TransGen.tail' hback hfirst)

/-- More names can be avoided when no way leads to them. -/
lemma avoiding (h : Grounded index avoid name) {more : List Text}
    (hm : ∀ n ∈ more, ¬ Relation.ReflTransGen (Refers index) name n) :
    Grounded index (avoid ++ more) name := by
  induction h with
  | @intro name c clear found below ih =>
    have hclear : name ∉ avoid ++ more := by
      rw [List.mem_append, not_or]
      exact ⟨clear, fun hn => hm name hn .refl⟩
    refine .intro hclear found fun p hp => ih p hp fun n hn hl => ?_
    exact hm n hn (.head ⟨c, found, p, hp, rfl⟩ hl)

/-- Below a grounded name, that name is avoided too. -/
theorem below_avoids (h : Grounded index avoid name) {c : Command} (hc : index.get? name = some c)
    {p : Placeholder} (hp : p ∈ c.placeholders) : Grounded index (avoid ++ [name]) p.name := by
  have hr : Refers index name p.name := ⟨c, hc, p, hp, rfl⟩
  apply (h.of_refers hr).avoiding
  intro n hn hl
  rw [List.mem_singleton.mp hn] at hl
  exact h.not_leads_back (.head' hr hl)

end Grounded

/-- Accepted placeholders are grounded, and so are all names that are known then: a name is left
out only when it was grounded before. -/
lemma grounded_of_checkAll {index : Index} {avoid chain known known' : List Text}
    {ps : List Placeholder} (havoid : avoid ⊆ chain)
    (hknown : ∀ n ∈ known, Grounded index avoid n)
    (h : checkAll index chain known ps = .ok known') :
    (∀ n ∈ known', Grounded index avoid n) ∧ ∀ p ∈ ps, Grounded index avoid p.name := by
  fun_induction checkAll index chain known ps generalizing known' with
  | case1 chain known =>
    obtain rfl := Except.ok.inj h
    exact ⟨hknown, by simp⟩
  | case2 => cases h
  | case3 => cases h
  | case4 chain known p ps c hc hchain hmem ih =>
    obtain ⟨hn, hps⟩ := ih havoid hknown h
    refine ⟨hn, List.forall_mem_cons.mpr ⟨hknown _ hmem, hps⟩⟩
  | case5 => cases h
  | case6 chain known p ps c hc hchain hmem hlt known₁ hk ih₁ ih =>
    obtain ⟨hn₁, hbelow⟩ := ih₁ (fun n hn => List.mem_append_left _ (havoid hn)) hknown hk
    have hp : Grounded index avoid p.name := .intro (fun hn => hchain (havoid hn)) hc hbelow
    obtain ⟨hn, hps⟩ := ih havoid (List.forall_mem_cons.mpr ⟨hp, hn₁⟩) h
    exact ⟨hn, List.forall_mem_cons.mpr ⟨hp, hps⟩⟩

/-- The references of an accepted command are grounded and stay clear of the chain. -/
theorem grounded_of_check {index : Index} {chain : List Text} {c : Command}
    (h : check index chain c = .ok ()) {p : Placeholder} (hp : p ∈ c.placeholders) :
    Grounded index chain p.name := by
  unfold check at h
  cases hk : checkAll index chain [] c.placeholders with
  | error e =>
    rw [hk] at h
    cases h
  | ok known => exact (grounded_of_checkAll (List.Subset.refl _) (by simp) hk).2 p hp

end Runbook.Resolution
