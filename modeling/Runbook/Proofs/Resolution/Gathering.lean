import Mathlib.Tactic.Common
import Runbook.Placeholder.Basic
import Runbook.Resolution.Inputs

/-! The inputs of a command, told from the values that were taken for its placeholders. -/
namespace Runbook

namespace Value
variable {α : Type} (entries : List (Text × α)) (key : Text) (v : α)

lemma lookup_cons (name : Text) :
    List.lookup name ((key, v) :: entries) = if name = key then some v else entries.lookup name := by
  rw [List.lookup_cons]
  by_cases h : name = key
  · simp [h]
  · rw [beq_false_of_ne h, if_neg h]

lemma lookup_put (name : Text) :
    (put entries key v).lookup name = if name = key then some v else entries.lookup name := by
  induction entries with
  | nil => exact lookup_cons [] key v name
  | cons e rest ih =>
    obtain ⟨k, old⟩ := e
    by_cases hk : k = key
    · subst hk
      rw [put, if_pos rfl, lookup_cons, lookup_cons]
      split <;> rfl
    · rw [put, if_neg hk, lookup_cons, lookup_cons, ih]
      by_cases h : name = k
      · have hne : name ≠ key := fun he => hk (h.symm.trans he)
        rw [if_pos h, if_neg hne, if_pos h]
      · rw [if_neg h, if_neg h]

lemma mem_keys_put {name : Text} (h : name ∈ (put entries key v).map Prod.fst) :
    name = key ∨ name ∈ entries.map Prod.fst := by
  induction entries with
  | nil => simpa [put] using h
  | cons e rest ih =>
    obtain ⟨k, old⟩ := e
    by_cases hk : k = key
    · right
      simpa [put, hk] using h
    · rw [put, if_neg hk, List.map_cons, List.mem_cons] at h
      rcases h with h | h
      · exact .inr (by simp [h])
      · exact (ih h).imp_right fun hrest => List.mem_cons_of_mem _ hrest

lemma nodup_keys_put (h : (entries.map Prod.fst).Nodup) :
    ((put entries key v).map Prod.fst).Nodup := by
  induction entries with
  | nil => simp [put]
  | cons e rest ih =>
    obtain ⟨k, old⟩ := e
    obtain ⟨hfresh, hrest⟩ := List.nodup_cons.mp h
    by_cases hk : k = key
    · simpa [put, hk] using h
    · rw [put, if_neg hk, List.map_cons]
      refine List.nodup_cons.mpr ⟨fun hmem => ?_, ih hrest⟩
      exact (mem_keys_put rest key v hmem).elim hk hfresh

end Value

namespace Inputs

/-- Lines and arguments are the values of the placeholders for them, one placeholder after another.
A variable is set if there is a placeholder for it, and then to the values of the last one. -/
structure Holds (i : Inputs) (taken : List (Placeholder × List Text)) : Prop where
  lines : i.lines = (taken.filter (·.1.target = .input)).flatMap Prod.snd
  arguments : i.arguments = (taken.filter (·.1.target = .argument)).flatMap Prod.snd
  environment : ∀ name, i.environment.lookup name =
    (taken.reverse.find? (·.1.target = .environment name)).map fun t => Text.unwords t.2
  distinct : (i.environment.map Prod.fst).Nodup

lemma holds_nil : ({} : Inputs).Holds [] where
  lines := rfl
  arguments := rfl
  environment _ := rfl
  distinct := List.nodup_nil

/-- The step from one placeholder to the next. -/
lemma Holds.add {i : Inputs} {taken : List (Placeholder × List Text)} (h : i.Holds taken)
    (p : Placeholder) (values : List Text) :
    (i.add p.target values).Holds (taken ++ [(p, values)]) := by
  obtain ⟨hlines, harguments, henvironment, hdistinct⟩ := h
  cases ht : p.target with
  | input => constructor <;> simp_all [Inputs.add]
  | argument => constructor <;> simp_all [Inputs.add]
  | environment key =>
    constructor
    · simp [Inputs.add, hlines, ht]
    · simp [Inputs.add, harguments, ht]
    · intro name
      have hlast : (taken ++ [(p, values)]).reverse = (p, values) :: taken.reverse := by simp
      rw [hlast]
      change (Value.put i.environment key _).lookup name = _
      rw [Value.lookup_put, henvironment]
      by_cases hname : name = key
      · simp [hname, ht]
      · have hne : ¬ key = name := fun he => hname he.symm
        simp [hname, ht, hne]
    · exact Value.nodup_keys_put _ _ _ hdistinct

end Inputs
end Runbook
