import Mathlib.Tactic.Common

/-! Pairs of a key and a value in a list as a table. -/
namespace Runbook

variable {α β : Type} [BEq α] [LawfulBEq α] {entries entries' : List (α × β)}

/-- Where no key comes twice, what is found under a key is what stands there. -/
lemma lookup_eq_some_of_nodup (distinct : (entries.map Prod.fst).Nodup) {a : α} {b : β} :
    entries.lookup a = some b ↔ (a, b) ∈ entries := by
  rw [List.lookup_eq_some_iff]
  constructor
  · rintro ⟨front, back, rfl, -⟩
    simp
  · intro h
    obtain ⟨front, back, rfl⟩ := List.append_of_mem h
    refine ⟨front, back, rfl, fun e he => ?_⟩
    rw [List.map_append, List.map_cons] at distinct
    have hne := List.nodup_append.mp distinct |>.2.2 e.1 (List.mem_map_of_mem he) a (by simp)
    simpa using Ne.symm hne

/-- Nor does the order matter then. -/
lemma lookup_eq_of_perm (distinct : (entries.map Prod.fst).Nodup) (h : entries.Perm entries')
    (a : α) : entries.lookup a = entries'.lookup a := by
  have distinct' : (entries'.map Prod.fst).Nodup := (h.map Prod.fst).nodup_iff.mp distinct
  ext b
  rw [lookup_eq_some_of_nodup distinct, lookup_eq_some_of_nodup distinct', h.mem_iff]

end Runbook
