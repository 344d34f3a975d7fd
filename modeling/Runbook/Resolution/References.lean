import Runbook.Command
import Runbook.Failure

/-! Checking the references of a command: every command that can be reached through placeholders
exists, and none leads back to one that is being resolved. -/
namespace Runbook.Resolution

theorem get?_mem_names {index : Index} {name : Text} {c : Command}
    (h : index.get? name = some c) : name ∈ index.names := by
  unfold Index.get? Index.find? at h
  have hname : c.name = name := by simpa using List.find?_some h
  exact hname ▸ List.mem_map_of_mem (List.mem_of_find?_eq_some h)

/-- How many names of the index do not stand in a chain. -/
def freeNames (index : Index) (chain : List Text) : Nat :=
  index.names.countP fun n => !chain.contains n

theorem countP_lt_of_mem {p q : Text → Bool} {names : List Text} {name : Text}
    (h : name ∈ names) (hp : p name = true) (hq : q name = false)
    (hpq : ∀ n, q n = true → p n = true) : names.countP q < names.countP p := by
  induction names with
  | nil => simp at h
  | cons n ns ih =>
    have hle : ns.countP q ≤ ns.countP p := List.countP_mono_left fun x _ hx => hpq x hx
    rw [List.countP_cons, List.countP_cons]
    rcases List.mem_cons.1 h with rfl | h
    · rw [if_pos hp, if_neg (by simp [hq])]
      omega
    · have := ih h
      by_cases hn : q n = true
      · rw [if_pos hn, if_pos (hpq n hn)]
        omega
      · rw [if_neg hn]
        split <;> omega

theorem freeNames_lt {index : Index} {chain : List Text} {name : Text} (h : name ∈ index.names)
    (hc : name ∉ chain) : freeNames index (chain ++ [name]) < freeNames index chain := by
  refine countP_lt_of_mem h (by simpa using hc) (by simp) fun n hn => ?_
  simp only [List.contains_append, Bool.not_or, Bool.and_eq_true] at hn
  exact hn.1

/-- Checks the references of some placeholders of the last command of a chain, leaving out names
that are known to be right, and tells all names that are then. -/
def checkAll (index : Index) (chain known : List Text) :
    List Placeholder → Except Failure (List Text)
  | [] => .ok known
  | p :: ps =>
    match h : index.get? p.name with
    | none => .error (.unknownReference p.name)
    | some c =>
      if hc : p.name ∈ chain then .error (.cyclicReference (chain ++ [p.name]))
      else if p.name ∈ known then checkAll index chain known ps
      else
        have := freeNames_lt (get?_mem_names h) hc
        match checkAll index (chain ++ [p.name]) known c.placeholders with
        | .error e => .error e
        | .ok known => checkAll index chain (p.name :: known) ps
termination_by ps => (freeNames index chain, ps.length)

/-- Checks all references of a command that stands at the end of a chain. -/
def check (index : Index) (chain : List Text) (c : Command) : Except Failure Unit :=
  (checkAll index chain [] c.placeholders).map fun _ => ()

end Runbook.Resolution
