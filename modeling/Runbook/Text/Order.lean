import Runbook.Text.Basic

/-! Texts in order: the first character in which they differ decides, and a beginning of a text
comes before it. -/
namespace Runbook.Text

def precedes : Text → Text → Bool
  | _, [] => false
  | [], _ :: _ => true
  | a :: s, b :: t => a.toNat < b.toNat || (a == b && precedes s t)

@[simp] theorem precedes_nil (s : Text) : precedes s [] = false := by cases s <;> rfl

@[simp] theorem precedes_self (s : Text) : precedes s s = false := by
  induction s with
  | nil => rfl
  | cons a s ih => simp [precedes, ih]

theorem precedes_cons {a b : Char} {s t : Text} :
    precedes (a :: s) (b :: t) = true ↔ a.toNat < b.toNat ∨ a = b ∧ precedes s t = true := by
  simp [precedes]

theorem precedes_trans {s t u : Text} (h₁ : precedes s t = true) (h₂ : precedes t u = true) :
    precedes s u = true := by
  induction s generalizing t u with
  | nil =>
    cases u with
    | nil => simp at h₂
    | cons c u => rfl
  | cons a s ih =>
    cases t with
    | nil => simp at h₁
    | cons b t =>
      cases u with
      | nil => simp at h₂
      | cons c u =>
        rw [precedes_cons] at *
        rcases h₁ with h₁ | ⟨rfl, h₁⟩
        · rcases h₂ with h₂ | ⟨rfl, -⟩
          · exact .inl (Nat.lt_trans h₁ h₂)
          · exact .inl h₁
        · rcases h₂ with h₂ | ⟨rfl, h₂⟩
          · exact .inl h₂
          · exact .inr ⟨rfl, ih h₁ h₂⟩

/-- Of two different texts one comes first. -/
theorem precedes_or_precedes {s t : Text} (h : s ≠ t) :
    precedes s t = true ∨ precedes t s = true := by
  induction s generalizing t with
  | nil =>
    cases t with
    | nil => exact absurd rfl h
    | cons b t => exact .inl rfl
  | cons a s ih =>
    cases t with
    | nil => exact .inr rfl
    | cons b t =>
      rw [precedes_cons, precedes_cons]
      by_cases hab : a = b
      · subst hab
        rcases ih (fun hst => h (hst ▸ rfl)) with hs | hs
        · exact .inl (.inr ⟨rfl, hs⟩)
        · exact .inr (.inr ⟨rfl, hs⟩)
      · rcases Nat.lt_or_gt_of_ne (fun hn => hab (Char.toNat_inj.1 hn)) with hlt | hlt
        · exact .inl (.inl hlt)
        · exact .inr (.inl hlt)

end Runbook.Text
