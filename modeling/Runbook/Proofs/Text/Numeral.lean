import Mathlib.Algebra.Group.Nat.Defs
import Mathlib.Tactic.Common
import Runbook.Proofs.Text.Span
import Runbook.Text.Digits

/-! The numerals of numbers: they consist of decimal digits, and reading them gives the numbers
back. -/
namespace Runbook.Text

lemma toNat_of_isDigit {c : Char} (h : c.isDigit = true) : 48 ≤ c.toNat ∧ c.toNat ≤ 57 := by
  simpa [Char.isDigit, UInt32.le_iff_toNat_le] using h

lemma decimalValue?_of_isDigit {c : Char} (h : c.isDigit = true) :
    decimalValue? c = some (c.toNat - 48) := by
  obtain ⟨hlow, hhigh⟩ := toNat_of_isDigit h
  have hfirst : decimalZeros.find? (fun z => z ≤ c.toNat && c.toNat ≤ z + 9) = some 48 :=
    List.find?_cons_of_pos (by simp [hlow, hhigh])
  rw [decimalValue?, hfirst]
  rfl

lemma ofNat_ne_nil (n : Nat) : ofNat n ≠ [] := Nat.toDigits_ne_nil

lemma all_isDigit_ofNat (n : Nat) : (ofNat n).all Char.isDigit = true :=
  List.all_eq_true.mpr fun _ hc => Nat.isDigit_of_mem_toDigits (by decide) (by decide) hc

lemma ofNat_decimal (n : Nat) : (ofNat n).all isDecimal = true := by
  refine all_mono (fun c hc => ?_) (all_isDigit_ofNat n)
  rw [isDecimal, decimalValue?_of_isDigit hc]
  rfl

/-- Characters of a sort are not white space if no white space is of that sort. -/
lemma not_isBlank_of {q : Char → Bool} (hq : (inlineBlanks ++ lineBreaks).all (!q ·) = true)
    {c : Char} (h : q c = true) : (!isBlank c) = true := by
  have hnot : c ∉ inlineBlanks ++ lineBreaks := by
    intro hmem
    have := List.all_eq_true.mp hq c hmem
    rw [h] at this
    cases this
  simpa [isBlank, isLineBreak, not_or] using hnot

lemma ofNat_not_blank (n : Nat) : (ofNat n).all (!isBlank ·) = true :=
  all_mono (fun _ hc => not_isBlank_of (by decide +kernel) hc) (all_isDigit_ofNat n)

/-- The numeral of a number is read as the number. -/
lemma numeral_ofNat (n : Nat) : numeral (ofNat n) = n := by
  have hfold (s : Text) (hs : ∀ c ∈ s, c.isDigit = true) (k : Nat) :
      s.foldl (fun n c => 10 * n + (decimalValue? c).getD 0) k = Nat.ofDigitChars 10 s k := by
    induction s generalizing k with
    | nil => rfl
    | cons c s ih =>
      obtain ⟨hc, hs⟩ := List.forall_mem_cons.mp hs
      rw [List.foldl_cons, ih hs, decimalValue?_of_isDigit hc]
      rfl
  rw [numeral, hfold _ (List.all_eq_true.mp (all_isDigit_ofNat n)), ofNat,
    Nat.ofDigitChars_ten_toDigits]

lemma length_ofNat_pow {k : Nat} (h : 0 < k) : (ofNat (10 ^ k)).length = k + 1 := by
  have hle : (ofNat (10 ^ k)).length ≤ k + 1 :=
    (Nat.length_toDigits_le_iff (by decide) (Nat.succ_pos k)).mpr
      (Nat.pow_lt_pow_right (by decide) (Nat.lt_succ_self k))
  have hnot : ¬ (ofNat (10 ^ k)).length ≤ k := fun hk =>
    Nat.lt_irrefl _ ((Nat.length_toDigits_le_iff (by decide) h).mp hk)
  omega

end Runbook.Text
