import Mathlib.Tactic.Common
import Runbook.Proofs.Selection.Faithfulness
import Runbook.Proofs.Session.Ending

/-! What a backend may print. Nothing that it prints does any harm, but for digits that are no
numeral: they are taken for a position, and cannot be read as one. -/
namespace Runbook

/-- The values that were chosen. -/
def Selection.values : Selection → List Text
  | chosen values => values
  | empty => []
  | cancelled => []

namespace Backend
open Text

/-- Digits that are no numeral: some of them have no decimal value, or they are more than are
read. -/
def Illegible (mark : Text) : Prop :=
  mark ≠ [] ∧ mark.all Text.isDigit = true ∧
    (mark.all isDecimal = false ∨ numeralLimit < mark.length)

/-- A backend that ends well has printed such digits as a mark. -/
def Stumbles (b : Backend) (outcome : Option Outcome) : Prop :=
  ∃ r ∈ outcome, r.code = 0 ∧ ∃ mark ∈ b.marks r.output, Illegible mark

/-- What ought to come of a selection: values of the candidates, at least one of them if it is said
that any were chosen, or a failure that the user can mend. -/
def Proper (cs : List Candidate) : Except Failure Selection → Prop
  | .ok s => (∀ v ∈ s.values, v ∈ cs.map Candidate.value) ∧
    ((∃ values, s = .chosen values) ↔ s.values ≠ [])
  | .error e => e.kind = .mistake

/-! ### Marks -/

/-- Digits are read as a position exactly if they are a numeral. -/
lemma position?_digits {mark : Text} (hne : mark ≠ []) (hdigits : mark.all Text.isDigit = true) :
    match position? mark with
    | .ok n => n.isSome = true ∧ ¬ Illegible mark
    | .error e => e.kind = .value ∧ Illegible mark := by
  have hlength : (mark.takeWhile isDecimal).length ≤ mark.length :=
    (List.takeWhile_prefix isDecimal).length_le
  have hall : mark.takeWhile isDecimal = mark ↔ mark.all isDecimal = true := by
    rw [List.takeWhile_eq_self_iff, List.all_eq_true]
  rw [position?, if_neg (by simp [hne, hdigits])]
  dsimp only [readNumeral]
  by_cases hlong : (mark.takeWhile isDecimal).length ≤ numeralLimit
  · rw [if_pos hlong]
    dsimp only
    by_cases hwhole : mark.takeWhile isDecimal = mark
    · rw [if_pos hwhole]
      refine ⟨rfl, fun h => ?_⟩
      rw [hwhole] at hlong
      rcases h.2.2 with hdecimal | hmany
      · rw [hall.mp hwhole] at hdecimal
        cases hdecimal
      · omega
    · rw [if_neg hwhole]
      exact ⟨rfl, hne, hdigits, .inl (Bool.eq_false_iff.mpr (mt hall.mpr hwhole))⟩
  · rw [if_neg hlong]
    exact ⟨rfl, hne, hdigits, .inr (by omega)⟩

/-- All other marks are passed over. -/
lemma position?_other {mark : Text} (h : mark = [] ∨ mark.all Text.isDigit = false) :
    position? mark = .ok none ∧ ¬ Illegible mark := by
  constructor
  · rw [position?, if_pos]
    simpa using h
  · rintro ⟨hne, hdigits, -⟩
    rcases h with hnil | hother
    · exact hne hnil
    · rw [hdigits] at hother
      cases hother

lemma position?_legible (mark : Text) :
    match position? mark with
    | .ok _ => ¬ Illegible mark
    | .error e => e.kind = .value ∧ Illegible mark := by
  by_cases h : mark = [] ∨ mark.all Text.isDigit = false
  · obtain ⟨hposition, hlegible⟩ := position?_other h
    rw [hposition]
    exact hlegible
  · obtain ⟨hne, hdigits⟩ := not_or.mp h
    have hread := position?_digits hne (by simpa using hdigits)
    cases hposition : position? mark with
    | ok n =>
      rw [hposition] at hread
      exact hread.2
    | error e =>
      rw [hposition] at hread
      exact hread

/-- Marks give values of the candidates, unless one of them cannot be read. -/
lemma valuesAt_legible (cs : List Candidate) (marks : List Text) :
    match valuesAt cs marks with
    | .ok values => (∀ v ∈ values, v ∈ cs.map Candidate.value) ∧ ∀ m ∈ marks, ¬ Illegible m
    | .error e => e.kind = .value ∧ ∃ m ∈ marks, Illegible m := by
  induction marks with
  | nil => exact ⟨List.forall_mem_nil _, List.forall_mem_nil _⟩
  | cons m marks ih =>
    have hmark := position?_legible m
    rw [valuesAt]
    cases hposition : position? m with
    | error e =>
      rw [hposition] at hmark
      exact ⟨hmark.1, m, List.mem_cons_self, hmark.2⟩
    | ok n =>
      rw [hposition] at hmark
      cases hrest : valuesAt cs marks with
      | error e =>
        rw [hrest] at ih
        obtain ⟨hkind, m', hm', hillegible⟩ := ih
        exact ⟨hkind, m', List.mem_cons_of_mem m hm', hillegible⟩
      | ok values =>
        rw [hrest] at ih
        refine ⟨fun v hv => ?_, List.forall_mem_cons.mpr ⟨hmark, ih.2⟩⟩
        rcases List.mem_append.mp hv with hv | hv
        · obtain ⟨c, hc, rfl⟩ := Option.map_eq_some_iff.mp (Option.mem_toList.mp hv)
          obtain ⟨i, -, hi⟩ := Option.bind_eq_some_iff.mp hc
          exact List.mem_map_of_mem (List.mem_of_getElem? hi)
        · exact ih.1 v hv

/-! ### Answers -/

lemma proper_ofValues {cs : List Candidate} {values : List Text}
    (h : ∀ v ∈ values, v ∈ cs.map Candidate.value) : Proper cs (.ok (.ofValues values)) := by
  cases values with
  | nil => exact ⟨List.forall_mem_nil _, by simp [Selection.ofValues, Selection.values]⟩
  | cons v values => exact ⟨h, by simp [Selection.ofValues, Selection.values]⟩

lemma proper_valueless {s : Selection} (h : s = .empty ∨ s = .cancelled) (cs : List Candidate) :
    Proper cs (.ok s) := by
  rcases h with rfl | rfl <;> exact ⟨List.forall_mem_nil _, by simp [Selection.values]⟩

/-- The answer of a backend that ends well is what its marks give. -/
lemma read_success (b : Backend) (cs : List Candidate) {r : Outcome} (h : r.code = 0) :
    b.read cs (some r) = (valuesAt cs (b.marks r.output)).map Selection.ofValues := by
  cases b <;> simp [read, codes, h]

lemma read_failure (b : Backend) (cs : List Candidate) {r : Outcome} (h : r.code ≠ 0) :
    Proper cs (b.read cs (some r)) := by
  rw [read]
  by_cases hempty : b.codes.1 = some r.code
  · rw [if_pos hempty]
    exact proper_valueless (.inl rfl) cs
  · by_cases hcancelled : b.codes.2 = r.code
    · rw [if_neg hempty, if_pos hcancelled]
      exact proper_valueless (.inr rfl) cs
    · rw [if_neg hempty, if_neg hcancelled, if_pos h]
      rfl

/-- Whatever the process does, what comes of it is proper, or a mark was printed that cannot be
read. -/
lemma read_proper (b : Backend) (cs : List Candidate) (outcome : Option Outcome) :
    (Proper cs (b.read cs outcome) ∧ ¬ Stumbles b outcome) ∨
      (Stumbles b outcome ∧ ∃ e, b.read cs outcome = .error e ∧ e.kind = .value) := by
  cases outcome with
  | none => exact .inl ⟨rfl, fun ⟨r, hr, _⟩ => nomatch hr⟩
  | some r =>
    by_cases hcode : r.code = 0
    · have hmarks := valuesAt_legible cs (b.marks r.output)
      rw [read_success b cs hcode]
      cases hvalues : valuesAt cs (b.marks r.output) with
      | ok values =>
        rw [hvalues] at hmarks
        refine .inl ⟨proper_ofValues hmarks.1, ?_⟩
        rintro ⟨r', hr', -, m, hm, hillegible⟩
        obtain rfl := Option.some.inj hr'
        exact hmarks.2 m hm hillegible
      | error e =>
        rw [hvalues] at hmarks
        exact .inr ⟨⟨r, rfl, hcode, hmarks.2⟩, e, rfl, hmarks.1⟩
    · refine .inl ⟨read_failure b cs hcode, ?_⟩
      rintro ⟨r', hr', hcode', -⟩
      obtain rfl := Option.some.inj hr'
      exact hcode hcode'

/-- Whatever the process of a backend prints and however it ends, one thing comes of it: values of
the candidates, or none, or a failure that the user can mend. Only digits that are no numeral stand
in the way of that; they make a failure of another kind. -/
theorem select_tolerates (b : Backend) (o : SelectionOptions) (cs : List Candidate)
    (outcome : Option Outcome) :
    ∃ r, (∀ r', (b.select o cs).Ends
          [⟨.run { argv := b.argv o, input := some (b.feed cs) }, outcome⟩] r' ↔ r' = r) ∧
      (Proper cs r ↔ ¬ Stumbles b outcome) ∧
      (Stumbles b outcome → ∃ e, r = .error e ∧ e.kind = .value) := by
  refine ⟨b.read cs outcome, fun r' => ⟨fun h => ?_, fun h => ?_⟩, ?_⟩
  · cases h with
    | ask tail => exact (Dialogue.ends_ofExcept_iff.mp tail).2
  · exact .ask (Dialogue.ends_ofExcept_iff.mpr ⟨rfl, h⟩)
  · rcases read_proper b cs outcome with ⟨hproper, hnot⟩ | ⟨hstumbles, e, he, hkind⟩
    · exact ⟨iff_of_true hproper hnot, fun h => absurd h hnot⟩
    · refine ⟨iff_of_false (fun hproper => ?_) (not_not.mpr hstumbles), fun _ => ⟨e, he, hkind⟩⟩
      rw [he] at hproper
      cases hkind.symm.trans hproper

/-- A title in two lines, the second of which is a digit without a decimal value. -/
def squared : List Candidate := [⟨"m\u2028²", "x"⟩]

/-- To pick the candidate ends with a failure that nobody provided for. -/
theorem select_squared :
    (fzf.select {} squared).Ends [picking fzf {} squared [⟨0, by decide⟩] []]
        (.error (.notInteger 10 "²")) ∧
      ¬ Proper squared (.error (.notInteger 10 "²")) := by
  have hread : fzf.read squared (some ⟨0, fzf.printed squared [⟨0, by decide⟩], []⟩) =
      .error (.notInteger 10 "²") := by
    decide +kernel
  exact ⟨.ask (Dialogue.ends_ofExcept_iff.mpr ⟨rfl, hread.symm⟩), nofun⟩

end Backend
end Runbook
