import Mathlib.Tactic.Common
import Runbook.Proofs.Placeholder.Notation

/-! What modifiers amount to, added one after another: the one format that is given, the last of the
filters, and whether all values or several are wanted. -/
namespace Runbook.Placeholder
open Text

lemma addAll_append (p : Placeholder) (ms ns : List Modifier) :
    p.addAll (ms ++ ns) = (p.addAll ms).bind (addAll · ns) := by
  induction ms generalizing p with
  | nil => rfl
  | cons m ms ih =>
    rw [List.cons_append, addAll, addAll]
    cases p.add m with
    | none => rfl
    | some q => exact ih q

lemma Phrase.modifier_ne (ph : Phrase) : ph.modifier ≠ .format .lines := by
  cases ph <;> simp [Phrase.modifier]

lemma Shorthand.modifier_ne (sh : Shorthand) : .format .lines ∉ sh.modifiers := by
  cases sh with
  | fields n multi => cases multi <;> simp [Shorthand.modifiers]
  | several n => cases n <;> simp [Shorthand.modifiers]

/-- No modifier that can be written gives the format that placeholders start with. -/
lemma Written.modifier_ne (w : Written) : .format .lines ∉ w.modifiers := by
  intro hm
  rcases List.mem_append.mp hm with hm | hm
  · unfold Written.headModifiers at hm
    cases hs : w.shorthand with
    | none => simp [hs] at hm
    | some sh => exact sh.modifier_ne (by simpa [hs] using hm)
  · obtain ⟨l, -, hl⟩ := List.mem_map.mp hm
    exact l.phrase.modifier_ne hl

/-- A shorthand gives one format at most. -/
lemma Shorthand.formats_le (sh : Shorthand) : (sh.modifiers.filterMap format?).length ≤ 1 := by
  cases sh with
  | fields n multi => cases multi <;> simp [Shorthand.modifiers, format?, List.filterMap_cons]
  | several n => cases n <;> simp [Shorthand.modifiers, format?, List.filterMap_cons]

/-- How many formats a placeholder has been given: none as long as it takes lines. -/
def given (p : Placeholder) : Nat := if p.format = .lines then 0 else 1

/-- With one format at most, the placeholder after all modifiers, part by part. -/
theorem addAll_eq {p : Placeholder} {ms : List Modifier} (hms : .format .lines ∉ ms)
    (hone : given p + (ms.filterMap format?).length ≤ 1) :
    p.addAll ms = some { p with
      format := (ms.filterMap format?).head?.getD p.format
      filter := (ms.filterMap filter?).getLast?.or p.filter
      multiple := p.multiple || ms.any (· = .multiple)
      takesAll := p.takesAll || ms.any (· = .takeAll) } := by
  induction ms generalizing p with
  | nil => simp [addAll]
  | cons m ms ih =>
    rw [List.mem_cons, not_or] at hms
    obtain ⟨hm, hms⟩ := hms
    rw [addAll]
    cases m with
    | format f =>
      have hlines : p.format = .lines := by
        by_contra hp
        have hgiven : given p = 1 := if_neg hp
        rw [hgiven, List.filterMap_cons_some (rfl : format? (.format f) = some f),
          List.length_cons] at hone
        omega
      have hf : f ≠ .lines := fun hf => hm (hf ▸ rfl)
      have hnone : ms.filterMap format? = [] := by
        simpa [given, hlines, format?, List.filterMap_cons] using hone
      have hadd : p.add (.format f) = some { p with format := f } := if_pos hlines
      have hle : given { p with format := f } + (ms.filterMap format?).length ≤ 1 := by
        simp [given, hf, hnone]
      rw [hadd, Option.bind_some, ih hms hle]
      simp [format?, filter?, hnone, List.filterMap_cons]
    | filter w =>
      have hadd : p.add (.filter w) = some { p with filter := some w } := rfl
      rw [hadd, Option.bind_some]
      refine (ih (p := { p with filter := some w }) hms hone).trans ?_
      simp [format?, filter?, List.filterMap_cons, List.getLast?_cons]
    | takeAll =>
      have hadd : p.add .takeAll = some { p with takesAll := true } := rfl
      rw [hadd, Option.bind_some]
      refine (ih (p := { p with takesAll := true }) hms hone).trans ?_
      simp [format?, filter?, List.filterMap_cons]
    | multiple =>
      have hadd : p.add .multiple = some { p with multiple := true } := rfl
      rw [hadd, Option.bind_some]
      refine (ih (p := { p with multiple := true }) hms hone).trans ?_
      simp [format?, filter?, List.filterMap_cons]

/-- What all modifiers make is the placeholder that is meant. -/
theorem addAll_written (w : Written) (h : w.formats.length ≤ 1) :
    addAll { target := w.target, name := w.name } w.modifiers = some w.placeholder := by
  have hstart : given { target := w.target, name := w.name } = 0 := rfl
  rw [addAll_eq w.modifier_ne (by rw [hstart, Nat.zero_add]; exact h)]
  simp [Written.placeholder, Written.formats]

/-- A format given before is what another one conflicts with. -/
lemma add_repeated {p q : Placeholder} {ms : List Modifier} {m : Modifier}
    (hms : .format .lines ∉ ms) (hone : given p + (ms.filterMap format?).length = 1)
    (hq : p.addAll ms = some q) (hm : (format? m).isSome) : q.add m = none := by
  rw [addAll_eq hms (Nat.le_of_eq hone)] at hq
  obtain rfl := Option.some.inj hq
  cases m with
  | format f =>
    apply if_neg
    intro hlines
    change (ms.filterMap format?).head?.getD p.format = .lines at hlines
    cases hfs : ms.filterMap format? with
    | nil =>
      rw [hfs] at hlines hone
      simp [given, show p.format = .lines from hlines] at hone
    | cons g gs =>
      rw [hfs] at hlines
      have hg : g ∈ ms.filterMap format? := hfs ▸ List.mem_cons_self ..
      obtain ⟨m', hm', hg⟩ := List.mem_filterMap.mp hg
      cases m' with
      | format f' =>
        obtain rfl : f' = g := by simpa [format?] using hg
        obtain rfl : f' = .lines := hlines
        exact hms hm'
      | _ => cases hg
  | _ => cases hm

/-- Of two formats or more, one is the second. -/
lemma exists_second {n : Nat} (hn : n ≤ 1) {ls : List Link}
    (h : 1 < n + ((Link.modifiers ls).filterMap format?).length) :
    ∃ front l back, ls = front ++ l :: back ∧ (format? l.phrase.modifier).isSome ∧
      n + ((Link.modifiers front).filterMap format?).length = 1 := by
  induction ls generalizing n with
  | nil =>
    simp at h
    omega
  | cons l ls ih =>
    rw [Link.modifiers_cons] at h
    cases hf : format? l.phrase.modifier with
    | none =>
      rw [List.filterMap_cons_none hf] at h
      obtain ⟨front, l', back, rfl, hl', hcount⟩ := ih hn h
      refine ⟨l :: front, l', back, rfl, hl', ?_⟩
      rw [Link.modifiers_cons, List.filterMap_cons_none hf]
      exact hcount
    | some f =>
      rw [List.filterMap_cons_some hf, List.length_cons] at h
      rcases Nat.le_one_iff_eq_zero_or_eq_one.mp hn with rfl | rfl
      · obtain ⟨front, l', back, rfl, hl', hcount⟩ := ih (n := 1) (Nat.le_refl 1) (by omega)
        refine ⟨l :: front, l', back, rfl, hl', ?_⟩
        rw [Link.modifiers_cons, List.filterMap_cons_some hf, List.length_cons]
        omega
      · exact ⟨[], l, ls, rfl, by simp [hf], rfl⟩

end Runbook.Placeholder
