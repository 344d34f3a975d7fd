import Mathlib.Tactic.Common
import Runbook.Proofs.Placeholder.Soundness

/-! The search for placeholders in a text. What is found is decided by what stands up to its closing
brace, and no opener has a space in it, so that texts with a space between them are searched one
after the other. -/
namespace Runbook.Placeholder
open Text

/-! ### The search goes on -/

/-- What is read at the front decides how the search goes on. -/
lemma scan_cons (c : Char) (t : Text) :
    scan (c :: t) = match read? (c :: t) with
      | none => scan t
      | some (.error e) => .error e
      | some (.ok (p, rest)) => (scan rest).map (p :: ·) := by
  rw [scan]
  split
  · next h => rw [h]
  · next h => rw [h]
  · next p rest h =>
    simp only [h]
    cases scan rest <;> rfl

lemma scan_space (r : Text) : scan (' ' :: r) = scan r := by
  have hread : read? (' ' :: r) = none := rfl
  rw [scan_cons, hread]

lemma scan_of_read? {s r : Text} {p : Placeholder} (h : read? s = some (.ok (p, r))) :
    scan s = (scan r).map (p :: ·) := by
  cases s with
  | nil => cases h
  | cons c t => rw [scan_cons, h]

lemma scan_of_error {s : Text} {e : Stop} (h : read? s = some (.error e)) : scan s = .error e := by
  cases s with
  | nil => cases h
  | cons c t => rw [scan_cons, h]

/-! ### Where it stops -/

lemma suffix_of_read? {s r : Text} {p : Placeholder} (h : read? s = some (.ok (p, r))) :
    r <:+ s := by
  obtain ⟨o, rest, -, rfl, t, rfl, -⟩ := read?_sound h
  rw [← List.append_assoc]
  exact List.suffix_append _ r

lemma within_of_read? {s : Text} {e : Stop} (h : read? s = some (.error e)) : e.Within s := by
  obtain ⟨o, r, -, rfl, hwithin⟩ := read?_sound h
  exact Stop.Within.of_suffix hwithin (List.suffix_append _ r)

/-- The search stops inside the text, or at a numeral of it that is too long. -/
theorem within_of_scan {s : Text} {e : Stop} (h : scan s = .error e) : e.Within s := by
  fun_induction scan s with
  | case1 => cases h
  | case2 c t hnone ih => exact (ih h).of_suffix (List.suffix_cons c t)
  | case3 c t e' herror =>
    obtain rfl := Except.error.inj h
    exact within_of_read? herror
  | case4 c t p rest hread hlt ps hps ih => cases h
  | case5 c t p rest hread hlt e' herror ih =>
    obtain rfl := Except.error.inj h
    exact (ih herror).of_suffix (suffix_of_read? hread)

/-! ### Two texts -/

/-- A placeholder at the front of a text is read there whatever comes after the text. -/
lemma read?_append {s r : Text} {p : Placeholder} (h : read? s = some (.ok (p, r))) (t : Text) :
    read? (s ++ t) = some (.ok (p, r ++ t)) := by
  obtain ⟨o, body, -, hs, u, rfl, w, hone, rfl, hrender⟩ := read?_sound h
  have hw : s = w.render ++ r := by rw [hs, ← List.append_assoc, hrender]
  rw [hw, List.append_assoc, w.read?_written hone]

lemma space_not_mem_opener {o : Opener} (ho : o.WellFormed) : ' ' ∉ o.render := by
  cases o with
  | input => decide
  | argument => decide
  | environment given =>
    intro hmem
    rcases List.mem_append.mp hmem with hgiven | hsigns
    · exact absurd (List.all_eq_true.mp ho _ hgiven) (by decide)
    · exact absurd hsigns (by decide)

/-- No opener stands across the end of a text that a space follows. -/
lemma read?_append_space {s : Text} (h : read? s = none) (t : Text) :
    read? (s ++ ' ' :: t) = none := by
  rw [read?_eq_none] at h ⊢
  rintro ⟨o, ho, hprefix⟩
  rcases List.prefix_or_prefix_of_prefix hprefix (List.prefix_append s (' ' :: t)) with hs | hs
  · exact h ⟨o, ho, hs⟩
  · obtain ⟨u, hu⟩ := hs
    rw [← hu, List.prefix_append_right_inj] at hprefix
    cases u with
    | nil =>
      rw [List.append_nil] at hu
      exact h ⟨o, ho, hu ▸ List.prefix_rfl⟩
    | cons c u =>
      obtain ⟨rfl, -⟩ := List.cons_prefix_cons.mp hprefix
      exact space_not_mem_opener ho (by simp [← hu])

/-- The search in the first of two texts is over before the second begins. -/
theorem scan_append_eq {a : Text} {ps : List Placeholder} (h : scan a = .ok ps) (b : Text) :
    scan (a ++ ' ' :: b) = (scan b).map (ps ++ ·) := by
  fun_induction scan a generalizing ps with
  | case1 =>
    obtain rfl := Except.ok.inj h
    rw [List.nil_append, scan_space]
    cases scan b <;> rfl
  | case2 c t hnone ih =>
    rw [List.cons_append, scan_cons, ← List.cons_append, read?_append_space hnone]
    exact ih h
  | case3 c t e herror => cases h
  | case4 c t p rest hread hlt qs hqs ih =>
    obtain rfl := Except.ok.inj h
    rw [scan_of_read? (read?_append hread (' ' :: b)), ih hqs]
    cases scan b <;> rfl
  | case5 c t p rest hread hlt e herror ih => cases h

/-- A stop in the second of two texts lies further on by the length of the first and the space. -/
lemma Stop.inText_append {e : Stop} {b : Text} (h : e.Within b) (a : Text) :
    e.inText (a ++ ' ' :: b) = match e.inText b with
      | .fault cause position => .fault cause (a.length + 1 + position)
      | .longNumeral digits => .longNumeral digits := by
  cases e with
  | fault cause rest =>
    have hle : rest.length ≤ b.length := List.IsSuffix.length_le h
    simp only [Stop.inText, List.length_append, List.length_cons]
    congr 1
    omega
  | longNumeral digits => rfl

/-- A text in which all is well and another one, with a space between them: the placeholders are
those of the first and then those of the second. What is wrong with the second one is wrong with
both, for the same cause, and its place is further on by the length of the first and the space. -/
theorem scan_append_space {a : Text} {ps : List Placeholder} (h : scan a = .ok ps) (b : Text) :
    (∀ qs, scan b = .ok qs → scan (a ++ ' ' :: b) = .ok (ps ++ qs)) ∧
    (∀ cause position, (scan b).mapError (·.inText b) = .error (.fault cause position) →
      (scan (a ++ ' ' :: b)).mapError (·.inText (a ++ ' ' :: b)) =
        .error (.fault cause (a.length + 1 + position))) ∧
    ∀ digits, scan b = .error (.longNumeral digits) →
      scan (a ++ ' ' :: b) = .error (.longNumeral digits) := by
  have hscan := scan_append_eq h b
  refine ⟨fun qs hqs => ?_, fun cause position hfault => ?_, fun digits hlong => ?_⟩
  · rw [hscan, hqs]
    rfl
  · cases hb : scan b with
    | ok qs =>
      rw [hb] at hfault
      cases hfault
    | error e =>
      rw [hb] at hfault
      have hplace : e.inText b = .fault cause position := Except.error.inj hfault
      rw [hscan, hb]
      change Except.error (e.inText (a ++ ' ' :: b)) = _
      rw [Stop.inText_append (within_of_scan hb) a, hplace]
  · rw [hscan, hlong]
    rfl

/-- The first text ends with the start of an opener, which the brace of the second one does not
complete; the modifier in the second one is unknown. -/
theorem scan_append_space_show :
    scan "show $\x7brev\x7d A=" =
      .ok [{ target := .argument, name := "rev" }] ∧
    scan "\x7bx\x7d <\x7bfiles\x7d" = .ok [{ target := .input, name := "files" }] ∧
    scan "show $\x7brev\x7d A= \x7bx\x7d <\x7bfiles\x7d" =
      .ok [{ target := .argument, name := "rev" }, { target := .input, name := "files" }] ∧
    (scan "\x7bx\x7d $\x7by | nope\x7d").mapError (·.inText "\x7bx\x7d $\x7by | nope\x7d") =
      .error (.fault (.unknownModifier "nope\x7d") 10) ∧
    (scan "show $\x7brev\x7d A= \x7bx\x7d $\x7by | nope\x7d").mapError
        (·.inText "show $\x7brev\x7d A= \x7bx\x7d $\x7by | nope\x7d") =
      .error (.fault (.unknownModifier "nope\x7d") 25) := by
  have hfirst : scan "show $\x7brev\x7d A=" = .ok [{ target := .argument, name := "rev" }] := by
    decide +kernel
  have hsecond : scan "\x7bx\x7d <\x7bfiles\x7d" = .ok [{ target := .input, name := "files" }] := by
    decide +kernel
  have hfault : (scan "\x7bx\x7d $\x7by | nope\x7d").mapError
      (·.inText "\x7bx\x7d $\x7by | nope\x7d") =
      .error (.fault (.unknownModifier "nope\x7d") 10) := by
    decide +kernel
  exact ⟨hfirst, hsecond, (scan_append_space hfirst _).1 _ hsecond, hfault,
    (scan_append_space hfirst _).2.1 _ _ hfault⟩

end Runbook.Placeholder
