import Runbook.Placeholder.Basic
import Runbook.Placeholder.Fault
import Runbook.Text.Digits
import Runbook.Text.Letters

/-! The written forms of modifiers: field numbers, the shorthand after a colon, and the pipeline
after the name. Each reader takes its part from the front of a text and hands on the rest. -/
namespace Runbook.Placeholder

open Text

/-- The characters between the parts of a pipeline. -/
def skipBlanks (s : Text) : Text := s.dropWhile isSpaceOrTab

theorem length_skipBlanks_le (s : Text) : (skipBlanks s).length ≤ s.length :=
  (s.dropWhile_suffix isSpaceOrTab).length_le

/-- The text goes on with a digit of some sort. -/
def startsWithDigit : Text → Bool
  | [] => false
  | c :: _ => isDigit c

theorem length_lt_of_dropWhile {p : Char → Bool} {s r : Text} {c : Char}
    (h : s.dropWhile p = c :: r) : r.length < s.length := by
  have := (s.dropWhile_suffix p).length_le
  rw [h] at this
  exact this

/-- Numerals separated by single commas: as many as there are, and the rest. -/
def numerals (s : Text) : List Text × Text :=
  match h : s.dropWhile isDecimal with
  | ',' :: d :: rest =>
    if isDecimal d then
      have := length_lt_of_dropWhile h
      let more := numerals (d :: rest)
      (s.takeWhile isDecimal :: more.1, more.2)
    else ([s.takeWhile isDecimal], ',' :: d :: rest)
  | rest => ([s.takeWhile isDecimal], rest)
termination_by s.length

theorem length_numerals_le (s : Text) : (numerals s).2.length ≤ s.length := by
  fun_induction numerals s with
  | case1 s d rest h hd hlt more ih => exact Nat.le_trans ih (Nat.le_of_lt hlt)
  | case2 s d rest h hd => exact h ▸ (s.dropWhile_suffix isDecimal).length_le
  | case3 s h => exact (s.dropWhile_suffix isDecimal).length_le

/-- A numeral as a number. -/
def readNumber (digits : Text) : Except Stop Nat :=
  match readNumeral digits with
  | .ok n => .ok n
  | .error count => .error (.longNumeral count)

/-- One or more field numbers. -/
def readNumbers (s : Text) : Except Stop (List Nat × Text) :=
  if (s.takeWhile isDecimal).isEmpty then .error (.fault .numbersExpected s)
  else
    match (numerals s).1.mapM readNumber with
    | .ok ns => .ok (ns, (numerals s).2)
    | .error e => .error e

theorem length_of_readNumbers {s r : Text} {ns : List Nat} (h : readNumbers s = .ok (ns, r)) :
    r.length ≤ s.length := by
  unfold readNumbers at h
  split at h
  · simp at h
  · split at h
    · cases h
      exact length_numerals_le s
    · simp at h

/-- Where numbers are read if a digit comes first, they take their part from the front. -/
theorem length_of_optionalNumbers {α : Type} {f : List Nat → α} {otherwise : Except Stop (α × Text)}
    {s r : Text} {a : α}
    (h : (if startsWithDigit s then
        match readNumbers s with
        | .ok (ns, rest) => .ok (f ns, rest)
        | .error e => .error e
      else otherwise) = .ok (a, r))
    (hotherwise : otherwise = .ok (a, r) → r.length ≤ s.length) : r.length ≤ s.length := by
  split at h
  · split at h
    · next hn =>
      cases h
      exact length_of_readNumbers hn
    · simp at h
  · exact hotherwise h

theorem length_getD_dropStart?_le (sign s : Text) :
    ((dropStart? sign s).getD s).length ≤ s.length := by
  cases h : dropStart? sign s with
  | none => exact Nat.le_refl _
  | some r => simp [dropStart?_eq_some_iff.1 h]

/-- The rest of a text after a keyword that no letter follows. -/
def keyword? (word s : Text) : Option Text :=
  match dropStart? word s with
  | some (c :: r) => if isLetter c then none else some (c :: r)
  | r => r

theorem length_of_keyword? {word s r : Text} (h : keyword? word s = some r) :
    r.length ≤ s.length := by
  have key : dropStart? word s = some r := by
    unfold keyword? at h
    split at h
    · next hd => split at h <;> simp_all
    · exact h
  rw [dropStart?_eq_some_iff] at key
  simp [key]

/-- A word of Latin letters and digits in double quotes. -/
def quotedWord? (s : Text) : Option (Text × Text) :=
  match s with
  | '"' :: r =>
    match r.dropWhile Char.isAlphanum with
    | '"' :: rest => some (r.takeWhile Char.isAlphanum, rest)
    | _ => none
  | _ => none

theorem length_of_quotedWord? {s w r : Text} (h : quotedWord? s = some (w, r)) :
    r.length ≤ s.length := by
  unfold quotedWord? at h
  split at h
  · next t =>
    split at h
    · next hd =>
      cases h
      have := length_lt_of_dropWhile hd
      rw [List.length_cons]
      omega
    · simp at h
  · simp at h

/-- One modifier of a pipeline. -/
def readModifier (s : Text) : Except Stop (Modifier × Text) :=
  if let some r := keyword? "cols" s then
    let header := (dropStart? "+h" r).isSome
    let after := skipBlanks ((dropStart? "+h" r).getD r)
    if startsWithDigit after then
      match readNumbers after with
      | .ok (ns, rest) => .ok (.format (.columns header ns), rest)
      | .error e => .error e
    else .ok (.format (.columns header []), after)
  else if let some r := keyword? "fields" s then
    let after := skipBlanks r
    if startsWithDigit after then
      match readNumbers after with
      | .ok (ns, rest) => .ok (.format (.fields ns), rest)
      | .error e => .error e
    else .error (.fault .fieldsExpected after)
  else if let some r := keyword? "json" s then .ok (.format .json, r)
  else if let some r := keyword? "filter" s then
    match quotedWord? (skipBlanks r) with
    | some (w, rest) => .ok (.filter w, rest)
    | none => .error (.fault .quotedWordExpected (skipBlanks r))
  else if let some r := keyword? "list" s then .ok (.takeAll, r)
  else if let some r := keyword? "multiple" s then .ok (.multiple, r)
  else if let some r := keyword? "multi" s then .ok (.multiple, r)
  else .error (.fault (.unknownModifier (s.takeWhile (!isBlank ·))) s)

theorem length_of_readModifier {s r : Text} {m : Modifier} (h : readModifier s = .ok (m, r)) :
    r.length ≤ s.length := by
  unfold readModifier at h
  split at h
  · next t ht =>
    have hword := length_of_keyword? ht
    have hsign := length_getD_dropStart?_le "+h" t
    have hblanks := length_skipBlanks_le ((dropStart? "+h" t).getD t)
    have hnumbers := length_of_optionalNumbers h fun h => by
      cases h
      exact Nat.le_refl _
    omega
  split at h
  · next t ht =>
    have hword := length_of_keyword? ht
    have hblanks := length_skipBlanks_le t
    have hnumbers := length_of_optionalNumbers h nofun
    omega
  split at h
  · next ht =>
    cases h
    exact length_of_keyword? ht
  split at h
  · next t ht =>
    split at h
    · next hq =>
      cases h
      have hword := length_of_keyword? ht
      have hblanks := length_skipBlanks_le t
      have hquoted := length_of_quotedWord? hq
      omega
    · simp at h
  split at h
  · next ht =>
    cases h
    exact length_of_keyword? ht
  split at h
  · next ht =>
    cases h
    exact length_of_keyword? ht
  split at h
  · next ht =>
    cases h
    exact length_of_keyword? ht
  · simp at h

/-- The shorthand after a colon: field numbers, or the letter m for several values, or both in
either order. -/
def readShorthand (s : Text) : Except Stop (List Modifier × Text) :=
  if startsWithDigit s then
    match readNumbers s with
    | .ok (ns, 'm' :: rest) => .ok ([.format (.fields ns), .multiple], rest)
    | .ok (ns, rest) => .ok ([.format (.fields ns)], rest)
    | .error e => .error e
  else match s with
  | 'm' :: r =>
    if startsWithDigit r then
      match readNumbers r with
      | .ok (ns, rest) => .ok ([.multiple, .format (.fields ns)], rest)
      | .error e => .error e
    else .ok ([.multiple], r)
  | _ => .error (.fault .shorthandExpected s)

theorem length_of_readShorthand {s r : Text} {ms : List Modifier}
    (h : readShorthand s = .ok (ms, r)) : r.length ≤ s.length := by
  unfold readShorthand at h
  split at h
  · split at h
    · next hn =>
      cases h
      exact Nat.le_of_succ_le (length_of_readNumbers hn)
    · next hn =>
      cases h
      exact length_of_readNumbers hn
    · simp at h
  · split at h
    · next t =>
      have hnumbers := length_of_optionalNumbers h fun h => by
        cases h
        exact Nat.le_refl _
      exact Nat.le_succ_of_le hnumbers
    · simp at h

/-- Adds the modifiers of a pipeline, each after a bar, to a placeholder. -/
def readPipeline (p : Placeholder) (s : Text) : Except Stop (Placeholder × Text) :=
  match hs : skipBlanks s with
  | '|' :: r =>
    let here := skipBlanks r
    match hm : readModifier here with
    | .error e => .error e
    | .ok (m, rest) =>
      match p.add m with
      | none => .error (.fault .formatRepeated here)
      | some q =>
        have : rest.length < s.length := by
          have h₁ := length_of_readModifier hm
          have h₂ := length_skipBlanks_le r
          have h₃ := length_skipBlanks_le s
          simp only [hs, List.length_cons] at h₃
          simp only [here] at h₁
          omega
        readPipeline q rest
  | _ => .ok (p, s)
termination_by s.length

theorem length_of_readPipeline {p q : Placeholder} {s r : Text}
    (h : readPipeline p s = .ok (q, r)) : r.length ≤ s.length := by
  fun_induction readPipeline p s with
  | case1 => simp at h
  | case2 => simp at h
  | case3 p s r' hs here m rest hm q' hq hlt ih => exact Nat.le_trans (ih h) (Nat.le_of_lt hlt)
  | case4 p s hs =>
    cases h
    exact Nat.le_refl _

end Runbook.Placeholder
