import Runbook.Yaml.Problem
import Runbook.Yaml.Token

/-! Scalars in quotes. Each reader takes the content after the opening quote from the front of a text
and hands on what follows the closing one. -/
namespace Runbook.Yaml

theorem length_dropWhile_le (p : Char → Bool) (s : Text) : (s.dropWhile p).length ≤ s.length :=
  (s.dropWhile_suffix p).length_le

/-- The content of the line breaks in a gap. -/
def gapBreaks (gap : Text) : Text := (gap.filter isBreak).map breakContent

/-- White space in a quoted scalar stands for itself within a line; line breaks are folded. -/
def gapContent (gap : Text) : Text :=
  if gap.any isBreak then foldBreaks (gapBreaks gap) else gap

/-- No mark between documents may follow a line break inside a quoted scalar. -/
def gapAllowed (gap rest : Text) : Bool := !(gap.getLast?.any isBreak && atSeparator rest)

/-- Some content before the content that is read further on. -/
def before {ε β : Type} (content : Text) (x : Except ε (Text × β)) : Except ε (Text × β) :=
  x.map fun (more, rest) => (content ++ more, rest)

/-- The content of a scalar in single quotes. -/
def single (s : Text) : Except Problem (Text × Text) :=
  match s with
  | [] => .error .malformed
  | '\'' :: '\'' :: r => before ['\''] (single r)
  | '\'' :: r => .ok ([], r)
  | c :: r =>
    if isGap c then
      let gap := c :: r.takeWhile isGap
      let rest := r.dropWhile isGap
      if gapAllowed gap rest then before (gapContent gap) (single rest) else .error .malformed
    else before [c] (single r)
termination_by s.length
decreasing_by
  all_goals simp_wf
  all_goals have := length_dropWhile_le isGap r
  all_goals omega

/-- The characters that have a short escape. -/
def escapes : List (Char × Char) := [
  ('0', '\x00'), ('a', '\x07'), ('b', '\x08'), ('t', '\t'), ('\t', '\t'), ('n', '\n'),
  ('v', '\x0b'), ('f', '\x0c'), ('r', '\r'), ('e', '\x1b'), (' ', ' '), ('"', '"'), ('/', '/'),
  ('\\', '\\'), ('N', '\u0085'), ('_', '\u00a0'), ('L', '\u2028'), ('P', '\u2029')]

/-- How many hexadecimal digits follow the letter of a numeric escape. -/
def escapeSize : Char → Option Nat
  | 'x' => some 2
  | 'u' => some 4
  | 'U' => some 8
  | _ => none

/-- The number that so many hexadecimal digits at the front of a text denote. -/
def hexNumber? (size : Nat) (s : Text) : Option Nat :=
  let digits := s.take size
  if digits.length = size ∧ digits.all fun c => (Json.hexValue? c).isSome then
    some (Number.ofDigits 16 digits)
  else none

/-- The second half of a pair of 16-bit units, written as a numeric escape. -/
def lowUnit? : Text → Option (Nat × Text)
  | '\\' :: c :: r => do
    let size ← escapeSize c
    let n ← hexNumber? size r
    if 0xdc00 ≤ n ∧ n < 0xe000 then return (n, r.drop size) else none
  | _ => none

theorem length_of_lowUnit? {s rest : Text} {n : Nat} (h : lowUnit? s = some (n, rest)) :
    rest.length ≤ s.length := by
  unfold lowUnit? at h
  split at h
  · next c r =>
    simp only [bind, Option.bind_eq_some_iff] at h
    obtain ⟨size, -, m, -, h⟩ := h
    split at h
    · simp only [pure, Option.some.injEq, Prod.mk.injEq] at h
      rw [← h.2, List.length_drop, List.length_cons, List.length_cons]
      omega
    · simp at h
  · simp at h

/-- The character with a number and what is left. Two units in escapes that make a pair are one
character. -/
def numberedChar (n : Nat) (rest : Text) : Except Problem (Char × Text) :=
  if 0x80000000 ≤ n then .error (.noCharacter false)
  else if 0x110000 ≤ n then .error (.noCharacter true)
  else if 0xd800 ≤ n ∧ n < 0xdc00 then
    match lowUnit? rest with
    | some (low, after) =>
      .ok (Char.ofNat (0x10000 + (n - 0xd800) * 0x400 + (low - 0xdc00)), after)
    | none => .ok (Char.ofNat n, rest)
  else .ok (Char.ofNat n, rest)

theorem length_of_numberedChar {n : Nat} {rest after : Text} {c : Char}
    (h : numberedChar n rest = .ok (c, after)) : after.length ≤ rest.length := by
  unfold numberedChar at h
  split at h
  · simp at h
  · split at h
    · simp at h
    · split at h
      · split at h
        · next hl =>
          simp only [Except.ok.injEq, Prod.mk.injEq] at h
          rw [← h.2]
          exact length_of_lowUnit? hl
        · simp only [Except.ok.injEq, Prod.mk.injEq] at h
          exact Nat.le_of_eq (congrArg _ h.2.symm)
      · simp only [Except.ok.injEq, Prod.mk.injEq] at h
        exact Nat.le_of_eq (congrArg _ h.2.symm)

/-- The content of a scalar in double quotes. -/
def double (s : Text) : Except Problem (Text × Text) :=
  match s with
  | [] => .error .malformed
  | '"' :: r => .ok ([], r)
  | ['\\'] => .error .malformed
  | '\\' :: c :: r =>
    if isBreak c then
      let gap := r.takeWhile isGap
      let rest := r.dropWhile isGap
      if gapAllowed (c :: gap) rest then before (gapBreaks gap) (double rest)
      else .error .malformed
    else match escapes.lookup c with
    | some d => before [d] (double r)
    | none =>
      match escapeSize c with
      | none => .error .malformed
      | some size =>
        match hexNumber? size r with
        | none => .error .malformed
        | some n =>
          match h : numberedChar n (r.drop size) with
          | .error e => .error e
          | .ok (d, rest) =>
            have := length_of_numberedChar h
            before [d] (double rest)
  | c :: r =>
    if isGap c then
      let gap := c :: r.takeWhile isGap
      let rest := r.dropWhile isGap
      if gapAllowed gap rest then before (gapContent gap) (double rest) else .error .malformed
    else before [c] (double r)
termination_by s.length
decreasing_by
  all_goals simp_wf
  all_goals have := length_dropWhile_le isGap r
  all_goals try simp only [List.length_drop] at *
  all_goals omega

end Runbook.Yaml
