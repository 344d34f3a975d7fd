import Runbook.Text.Basic

/-! Headings with attributes: a name, then a block in braces with flags such as .command and pairs
such as type=git. A heading without a well-formed block is all name. -/
namespace Runbook

inductive Attribute where
  | flag (name : Text)
  | pair (key value : Text)
  deriving DecidableEq, Repr

structure Heading where
  name : Text
  flags : List Text := []
  pairs : List (Text × Text) := []
  deriving DecidableEq, Repr

namespace Attribute

def flag? : Attribute → Option Text
  | flag name => some name
  | pair _ _ => none

def pair? : Attribute → Option (Text × Text)
  | flag _ => none
  | pair key value => some (key, value)

/-- The characters of flags and keys. -/
def isWordChar (c : Char) : Bool := c.isAlpha || c == '_' || c == '-'

/-- A value: quoted text, or letters. -/
def value? (s : Text) : Option (Text × Text) :=
  let letters := s.takeWhile Char.isAlpha
  let bare := if letters.isEmpty then none else some (letters, s.dropWhile Char.isAlpha)
  match s with
  | '"' :: r =>
    match r.dropWhile (· != '"') with
    | '"' :: rest => some (r.takeWhile (· != '"'), rest)
    | _ => bare
  | _ => bare

/-- One attribute at the front of a text, and what follows it. -/
def read? (s : Text) : Option (Attribute × Text) :=
  match s with
  | '.' :: r =>
    let name := r.takeWhile isWordChar
    if name.isEmpty then none else some (flag name, r.dropWhile isWordChar)
  | _ =>
    let key := s.takeWhile isWordChar
    if key.isEmpty then none
    else match s.dropWhile isWordChar with
      | '=' :: r => (value? r).map fun (v, rest) => (pair key v, rest)
      | _ => none

theorem length_dropWhile_lt {p : Char → Bool} {s : Text} (h : ¬ (s.takeWhile p).isEmpty) :
    (s.dropWhile p).length < s.length := by
  cases s with
  | nil => simp at h
  | cons c s =>
    by_cases hc : p c
    · have := (s.dropWhile_suffix p).length_le
      simp [hc]
      omega
    · simp [hc] at h

theorem length_of_value? {s v r : Text} (h : value? s = some (v, r)) : r.length ≤ s.length := by
  have bare {x : Option (Text × Text)} (hx : x = if (s.takeWhile Char.isAlpha).isEmpty then none
      else some (s.takeWhile Char.isAlpha, s.dropWhile Char.isAlpha)) (h : x = some (v, r)) :
      r.length ≤ s.length := by
    have := (s.dropWhile_suffix Char.isAlpha).length_le
    split at hx
    · simp [hx] at h
    · simp only [hx, Option.some.injEq, Prod.mk.injEq] at h
      rw [← h.2]
      exact this
  unfold value? at h
  dsimp only at h
  split at h
  · next t =>
    split at h
    · next rest hd =>
      have := (t.dropWhile_suffix (· != '"')).length_le
      simp only [Option.some.injEq, Prod.mk.injEq] at h
      simp only [hd, List.length_cons, h.2] at this ⊢
      omega
    · exact bare rfl h
  · exact bare rfl h

theorem length_of_read? {s r : Text} {a : Attribute} (h : read? s = some (a, r)) :
    r.length < s.length := by
  unfold read? at h
  split at h
  · next t =>
    dsimp only at h
    split at h
    · simp at h
    · simp only [Option.some.injEq, Prod.mk.injEq] at h
      have := (t.dropWhile_suffix isWordChar).length_le
      rw [← h.2, List.length_cons]
      omega
  · dsimp only at h
    split at h
    · simp at h
    · next hk =>
      have hlt := length_dropWhile_lt hk
      split at h
      · next t ht =>
        simp only [Option.map_eq_some_iff, Prod.mk.injEq] at h
        obtain ⟨⟨v, u⟩, hv, -, rfl⟩ := h
        have := length_of_value? hv
        simp only [ht, List.length_cons] at hlt ⊢
        omega
      · simp at h

/-- The attributes up to the closing brace, with white space before each, and what follows it. -/
def readAll? (s : Text) : Option (List Attribute × Text) :=
  match hs : Text.trimStart s with
  | '\x7d' :: rest => some ([], rest)
  | t =>
    match h : read? t with
    | none => none
    | some (a, rest) =>
      have : rest.length < s.length := by
        have h₁ := length_of_read? h
        have h₂ := (s.dropWhile_suffix Text.isBlank).length_le
        simp only [Text.trimStart] at hs
        rw [hs] at h₂
        omega
      (readAll? rest).map fun (as, after) => (a :: as, after)
termination_by s.length

end Attribute

namespace Heading

/-- The text before the first brace that opens an attribute block, and the text after that brace.
A brace after one of the signs that open a placeholder does not count. -/
def splitBlock? : Text → Option (Text × Text)
  | [] => none
  | '\x7b' :: s => some ([], s)
  | c :: '\x7b' :: s =>
    if c == '$' || c == '<' || c == '=' then
      (splitBlock? s).map fun (before, after) => (c :: '\x7b' :: before, after)
    else some ([c], s)
  | c :: s => (splitBlock? s).map fun (before, after) => (c :: before, after)

def hasFlag (h : Heading) (flag : Text) : Bool := h.flags.contains flag

/-- The values given for a key, in order. -/
def valuesOf (h : Heading) (key : Text) : List Text :=
  h.pairs.filterMap fun p => if p.1 = key then some p.2 else none

/-- The heading with more flags before its own, those that it has left out. -/
def withFlags (h : Heading) (flags : List Text) : Heading :=
  { h with flags := flags.filter (!h.flags.contains ·) ++ h.flags }

/-- The heading of a text. -/
def parse (s : Text) : Heading :=
  match splitBlock? s with
  | none => ⟨s, [], []⟩
  | some (before, block) =>
    match Attribute.readAll? block with
    | none => ⟨s, [], []⟩
    | some (as, _) =>
      ⟨Text.trim before, as.filterMap Attribute.flag?, as.filterMap Attribute.pair?⟩

end Heading
end Runbook
