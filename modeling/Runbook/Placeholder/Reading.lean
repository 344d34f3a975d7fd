import Runbook.Placeholder.Modifiers

/-! Reading one placeholder from the front of a text. Once its opener has been read, anything
unexpected is a fault. -/
namespace Runbook.Placeholder

open Text

/-- The opener of a placeholder: an environment variable may be named before the equals sign. -/
inductive Opener where
  | input
  | argument
  | environment (given : Text)
  deriving DecidableEq, Repr

/-- The characters of a variable named in an opener. -/
def isAliasChar (c : Char) : Bool := c.isAlphanum || c == '_'

/-- The opener at the front of a text, if there is one, and what follows it. -/
def opener? : Text → Option (Opener × Text)
  | '<' :: '\x7b' :: r => some (.input, r)
  | '$' :: '\x7b' :: r => some (.argument, r)
  | s =>
    match s.dropWhile isAliasChar with
    | '=' :: '\x7b' :: r => some (.environment (s.takeWhile isAliasChar), r)
    | _ => none

theorem length_of_opener? {s r : Text} {o : Opener} (h : opener? s = some (o, r)) :
    r.length < s.length := by
  unfold opener? at h
  split at h
  · simp only [Option.some.injEq, Prod.mk.injEq] at h
    simp only [List.length_cons, ← h.2]
    omega
  · simp only [Option.some.injEq, Prod.mk.injEq] at h
    simp only [List.length_cons, ← h.2]
    omega
  · next t _ _ =>
    split at h
    · next hd =>
      have := (s.dropWhile_suffix isAliasChar).length_le
      simp only [Option.some.injEq, Prod.mk.injEq] at h
      simp only [hd, List.length_cons, h.2] at this
      omega
    · simp at h

/-- The characters of a placeholder's name. -/
def isNameChar (c : Char) : Bool := c != ' ' && c != ':' && c != '|' && c != '\x7d'

/-- Hyphens cannot stand in the name of a variable. -/
def variableName (s : Text) : Text := replaceChar '-' '_' s

/-- Where the values go; a variable without a name of its own is named after the placeholder. -/
def Opener.target (name : Text) : Opener → Target
  | input => .input
  | argument => .argument
  | environment given => .environment (variableName (if given.isEmpty then name else given))

/-- The modifiers written as shorthand, if a colon announces them. -/
def readShorthand? : Text → Except Stop (List Modifier × Text)
  | ':' :: r => readShorthand r
  | s => .ok ([], s)

/-- What follows the opener. -/
def readBody (o : Opener) (s : Text) : Except Stop (Placeholder × Text) :=
  let name := s.takeWhile isNameChar
  if name.isEmpty then .error (.fault .nameExpected s)
  else
    match readShorthand? (s.dropWhile isNameChar) with
    | .error e => .error e
    | .ok (ms, afterShorthand) =>
      match addAll { target := o.target name, name := name } ms with
      | none => .error (.fault .formatRepeated afterShorthand)
      | some p =>
        match readPipeline p afterShorthand with
        | .error e => .error e
        | .ok (q, rest) =>
          match skipBlanks rest with
          | '\x7d' :: after => .ok (q, after)
          | other => .error (.fault .unclosed other)

theorem length_of_readBody {o : Opener} {s r : Text} {p : Placeholder}
    (h : readBody o s = .ok (p, r)) : r.length ≤ s.length := by
  unfold readBody at h
  dsimp only at h
  split at h
  · simp at h
  split at h
  · simp at h
  next ms t ht =>
  split at h
  · simp at h
  split at h
  · simp at h
  next q u hq =>
  split at h
  · next v hv =>
    have h₁ := length_skipBlanks_le u
    have h₂ := length_of_readPipeline hq
    have h₃ : t.length ≤ (s.dropWhile isNameChar).length := by
      unfold readShorthand? at ht
      split at ht
      · next hs =>
        have := length_of_readShorthand ht
        simp only [hs, List.length_cons]
        omega
      · simp only [Except.ok.injEq, Prod.mk.injEq] at ht
        simp [ht.2]
    have h₄ := (s.dropWhile_suffix isNameChar).length_le
    simp only [Except.ok.injEq, Prod.mk.injEq] at h
    simp only [hv, List.length_cons, h.2] at h₁
    omega
  · simp at h

/-- The placeholder at the front of a text and what follows it; nothing where no opener stands. -/
def read? (s : Text) : Option (Except Stop (Placeholder × Text)) :=
  (opener? s).map fun (o, r) => readBody o r

theorem length_of_read? {s r : Text} {p : Placeholder} (h : read? s = some (.ok (p, r))) :
    r.length < s.length := by
  simp only [read?, Option.map_eq_some_iff] at h
  obtain ⟨⟨o, t⟩, ho, ht⟩ := h
  exact Nat.lt_of_le_of_lt (length_of_readBody ht) (length_of_opener? ho)

/-- All placeholders of a text, from left to right; other characters are skipped. -/
def scan (s : Text) : Except Stop (List Placeholder) :=
  match s with
  | [] => .ok []
  | c :: t =>
    match h : read? (c :: t) with
    | none => scan t
    | some (.error e) => .error e
    | some (.ok (p, rest)) =>
      have : rest.length < t.length + 1 := length_of_read? h
      match scan rest with
      | .ok ps => .ok (p :: ps)
      | .error e => .error e
termination_by s.length

/-- The placeholder that starts at a position, and the position after it. -/
def readAt? (s : Text) (position : Nat) : Option (Except Problem (Placeholder × Nat)) :=
  (read? (s.drop position)).map fun
    | .ok (p, rest) => .ok (p, s.length - rest.length)
    | .error e => .error (e.inText s)

/-- A text that holds one placeholder and nothing else but white space around it. -/
def parse (s : Text) : Except Problem Placeholder :=
  let t := trim s
  match read? t with
  | none => .error (.fault .openerExpected 0)
  | some (.error e) => .error (e.inText t)
  | some (.ok (p, rest)) =>
    if rest.isEmpty then .ok p else .error ((Stop.fault .trailingText rest).inText t)

/-- The first word of a text, and the placeholders in what follows it. -/
def splitName (s : Text) : Except Problem (Text × List Placeholder) :=
  let t := trimStart s
  let name := t.takeWhile (!isBlank ·)
  let after := t.dropWhile (!isBlank ·)
  match scan after with
  | .ok ps => .ok (name, ps)
  | .error e => .error (e.inText after)

end Runbook.Placeholder
