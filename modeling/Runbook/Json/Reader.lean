import Runbook.Json.Fault
import Runbook.Text.Digits
import Runbook.Value

/-! Reading JSON. Besides the standard's values the words NaN and Infinity are numbers; a name that
occurs twice in an object has the last of its values at the first of its places. -/
namespace Runbook.Json

/-- What was read from the front of a text, and the rest, which is shorter. -/
structure Taken (α : Type) (s : Text) where
  value : α
  rest : Text
  shorter : rest.length < s.length

/-- The same as taken from a longer text. -/
def Taken.widen {α : Type} {s t : Text} (h : s.length ≤ t.length) (x : Taken α s) : Taken α t :=
  ⟨x.value, x.rest, Nat.lt_of_lt_of_le x.shorter h⟩

def isSpace (c : Char) : Bool := c == ' ' || c == '\t' || c == '\n' || c == '\r'

def skipSpace (s : Text) : Text := s.dropWhile isSpace

theorem length_skipSpace_le (s : Text) : (skipSpace s).length ≤ s.length :=
  (s.dropWhile_suffix isSpace).length_le

/-- The value of a hexadecimal digit. -/
def hexValue? (c : Char) : Option Nat :=
  if c.isDigit then some (c.toNat - '0'.toNat)
  else if 'a' ≤ c && c ≤ 'f' then some (c.toNat - 'a'.toNat + 10)
  else if 'A' ≤ c && c ≤ 'F' then some (c.toNat - 'A'.toNat + 10)
  else none

/-- The number that four hexadecimal digits denote. -/
def hexUnit? (a b c d : Char) : Option Nat :=
  match hexValue? a, hexValue? b, hexValue? c, hexValue? d with
  | some w, some x, some y, some z => some (((w * 16 + x) * 16 + y) * 16 + z)
  | _, _, _, _ => none

/-- The character that a letter after a backslash stands for. -/
def escaped? : Char → Option Char
  | '"' => some '"'
  | '\\' => some '\\'
  | '/' => some '/'
  | 'b' => some '\x08'
  | 'f' => some '\x0c'
  | 'n' => some '\n'
  | 'r' => some '\r'
  | 't' => some '\t'
  | _ => none

/-- The character of a 16-bit unit; half of a pair that lacks its partner is the replacement
character. -/
def unitChar (u : Nat) : Char := if 0xd800 ≤ u ∧ u < 0xe000 then '\ufffd' else Char.ofNat u

/-- The 16-bit unit written after a backslash and the letter u, and the rest. At least one more
character has to follow it. -/
def unit? : Text → Option (Nat × Text)
  | a :: b :: c :: d :: e :: rest => (hexUnit? a b c d).map (·, e :: rest)
  | _ => none

theorem length_of_unit? {s r : Text} {n : Nat} (h : unit? s = some (n, r)) :
    r.length < s.length := by
  unfold unit? at h
  split at h
  · simp only [Option.map_eq_some_iff, Prod.mk.injEq] at h
    obtain ⟨_, _, _, rfl⟩ := h
    simp
  · simp at h

/-- The second unit of a pair, if it follows: nothing where something else follows, and a stop
where its digits are wrong. -/
def lowUnit? (s : Text) : Except Stop (Option (Nat × Text)) :=
  match s with
  | '\\' :: 'u' :: a :: b :: c :: d :: e :: rest =>
    match hexUnit? a b c d with
    | none => .error (.fault .badUnicodeEscape ('u' :: a :: b :: c :: d :: e :: rest))
    | some u => .ok (if 0xdc00 ≤ u ∧ u < 0xe000 then some (u, e :: rest) else none)
  | _ => .ok none

theorem length_of_lowUnit? {s r : Text} {n : Nat} (h : lowUnit? s = .ok (some (n, r))) :
    r.length < s.length := by
  unfold lowUnit? at h
  split at h
  · split at h
    · simp at h
    · split at h
      · simp only [Except.ok.injEq, Option.some.injEq, Prod.mk.injEq] at h
        rw [← h.2]
        simp
      · simp at h
  · simp at h

/-- The content of a string up to its closing quote, after some of it; start is the text from the
opening quote. -/
def readString (start content : Text) (s : Text) : Except Stop (Taken Text s) :=
  match s with
  | [] => .error (.fault .unterminated start)
  | '"' :: rest => .ok ⟨content.reverse, rest, by simp⟩
  | ['\\'] => .error (.fault .unterminated start)
  | '\\' :: 'u' :: r =>
    match h : unit? r with
    | none => .error (.fault .badUnicodeEscape ('u' :: r))
    | some (u, rest) =>
      have hr := length_of_unit? h
      if 0xd800 ≤ u ∧ u < 0xdc00 then
        match h' : lowUnit? rest with
        | .error e => .error e
        | .ok (some (v, rest')) =>
          have hr' := length_of_lowUnit? h'
          let c := Char.ofNat (0x10000 + (u - 0xd800) * 0x400 + (v - 0xdc00))
          (readString start (c :: content) rest').map (·.widen (by simp only [List.length_cons]; omega))
        | .ok none =>
          (readString start (unitChar u :: content) rest).map
            (·.widen (by simp only [List.length_cons]; omega))
      else
        (readString start (unitChar u :: content) rest).map
          (·.widen (by simp only [List.length_cons]; omega))
  | '\\' :: c :: r =>
    match escaped? c with
    | none => .error (.fault .badEscape ('\\' :: c :: r))
    | some d => (readString start (d :: content) r).map (·.widen (by simp only [List.length_cons]; omega))
  | c :: r =>
    if c.toNat < 0x20 then .error (.fault .controlCharacter (c :: r))
    else (readString start (c :: content) r).map (·.widen (by simp))
termination_by s.length

/-- The digits at the front of a text. -/
def digits (s : Text) : Text := s.takeWhile Char.isDigit

def afterDigits (s : Text) : Text := s.dropWhile Char.isDigit

/-- The digits after a point, if it has any, and the rest. -/
def fraction (s : Text) : Text × Text :=
  match s with
  | '.' :: r => if (digits r).isEmpty then ([], s) else (digits r, afterDigits r)
  | _ => ([], s)

/-- A sign at the front of a text, and the rest. -/
def sign : Text → Bool × Text
  | '-' :: r => (true, r)
  | '+' :: r => (false, r)
  | r => (false, r)

/-- The power of ten after the letter e, if it has digits, and the rest. -/
def power (s : Text) : Option Int × Text :=
  match s with
  | e :: r =>
    if (e == 'e' || e == 'E') && !(digits (sign r).2).isEmpty then
      let n : Int := Text.numeral (digits (sign r).2)
      (some (if (sign r).1 then -n else n), afterDigits (sign r).2)
    else (none, s)
  | [] => (none, s)

theorem length_afterDigits_le (s : Text) : (afterDigits s).length ≤ s.length :=
  (s.dropWhile_suffix Char.isDigit).length_le

theorem length_sign_le (s : Text) : (sign s).2.length ≤ s.length := by
  unfold sign
  split <;> simp

theorem length_fraction_le (s : Text) : (fraction s).2.length ≤ s.length := by
  unfold fraction
  split
  · next r =>
    have := length_afterDigits_le r
    split <;> simp only [List.length_cons] <;> omega
  · simp

theorem length_power_le (s : Text) : (power s).2.length ≤ s.length := by
  unfold power
  split
  · next e r =>
    have h₁ := length_sign_le r
    have h₂ := length_afterDigits_le (sign r).2
    split <;> simp only [List.length_cons] <;> omega
  · simp

/-- What follows the digits of a number before its point; none follow a leading zero. -/
def afterWhole (c : Char) (r : Text) : Text := if c == '0' then r else afterDigits r

theorem length_afterWhole_le (c : Char) (r : Text) : (afterWhole c r).length ≤ r.length := by
  unfold afterWhole
  split
  · exact Nat.le_refl _
  · exact length_afterDigits_le r

/-- What follows a number is shorter than the number with it. -/
theorem length_afterNumber_lt (c : Char) (r : Text) :
    (power (fraction (afterWhole c r)).2).2.length < (c :: r).length := by
  have h₁ := length_afterWhole_le c r
  have h₂ := length_fraction_le (afterWhole c r)
  have h₃ := length_power_le (fraction (afterWhole c r)).2
  rw [List.length_cons]
  omega

/-- A number without its sign: an integer, or a decimal when it has a fraction or a power. -/
def readNumber (negative : Bool) (start s : Text) : Except Stop (Taken Value s) :=
  match s with
  | [] => .error (.fault .valueExpected start)
  | c :: r =>
    if c.isDigit then
      let whole := if c == '0' then ['0'] else c :: digits r
      let places := (fraction (afterWhole c r)).1
      let scaled := power (fraction (afterWhole c r)).2
      have shorter := length_afterNumber_lt c r
      if places.isEmpty && scaled.1.isNone then
        match Text.readNumeral whole with
        | .ok n => .ok ⟨.int (if negative then -n else n), scaled.2, shorter⟩
        | .error count => .error (.longNumeral count)
      else
        .ok ⟨.real (.ofDecimal negative (Text.numeral (whole ++ places))
          (scaled.1.getD 0 - places.length)), scaled.2, shorter⟩
    else .error (.fault .valueExpected start)

/-- The rest of a text after a word that it begins with, as a value. -/
def word? (w : Text) (v : Value) (hw : w ≠ []) (s : Text) : Option (Taken Value s) :=
  match h : Text.dropStart? w s with
  | some rest => some ⟨v, rest, by
      rw [Text.dropStart?_eq_some_iff.1 h, List.length_append]
      have := List.length_pos_iff.2 hw
      omega⟩
  | none => none

/-- The words that stand for values. -/
def named? (s : Text) : Option (Taken Value s) :=
  word? "null" .null (by decide) s
    <|> word? "true" (.bool true) (by decide) s
    <|> word? "false" (.bool false) (by decide) s
    <|> word? "NaN" (.real .undefined) (by decide) s
    <|> word? "Infinity" (.real (.infinite false)) (by decide) s
    <|> word? "-Infinity" (.real (.infinite true)) (by decide) s

/-- How many objects and arrays may stand inside one another. -/
def depthLimit : Nat := 985

mutual

/-- One value at the front of a text, with room for so many levels of objects and arrays. -/
def readValue (room : Nat) (s : Text) : Except Stop (Taken Value s) :=
  match s with
  | [] => .error (.fault .valueExpected [])
  | '"' :: r =>
    (readString ('"' :: r) [] r).map fun x => ⟨.text x.value, x.rest, by
      have := x.shorter
      simp only [List.length_cons]
      omega⟩
  | '\x7b' :: r =>
    if room = 0 then .error .tooDeep
    else
      have hr := length_skipSpace_le r
      match h : skipSpace r with
      | '\x7d' :: rest => .ok ⟨.map [], rest, by simp only [h, List.length_cons] at hr ⊢; omega⟩
      | _ =>
        (readMembers (room - 1) [] (skipSpace r)).map
          (·.widen (by simp only [List.length_cons]; omega))
  | '[' :: r =>
    if room = 0 then .error .tooDeep
    else
      have hr := length_skipSpace_le r
      match h : skipSpace r with
      | ']' :: rest => .ok ⟨.list [], rest, by simp only [h, List.length_cons] at hr ⊢; omega⟩
      | _ =>
        (readItems (room - 1) [] (skipSpace r)).map
          (·.widen (by simp only [List.length_cons]; omega))
  | c :: r =>
    match named? (c :: r) with
    | some x => .ok x
    | none =>
      if c == '-' then
        (readNumber true (c :: r) r).map (·.widen (by simp))
      else readNumber false (c :: r) (c :: r)
termination_by 2 * s.length

/-- The members of an object from the name of one of them on, after others. -/
def readMembers (room : Nat) (members : List (Text × Value)) (s : Text) :
    Except Stop (Taken Value s) :=
  match s with
  | '"' :: r =>
    match readString ('"' :: r) [] r with
    | .error e => .error e
    | .ok name =>
      have h₁ := name.shorter
      have h₂ := length_skipSpace_le name.rest
      match ht : skipSpace name.rest with
      | ':' :: t =>
        have h₃ := length_skipSpace_le t
        have ht' := congrArg List.length ht
        match readValue room (skipSpace t) with
        | .error e => .error e
        | .ok v =>
          have h₄ := v.shorter
          have h₅ := length_skipSpace_le v.rest
          match hu : skipSpace v.rest with
          | '\x7d' :: rest =>
            .ok ⟨.ofEntries (Value.put members name.value v.value), rest, by
              simp only [hu, List.length_cons] at h₅ ht' ⊢
              omega⟩
          | ',' :: u =>
            have h₆ := length_skipSpace_le u
            have hu' := congrArg List.length hu
            (readMembers room (Value.put members name.value v.value) (skipSpace u)).map
              (·.widen (by simp only [List.length_cons] at ht' hu' ⊢; omega))
          | other => .error (.fault .commaExpected other)
      | other => .error (.fault .colonExpected other)
  | other => .error (.fault .nameExpected other)
termination_by 2 * s.length + 1
decreasing_by
  all_goals simp_wf
  all_goals simp only [List.length_cons] at *
  all_goals omega

/-- The items of an array from one of them on, after others. -/
def readItems (room : Nat) (items : List Value) (s : Text) : Except Stop (Taken Value s) :=
  match readValue room s with
  | .error e => .error e
  | .ok v =>
    have h₁ := v.shorter
    have h₂ := length_skipSpace_le v.rest
    match ht : skipSpace v.rest with
    | ']' :: rest =>
      .ok ⟨.list (items ++ [v.value]), rest, by simp only [ht, List.length_cons] at h₂; omega⟩
    | ',' :: t =>
      have h₃ := length_skipSpace_le t
      have ht' := congrArg List.length ht
      (readItems room (items ++ [v.value]) (skipSpace t)).map
        (·.widen (by simp only [List.length_cons] at ht'; omega))
    | other => .error (.fault .commaExpected other)
termination_by 2 * s.length + 1
decreasing_by
  · exact Nat.lt_succ_self _
  · simp only [List.length_cons] at ht'
    omega

end

/-- The value of a whole document. -/
def parse (s : Text) : Except Problem Value :=
  match s with
  | '\ufeff' :: _ => .error (.error ⟨.byteOrderMark, .after []⟩)
  | _ =>
    match readValue depthLimit (skipSpace s) with
    | .error e => .error (e.inText s)
    | .ok v =>
      let rest := skipSpace v.rest
      if rest.isEmpty then .ok v.value else .error ((Stop.fault .trailingData rest).inText s)

end Runbook.Json
