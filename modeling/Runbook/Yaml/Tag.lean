import Runbook.Text.Utf8
import Runbook.Yaml.Quoted

/-! The names that stand before nodes: tags with their handles, and anchors. -/
namespace Runbook.Yaml

/-- The characters of handles, besides the exclamation marks. -/
def isHandleChar (c : Char) : Bool := c.isAlphanum || c == '-' || c == '_'

/-- A handle: an exclamation mark before a space, or two with a name or nothing between them. -/
def handle? : Text → Option (Text × Text)
  | '!' :: ' ' :: r => some (['!'], ' ' :: r)
  | '!' :: r =>
    match r.dropWhile isHandleChar with
    | '!' :: rest => some ('!' :: r.takeWhile isHandleChar ++ ['!'], rest)
    | _ => none
  | _ => none

/-- The characters of tags, besides percent signs. -/
def isTagChar (v : Version) (c : Char) : Bool :=
  c.isAlphanum || "-;/?:@&=+$,_.!~*'()[]".toList.contains c || v.isLater && c == '#'

/-- The bytes of percent signs with two hexadecimal digits each, at the front of a text. -/
def percentBytes? : Text → Option (List UInt8 × Text)
  | '%' :: a :: b :: r => do
    let n ← hexNumber? 2 [a, b]
    let (bytes, rest) ← percentBytes? r
    return (n.toUInt8 :: bytes, rest)
  | '%' :: _ => none
  | s => some ([], s)

theorem length_of_percentBytes? {s rest : Text} {bytes : List UInt8}
    (h : percentBytes? s = some (bytes, rest)) : rest.length ≤ s.length := by
  fun_induction percentBytes? s generalizing bytes rest with
  | case1 a b r ih =>
    simp only [bind, Option.bind_eq_some_iff] at h
    obtain ⟨n, -, ⟨more, after⟩, hm, h⟩ := h
    simp only [pure, Option.some.injEq, Prod.mk.injEq] at h
    have := ih hm
    rw [← h.2]
    simp only [List.length_cons]
    omega
  | case2 => simp at h
  | case3 =>
    simp only [Option.some.injEq, Prod.mk.injEq] at h
    exact Nat.le_of_eq (congrArg _ h.2.symm)

/-- The characters of a tag at the front of a text, as they are written. Bytes next to one another
have to make characters. -/
def tagChars? (v : Version) (s : Text) : Option (Text × Text) :=
  match s with
  | '%' :: a :: b :: r =>
    match hexNumber? 2 [a, b] with
    | none => none
    | some n =>
      match h : percentBytes? r with
      | none => none
      | some (bytes, rest) =>
        have := length_of_percentBytes? h
        match Text.decode (n.toUInt8 :: bytes) with
        | .error _ => none
        | .ok _ =>
          let written := '%' :: a :: b :: r.take (r.length - rest.length)
          (tagChars? v rest).map fun (more, after) => (written ++ more, after)
  | '%' :: _ => none
  | c :: r =>
    if isTagChar v c then (tagChars? v r).map fun (more, after) => (c :: more, after)
    else some ([], c :: r)
  | [] => some ([], [])
termination_by s.length

/-- A tag, or a part of one, that is not empty. -/
def tagWord? (v : Version) (s : Text) : Option (Text × Text) :=
  (tagChars? v s).filter fun found => !found.1.isEmpty

/-- Percent signs and digits as the characters whose numbers they give. -/
def withoutPercents : Text → Text
  | '%' :: a :: b :: r =>
    match hexNumber? 2 [a, b] with
    | some n => Char.ofNat n :: withoutPercents r
    | none => '%' :: withoutPercents (a :: b :: r)
  | c :: r => c :: withoutPercents r
  | [] => []

/-- The lone exclamation mark, by which nothing is said. -/
def Tag.mute : Tag := ⟨none, ['!']⟩

/-- A tag after its first exclamation mark, or after two of them; the handle is what stands for
these. -/
def tagAfter? (v : Version) (marks r : Text) : Option (Tag × Text) :=
  match r with
  | '<' :: s =>
    match tagWord? v s with
    | some (t, '>' :: rest) => some (⟨none, t⟩, rest)
    | _ => none
  | s =>
    if atGap s then some (.mute, s)
    else if (s.takeWhile fun c => !(c == ' ' || isBreak c)).contains '!' then do
      let (handle, t) ← handle? ('!' :: s)
      let (suffix, rest) ← tagWord? v t
      return (⟨some handle, suffix⟩, rest)
    else (tagWord? v s).map fun (suffix, rest) => (⟨some marks, suffix⟩, rest)

/-- A tag after its first character. -/
def tag? (v : Version) (r : Text) : Option (Tag × Text) :=
  let found := match r with
    | '!' :: s => tagAfter? v ['!', '!'] s
    | s => tagAfter? v ['!'] s
  found.filter fun (_, rest) => atSpace rest

/-- What the handles of tags stand for. -/
abbrev Handles := List (Text × Text)

def standardHandles : Handles := [("!", "!"), ("!!", "tag:yaml.org,2002:")]

/-- The whole of a tag whose handle is known. -/
def Tag.whole? (handles : Handles) (t : Tag) : Option Text :=
  match t.handle with
  | none => some (withoutPercents t.suffix)
  | some handle => (handles.lookup handle).map (· ++ withoutPercents t.suffix)

/-- The characters of anchors. -/
def isAnchorChar (c : Char) : Bool :=
  let n := c.toNat
  !(",[]\x7b\x7d".toList.contains c) && (0x21 ≤ n && n ≤ 0x7e || 0xa0 ≤ n && c != '\ufeff')

/-- A name after the mark of an anchor or of a reference to one. -/
def anchorName? (s : Text) : Option (Text × Text) :=
  let name := s.takeWhile isAnchorChar
  let rest := s.dropWhile isAnchorChar
  let ends := atGap rest || rest.head?.any fun c => "?:,[]\x7b\x7d%@`".toList.contains c
  if name.isEmpty || !ends then none else some (name, rest)

end Runbook.Yaml
