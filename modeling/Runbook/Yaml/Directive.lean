import Runbook.Text.Digits
import Runbook.Yaml.Block
import Runbook.Yaml.Tag

/-! Directives: lines before a document that tell its version and the meaning of handles. -/
namespace Runbook.Yaml

def isDirectiveChar (c : Char) : Bool := isHandleChar c || c == ':' || c == '.'

def skipSpaces (s : Text) : Text := s.dropWhile (· == ' ')

/-- A number of a version. -/
def versionNumber (s : Text) : Except Problem (Nat × Text) :=
  let digits := s.takeWhile Char.isDigit
  if digits.isEmpty then .error .malformed
  else match Text.readNumeral digits with
    | .ok n => .ok (n, s.dropWhile Char.isDigit)
    | .error count => .error (.number (.longNumeral count))

/-- A version and what follows it. -/
def version (s : Text) : Except Problem (Version × Text) := do
  match ← versionNumber s with
  | (major, '.' :: r) =>
    let (minor, rest) ← versionNumber r
    if atSpace rest then .ok (⟨major, minor⟩, rest) else .error .malformed
  | _ => .error .malformed

/-- A handle, its meaning, and what follows them. -/
def meaning? (v : Version) (s : Text) : Option (Directive × Text) := do
  let (handle, r) ← handle? s
  let (meaning, rest) ← if r.head? == some ' ' then tagWord? v (skipSpaces r) else none
  if atSpace rest then return (.handle handle meaning, rest) else none

/-- A directive after its percent sign, and what follows it. -/
def directive (v : Version) (s : Text) : Except Problem (Directive × Text) :=
  let name := s.takeWhile isDirectiveChar
  let rest := s.dropWhile isDirectiveChar
  if name.isEmpty || !atSpace rest then .error .malformed
  else if name = "YAML".toList then
    (version (skipSpaces rest)).map fun (v, rest) => (.version v, rest)
  else if name = "TAG".toList then (meaning? v (skipSpaces rest)).elim (.error .malformed) .ok
  else .ok (.other, rest.dropWhile (!isBreak ·))

end Runbook.Yaml
