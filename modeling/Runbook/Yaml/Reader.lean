import Runbook.Yaml.Collection
import Runbook.Yaml.Unfolding

/-! Reading YAML documents as data. -/
namespace Runbook.Yaml

namespace Reader

/-- The value of the only document of a text whose characters have been checked. -/
def value : Reading Value := do
  match ← document with
  | none => return .null
  | some root =>
    let d ← documentData root
    return unfold (← get).holders d

/-- Reads the only document of a text. A text without a document is null. -/
def read (r : Reader) (s : Text) : Except Problem Value × Reader :=
  let text := Text.normalizeNewlines s
  if !text.all isAllowed then (.error .malformed, r)
  else match value { r with stream := r.stream.restart text } with
    | .ok v r => (.ok v, r)
    | .error e r => (.error e, r)

end Reader

/-- The data of the only document of a text. -/
def parse (s : Text) : Except Problem Value := (Reader.read {} s).1

end Runbook.Yaml
