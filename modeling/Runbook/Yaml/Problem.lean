import Runbook.Number.Written
import Runbook.Yaml.Date

/-! Why a YAML document cannot be read. -/
namespace Runbook.Yaml

inductive Problem where
  /-- The document is not well formed. -/
  | malformed
  /-- Collections stand too deep inside one another. -/
  | tooDeep
  /-- The document asks for a version of the language that is not read. -/
  | refusedVersion
  /-- Scalars of this version have no types. -/
  | untypedVersion
  /-- A character with a number beyond the last one, which may be too large even to ask for. -/
  | noCharacter (sizable : Bool)
  | number (fault : Number.Unreadable)
  /-- Nothing is left of a number but underscores and a sign. -/
  | noNumber
  /-- A decimal of the older version with more than one exponent. -/
  | manyExponents
  /-- Sixties of a power that no decimal reaches. -/
  | greatSixties
  | notBoolean
  | date (fault : DateFault)
  /-- A key that occurs twice in an ordered mapping. -/
  | repeatedKey
  /-- A key with something in it that may change. -/
  | fluidKey
  deriving DecidableEq, Repr

namespace Problem

/-- The words for a problem, if there are any. -/
def message? : Problem → Option Text
  | noCharacter true => some "chr() arg not in range(0x110000)"
  | number fault => some fault.message
  | manyExponents => some "too many values to unpack (expected 2)"
  | date .endOfTime => none
  | date fault => some fault.message
  | _ => none

end Problem
end Runbook.Yaml
