import Runbook.Text.Lower

/-! The languages of code blocks. A language only decides which interpreter runs a command; the
source itself is never looked at. -/
namespace Runbook

inductive Language where
  | bash
  | haskell
  | javascript
  | python
  | json
  | yaml
  /-- No tag was given. -/
  | none
  | unknown
  deriving DecidableEq, Repr

namespace Language

def name : Language → Text
  | bash => "bash"
  | haskell => "haskell"
  | javascript => "javascript"
  | python => "python"
  | json => "json"
  | yaml => "yaml"
  | none => "none"
  | unknown => "unknown"

/-- The tags of a language, in lower case. -/
def aliases : List (Text × Language) := [
  ("bash", bash), ("sh", bash), ("shell", bash),
  ("haskell", haskell), ("hs", haskell),
  ("javascript", javascript), ("js", javascript), ("node", javascript),
  ("python", python), ("python3", python), ("py", python),
  ("json", json),
  ("yaml", yaml), ("yml", yaml)]

/-- The language of a tag, in any case and with white space around it. -/
def ofTag (tag : Text) : Language :=
  if Text.isBlankText tag then none
  else (aliases.lookup (Text.lower (Text.trim tag))).getD unknown

/-- The interpreter of a language that can be run; the path of a script follows it. -/
def interpreter? : Language → Option Text
  | bash => some "bash"
  | none => some "bash"
  | haskell => some "runghc"
  | javascript => some "node"
  | python => some "python3"
  | _ => Option.none

/-- The ending of a script's name. -/
def suffix : Language → Text
  | bash => ".sh"
  | none => ".sh"
  | haskell => ".hs"
  | javascript => ".js"
  | python => ".py"
  | _ => []

end Language
end Runbook
