import Runbook.Command
import Runbook.Settings.Basic

/-! Catalogs: the commands and the settings of one document. -/
namespace Runbook

structure Catalog where
  settings : Option Settings := none
  commands : List Command := []
  path : Text := []
  deriving DecidableEq, Repr

end Runbook
