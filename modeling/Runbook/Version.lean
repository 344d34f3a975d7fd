import Runbook.Text.Basic

/-! The version of the program. -/
namespace Runbook

/-- The version of a program that is not installed. -/
def unreleased : Text := "0.0.0"

/-- The version to be told. -/
def version (installed : Option Text) : Text := installed.getD unreleased

end Runbook
