import Runbook.Text.Basic

/-! What can be wrong with the text of a placeholder. -/
namespace Runbook.Placeholder

inductive Fault where
  | openerExpected
  | nameExpected
  | shorthandExpected
  | fieldsExpected
  | numbersExpected
  | quotedWordExpected
  | formatRepeated
  | unknownModifier (word : Text)
  | unclosed
  | trailingText
  deriving DecidableEq, Repr

def Fault.message : Fault → Text
  | openerExpected => "Expected '$\x7b', '<\x7b' or 'NAME=\x7b'"
  | nameExpected => "Expected placeholder name"
  | shorthandExpected => "Expected field numbers or 'm' after ':'"
  | fieldsExpected => "Expected field numbers after 'fields'"
  | numbersExpected => "Expected field numbers"
  | quotedWordExpected => "Expected quoted word after 'filter'"
  | formatRepeated => "Placeholder format already set"
  | unknownModifier word => "Unknown placeholder modifier '" ++ word ++ "'"
  | unclosed => "Expected '\x7d' to close placeholder"
  | trailingText => "Unexpected text after placeholder"

/-- Why reading stopped: a fault, with the text left from the place where it lies, or a numeral
with more digits than are read. -/
inductive Stop where
  | fault (cause : Fault) (rest : Text)
  | longNumeral (digits : Nat)
  deriving DecidableEq, Repr

/-- The same with the place given as a position in the text. -/
inductive Problem where
  | fault (cause : Fault) (position : Nat)
  | longNumeral (digits : Nat)
  deriving DecidableEq, Repr

/-- The position in a text at which so much of it is left. -/
def Stop.inText (s : Text) : Stop → Problem
  | fault cause rest => .fault cause (s.length - rest.length)
  | longNumeral digits => .longNumeral digits

end Runbook.Placeholder
