import Runbook.Session.Act

/-! The exchange with a host that knows the files and can start processes, as data: what it tells
about the surroundings, what it is told to do, and what it answers. An answer without the form that
is expected counts as that of a world where nothing is there. -/
namespace Runbook.Exchange

def object (entries : List (Text × Value)) : Value := .ofEntries entries

def texts (ts : List Text) : Value := .list (ts.map .text)

def orNull (f : α → Value) : Option α → Value
  | some x => f x
  | none => .null

def field? (v : Value) (key : Text) : Option Value :=
  match v with
  | .map entries => Value.get? entries key
  | _ => none

def asText : Value → Text
  | .text s => s
  | _ => []

def asInt : Value → Int
  | .int n => n
  | _ => 0

def isTrue : Value → Bool
  | .bool b => b
  | _ => false

/-- The texts of a mapping from texts to texts. -/
def asVariables : Value → List (Text × Text)
  | .map entries => entries.filterMap fun e =>
      match e with
      | (.text name, .text value) => some (name, value)
      | _ => none
  | _ => []

def text (v : Value) (key : Text) : Text := ((field? v key).map asText).getD []

/-- Files by their paths; a path that ends with a slash is that of a directory. -/
def asTree (v : Value) : Tree :=
  (asVariables v).foldl (fun t e =>
    t.put (if e.1.getLast? = some '/' then .directory []
      else .file (String.ofList e.2).toUTF8.toList) (Path.ofText e.1).parts) (.directory [])

/-- The surroundings, and whether the program was started from a terminal. -/
def asSurroundings (v : Value) : Surroundings × Bool :=
  ({ files := ((field? v "files").map asTree).getD (.directory [])
     directory := (Path.ofText (text v "directory")).parts
     environment := ((field? v "variables").map asVariables).getD []
     home := text v "home"
     accounts := ((field? v "accounts").map asVariables).getD [] },
    (field? v "terminal").any isTrue)

def ofCall (c : Call) : Value := object [
  ("argv", texts c.argv),
  ("directory", orNull (fun d => .text d.toText) c.directory),
  ("variables", orNull (fun vs => object (vs.map fun v => (v.1, .text v.2))) c.environment),
  ("input", orNull .text c.input)]

/-- What the host is told to do. -/
def ofDeed : Deed → Value
  | .writeScript start finish content => object [("write", object [
      ("start", .text start), ("end", .text finish), ("content", .text content)])]
  | .removeScript path => object [("remove", .text path)]
  | .run c => object [("run", ofCall c)]
  | .detach c => object [("detach", ofCall c)]

/-- A finished process; there is none if its program was missing. -/
def asOutcome (v : Value) : Option Outcome :=
  (field? v "code").map fun code => ⟨asInt code, text v "output", text v "errors"⟩

/-- What the host answers to a deed. -/
def answer (v : Value) : (d : Deed) → Asking.Answer d
  | .writeScript .. => asText v
  | .removeScript _ => ()
  | .run _ => asOutcome v
  | .detach _ => isTrue v

end Runbook.Exchange
