import Runbook.Resolution.Dialogue
import Runbook.Resolution.Inputs
import Runbook.Resolution.References
import Runbook.Selection.Menu

/-! Resolving a command. Its placeholders are taken in order: the command that one names is itself
resolved first, then evaluated, and its output offered for selection. -/
namespace Runbook.Resolution

/-- What a resolution asks for. -/
inductive Question where
  /-- The output of a command started with some inputs, for a placeholder of another command. -/
  | output (command : Command) (inputs : Inputs) (wantedBy : Text)
  | selection (options : SelectionOptions) (candidates : List Candidate)

/-- Both commands and selectors may fail. -/
instance : Asking Question where
  Answer
    | .output .. => Except Failure Text
    | .selection .. => Except Failure Selection

abbrev Course := Dialogue Question

def output (c : Command) (inputs : Inputs) (wantedBy : Text) : Course Text :=
  .ask (.output c inputs wantedBy) .ofExcept

def selection (o : SelectionOptions) (cs : List Candidate) : Course Selection :=
  .ask (.selection o cs) .ofExcept

/-- What stays the same during a resolution. -/
structure Context where
  index : Index
  /-- How far the user wants selections to be exact and to heed case. -/
  options : SelectionOptions := {}

/-- The options for the selection of a placeholder's values. -/
def Context.optionsFor (ctx : Context) (p : Placeholder) (menu : Menu) : SelectionOptions :=
  { ctx.options with
    multiple := p.multiple, query := p.filter, prompt := some p.name, header := menu.header }

/-- The values of a selection; an empty or cancelled one ends the resolution. -/
def accept (p : Placeholder) : Selection → Course (List Text)
  | .chosen values => .done values
  | .empty => .fail (.emptySelection (.values p.name))
  | .cancelled => .fail (.cancelledSelection (.values p.name))

/-- The values taken from the output of the command that a placeholder names. -/
def Context.choose (ctx : Context) (p : Placeholder) (output : Text) : Course (List Text) :=
  match Menu.ofOutput p.format output with
  | .error (.error e) => .fail (.invalidOutput p.name e)
  | .error (.longNumeral digits) => .fail (.longNumeral digits)
  | .error .tooDeep => .fail .tooDeep
  | .ok menu =>
    if p.takesAll then .done menu.values
    else (selection (ctx.optionsFor p menu) menu.candidates).bind (accept p)

/-- The values of a placeholder of a named command, when it is known how commands are resolved. -/
def Context.valuesBy (ctx : Context) (resolve : Command → Course Inputs) (wantedBy : Text)
    (p : Placeholder) : Course (List Text) :=
  match ctx.index.get? p.name with
  | none => .fail (.unknownReference p.name)
  | some c =>
    (resolve c).bind fun inputs => (output c inputs wantedBy).bind (ctx.choose p)

/-- The inputs so far with the values of more placeholders. -/
def gather {Q : Type} [Asking Q] (values : Placeholder → Dialogue Q (List Text))
    (inputs : Inputs) : List Placeholder → Dialogue Q Inputs
  | [] => .done inputs
  | p :: ps => (values p).bind fun vs => gather values (inputs.add p.target vs) ps

/-- The inputs of a command whose references are not checked any more, down to a depth. -/
def Context.walk (ctx : Context) : Nat → Command → Course Inputs
  | 0, _ => .fail .endlessReference
  | depth + 1, c => gather (ctx.valuesBy (ctx.walk depth) c.name) {} c.placeholders

/-- How deep references may lead: as deep as they can without a cycle, and some hundreds more where
they are not checked. -/
def Context.depth (ctx : Context) : Nat := ctx.index.commands.length + 480

/-- The inputs of a command, with a chain of commands that are being resolved already. Where there
is none, all references are checked before anything is asked. -/
def Context.resolve (ctx : Context) (chain : List Text) (c : Command) : Course Inputs :=
  if chain.isEmpty then
    match check ctx.index [c.name] c with
    | .error e => .fail e
    | .ok () => ctx.walk ctx.depth c
  else ctx.walk ctx.depth c

/-- The values of one placeholder by itself. -/
def Context.values (ctx : Context) (chain : List Text) (p : Placeholder) : Course (List Text) :=
  ctx.valuesBy (ctx.resolve chain) (chain.getLast?.getD "<top>") p

end Runbook.Resolution
