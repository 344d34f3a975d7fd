import Runbook.Yaml.Datum
import Runbook.Yaml.Kind
import Runbook.Yaml.Stream

/-! The nodes of documents. A node can be named and come again, also inside itself, so nodes are kept
in a store and known by their places. -/
namespace Runbook.Yaml

/-- The place of a node in the store. -/
abbrev NodeId := Nat

inductive Content where
  | scalar (text : Text)
  | sequence (items : List NodeId)
  | mapping (entries : List (NodeId × NodeId))
  deriving Repr

/-- How far the data of a node have come. -/
inductive Stage where
  | fresh
  /-- The data are asked for and not yet there. -/
  | begun
  | made (data : Datum)
  deriving Repr

structure Node where
  kind : Kind
  content : Content
  /-- The entries that were merged into a mapping, if there were any. They are the first of its
  content. -/
  merged : Option (List (NodeId × NodeId)) := none
  stage : Stage := .fresh
  deriving Repr

/-- A collection that is still to be filled. -/
structure Task where
  node : NodeId
  holder : Nat

/-- Everything that one reader of documents knows. Names are forgotten when a document has been read
to its end, and data when they have been made; after a failure both are left over. -/
structure Reader where
  stream : Stream := {}
  handles : Handles := standardHandles
  anchors : List (Text × NodeId) := []
  nodes : Array Node := #[]
  holders : Array Holder := #[]
  tasks : List Task := []
  /-- Collections are filled as soon as they are mentioned. -/
  eager : Bool := false

namespace Reader

abbrev Reading := EStateM Problem Reader

/-- Work on the stream as a part of the work on documents. -/
def onStream {α : Type} (x : Stream.Reading α) : Reading α := fun r =>
  match x r.stream with
  | .ok a stream => .ok a { r with stream }
  | .error e stream => .error e { r with stream }

/-- The next token. -/
def peek : Reading Token := onStream Stream.peek

/-- Takes the next token. -/
def take : Reading Unit := do let _ ← onStream Stream.take

/-- Takes the next token if it is a given one. -/
def takeIf (t : Token) : Reading Bool := do
  if (← peek) = t then
    take
    return true
  else return false

def version : Reading Version := return (← get).stream.version

/-- Puts a node into the store. -/
def add (n : Node) : Reading NodeId := modifyGet fun r =>
  (r.nodes.size, { r with nodes := r.nodes.push n })

def change (id : NodeId) (f : Node → Node) : Reading Unit := modify fun r =>
  { r with nodes := r.nodes.modify id f }

def addItem (id item : NodeId) : Reading Unit := change id fun n =>
  match n.content with
  | .sequence items => { n with content := .sequence (items ++ [item]) }
  | _ => n

def addEntry (id key value : NodeId) : Reading Unit := change id fun n =>
  match n.content with
  | .mapping entries => { n with content := .mapping (entries ++ [(key, value)]) }
  | _ => n

/-- A name stands for a node from now on. -/
def setAnchor (anchor : Option Text) (id : NodeId) : Reading Unit :=
  match anchor with
  | some name => modify fun r => { r with anchors := (name, id) :: r.anchors }
  | none => pure ()

def setHandles (handles : Handles) : Reading Unit := modify ({ · with handles := handles })

end Reader
end Runbook.Yaml
