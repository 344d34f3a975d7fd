import Runbook.Yaml.Document
import Runbook.Yaml.Scalar

/-! The data of nodes. A collection is mentioned by its holder and filled later, row by row, so that it
may hold itself; only what stands in a key is filled at once. -/
namespace Runbook.Yaml.Reader

def nodeAt (id : NodeId) : Reading Node := do
  match (← get).nodes[id]? with
  | some n => return n
  | none => throw .malformed

def itemsOf (id : NodeId) : Reading (List NodeId) := do
  match (← nodeAt id).content with
  | .sequence items => return items
  | _ => throw .malformed

def entriesOf (id : NodeId) : Reading (List (NodeId × NodeId)) := do
  match (← nodeAt id).content with
  | .mapping entries => return entries
  | _ => throw .malformed

def setStage (id : NodeId) (stage : Stage) : Reading Unit := change id ({ · with stage := stage })

def addHolder (h : Holder) : Reading Nat := modifyGet fun r =>
  (r.holders.size, { r with holders := r.holders.push h })

def changeHolder (place : Nat) (f : Holder → Holder) : Reading Unit := modify fun r =>
  { r with holders := r.holders.modify place f }

/-- The text of a scalar. A mapping with a standard value has the text of that. -/
def scalarText : Nat → NodeId → Reading Text
  | 0, _ => throw .tooDeep
  | fuel + 1, id => do
    match (← nodeAt id).content with
    | .scalar text => return text
    | .sequence _ => throw .malformed
    | .mapping entries =>
      let nodes := (← get).nodes
      match entries.find? fun e => nodes[e.1]?.any (·.kind = .standard) with
      | some (_, value) => scalarText fuel value
      | none => throw .malformed

/-! ## Merging -/

/-- The entries that the value of a merge key adds: those of a mapping, or of the mappings in a
sequence, of which the first counts most. The mappings merge their own sources first. -/
def mergedEntries (mergeInto : NodeId → Reading Unit) (id : NodeId) :
    Reading (List (NodeId × NodeId)) := do
  let own (source : NodeId) : Reading (List (NodeId × NodeId)) := do
    let _ ← entriesOf source
    mergeInto source
    entriesOf source
  match (← nodeAt id).content with
  | .scalar _ => throw .malformed
  | .mapping _ => own id
  | .sequence items => return (← items.mapM own).reverse.flatten

/-- Takes the merge keys out of a mapping from a position on, and collects what they add after what
was found before. There may not be two that add something. The key of a standard value becomes an
ordinary one. -/
def collectMerged (mergeInto : NodeId → Reading Unit) (id : NodeId) (found : List (NodeId × NodeId))
    (position : Nat) : Nat → Reading (List (NodeId × NodeId))
  | 0 => return found
  | fuel + 1 => do
    match (← entriesOf id)[position]? with
    | none => return found
    | some (key, value) =>
      match (← nodeAt key).kind with
      | .merge =>
        if !found.isEmpty then throw .malformed
        else
          change id fun n => match n.content with
            | .mapping entries => { n with content := .mapping (entries.eraseIdx position) }
            | _ => n
          let more ← mergedEntries mergeInto value
          collectMerged mergeInto id (found ++ more) position fuel
      | .standard =>
        change key ({ · with kind := .text })
        collectMerged mergeInto id found (position + 1) fuel
      | _ => collectMerged mergeInto id found (position + 1) fuel

/-- Puts what the merge keys of a mapping add before its own entries. -/
def merge : Nat → NodeId → Reading Unit
  | 0, _ => throw .tooDeep
  | fuel + 1, id => do
    let r ← get
    let found ← collectMerged (merge fuel) id [] 0 (2 * (r.stream.size + r.nodes.size) + 16)
    if !found.isEmpty then
      change id fun n => match n.content with
        | .mapping entries =>
          { n with content := .mapping (found ++ entries), merged := some found }
        | _ => n

/-! ## Filling -/

/-- A list as a key is the tuple of its items; other collections are no keys. -/
def keyOf (d : Datum) : Reading Datum := do
  match d with
  | .holder place =>
    match (← get).holders[place]? with
    | some (.list items) => return .tuple items
    | _ => throw .malformed
  | d => return d

/-- How the data of another node are asked for; what stands in a key is filled at once. -/
abbrev Asking := (eager : Bool) → NodeId → Reading Datum

/-- One more entry. Where no key may come twice, one that does is a fault. -/
def putEntry (ask : Asking) (once : Bool) (entries : List (Datum × Datum))
    (entry : NodeId × NodeId) : Reading (List (Datum × Datum)) := do
  let key ← keyOf (← ask true entry.1)
  let value ← ask false entry.2
  if !key.isFixed then throw .fluidKey
  else if once && Datum.hasKey entries key then throw .malformed
  else return Datum.put entries key value

/-- The entries of a mapping. A key may come twice only where something was merged; the last of its
values counts then. -/
def mappingData (ask : Asking) (id : NodeId) : Reading (List (Datum × Datum)) := do
  let _ ← entriesOf id
  merge ((← get).nodes.size + 1) id
  let own ← entriesOf id
  match (← nodeAt id).merged with
  | none => own.foldlM (putEntry ask true) []
  | some merged => (merged ++ own).foldlM (putEntry ask false) []

/-- The only entry of a mapping. -/
def singleEntry (id : NodeId) : Reading (NodeId × NodeId) := do
  match ← entriesOf id with
  | [entry] => return entry
  | _ => throw .malformed

/-- One more entry of an ordered mapping, of which no key comes twice. -/
def putOrdered (ask : Asking) (place : Nat) (item : NodeId) : Reading Unit := do
  let (k, v) ← singleEntry item
  let key ← ask false k
  let entries ← match (← get).holders[place]? with
    | some (.map entries) => pure entries
    | _ => pure []
  if !key.isFixed then throw .fluidKey
  else if Datum.hasKey entries key then throw .repeatedKey
  else
    let value ← ask false v
    changeHolder place fun
      | .map entries => .map (Datum.put entries key value)
      | h => h

/-- One more pair. -/
def putPair (ask : Asking) (place : Nat) (item : NodeId) : Reading Unit := do
  let (k, v) ← singleEntry item
  let key ← ask false k
  let value ← ask false v
  changeHolder place fun
    | .list items => .list (items ++ [.tuple [key, value]])
    | h => h

/-- Fills a collection. -/
def fill (ask : Asking) (t : Task) : Reading Unit := do
  match (← nodeAt t.node).kind with
  | .sequence =>
    let items ← (← itemsOf t.node).mapM (ask false)
    changeHolder t.holder fun _ => .list items
  | .mapping =>
    let entries ← mappingData ask t.node
    changeHolder t.holder fun _ => .map entries
  | .set =>
    let entries ← mappingData ask t.node
    changeHolder t.holder fun _ => .set (entries.map Prod.fst)
  | .omap =>
    for item in ← itemsOf t.node do
      putOrdered ask t.holder item
  | .pairs =>
    for item in ← itemsOf t.node do
      putPair ask t.holder item
  | _ => throw .malformed

/-- The empty collection of a type. -/
def emptyHolder? : Kind → Option Holder
  | .sequence => some (.list [])
  | .pairs => some (.list [])
  | .mapping => some (.map [])
  | .omap => some (.map [])
  | .set => some (.set [])
  | _ => none

/-- A collection, filled at once or later. -/
def mention (ask : Asking) (id : NodeId) (empty : Holder) : Reading Datum := do
  let place ← addHolder empty
  let task : Task := ⟨id, place⟩
  if (← get).eager then fill ask task
  else modify fun r => { r with tasks := r.tasks ++ [task] }
  return .holder place

/-- How often texts may be asked for through standard values. -/
def textLimit : Nat := 900

/-- The data of a node that has none yet. -/
def makeData (ask : Asking) (id : NodeId) : Reading Datum := do
  let kind := (← nodeAt id).kind
  match emptyHolder? kind with
  | some empty => mention ask id empty
  | none =>
    let v ← version
    let text ← match kind, (← nodeAt id).content with
      | .date, .scalar text => pure text
      | .date, _ => throw .malformed
      | .unknown, _ => throw .malformed
      | _, _ => scalarText textLimit id
    match readScalar v id kind text with
    | .ok d => return d
    | .error e => throw e

def setEager (eager : Bool) : Reading Unit := modify ({ · with eager := eager })

/-- The data of a node. Inside itself, before there are any, a node is null. -/
def data : Nat → Asking
  | 0, _, _ => throw .tooDeep
  | fuel + 1, eager, id => do
    match (← nodeAt id).stage with
    | .made d => return d
    | .begun =>
      if eager then setEager true
      return .null
    | .fresh =>
      let before := (← get).eager
      if eager then setEager true
      setStage id .begun
      let d ← makeData (data fuel) id
      setStage id (.made d)
      if eager then setEager before
      return d

/-- How deep collections that are filled at once may stand inside one another. -/
def eagerLimit : Nat := 195

/-- Fills the collections that wait; filling them may mention others. Tells whether there were none.
A fault leaves those others over. -/
def fillRow : Reading Bool := do
  match (← get).tasks with
  | [] => return true
  | row =>
    modify ({ · with tasks := [] })
    for t in row do
      fill (data eagerLimit) t
    return false

/-- The data of a document whose root is given. Afterwards no data of nodes are kept. -/
def documentData (root : NodeId) : Reading Datum := do
  let d ← data eagerLimit false root
  repeatUntil fillRow ((← get).nodes.size + 1)
  modify fun r => { r with
    eager := false, nodes := r.nodes.map ({ · with stage := .fresh }) }
  return d

end Runbook.Yaml.Reader
