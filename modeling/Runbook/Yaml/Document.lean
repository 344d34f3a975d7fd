import Runbook.Yaml.Node

/-! From tokens to the nodes of a document. -/
namespace Runbook.Yaml.Reader

/-- What stands before a node. -/
structure Properties where
  anchor : Option Text := none
  tag : Option Tag := none

def anchorHere : Reading (Option Text) := do
  match ← peek with
  | .anchor name =>
    take
    return some name
  | _ => return none

def tagHere : Reading (Option Tag) := do
  match ← peek with
  | .tag t =>
    take
    return some t
  | _ => return none

/-- An anchor and a tag, each at most once and in either order. -/
def properties : Reading Properties := do
  match ← anchorHere with
  | some anchor => return { anchor := some anchor, tag := ← tagHere }
  | none =>
    match ← tagHere with
    | some tag => return { anchor := ← anchorHere, tag := some tag }
    | none => return {}

/-- The whole of a tag. -/
def wholeTag (t : Tag) : Reading Text := do
  match t.whole? (← get).handles with
  | some whole => return whole
  | none => throw .malformed

/-- The type of a scalar. The lone exclamation mark lets any scalar have the type of its look. -/
def scalarKind (tag : Option Text) (text : Text) (plain : Bool) : Reading Kind := do
  let look : Reading Kind := do
    let v ← version
    if v.isOffered then return .ofLook v text else throw .untypedVersion
  match tag with
  | some t => if t = ['!'] then look else return .ofTag t
  | none => if plain then look else return .text

def addScalar (props : Properties) (tag : Option Text) (text : Text) (plain : Bool) :
    Reading NodeId := do
  let kind ← scalarKind tag text plain
  let id ← add { kind, content := .scalar text }
  setAnchor props.anchor id
  return id

/-- A collection without content. -/
def addCollection (props : Properties) (tag : Option Text) (usual : Kind) (content : Content) :
    Reading NodeId := do
  let kind := match tag with
    | some t => if t = ['!'] then usual else .ofTag t
    | none => usual
  let id ← add { kind, content }
  setAnchor props.anchor id
  return id

/-- A node that is left out. -/
def absent : Reading NodeId := addScalar {} none [] true

/-- Where a node may stand decides which collections it can be. -/
structure Setting where
  block : Bool
  /-- Items of a sequence may stand at the indentation of the key before them. -/
  indentless : Bool

def blockNode : Setting := ⟨true, false⟩
def blockValue : Setting := ⟨true, true⟩
def flowNode : Setting := ⟨false, false⟩

/-- A node, unless it is left out before one of some tokens. -/
def unlessAt (ends : List Token) (child : Reading NodeId) : Reading NodeId := do
  if ends.contains (← peek) then absent else child

/-- The node after the mark of a value, both of which can be left out. -/
def valueUnlessAt (ends : List Token) (child : Reading NodeId) : Reading NodeId := do
  if ← takeIf .value then unlessAt ends child else absent

/-- The tokens that follow a key or a value of a block mapping. -/
def afterEntryPart : List Token := [.key, .value, .blockEnd]

/-- One more item of a block sequence, or its end. -/
def blockItem (child : Setting → Reading NodeId) (id : NodeId) : Reading Bool := do
  if ← takeIf .entry then
    addItem id (← unlessAt [.entry, .blockEnd] (child blockNode))
    return false
  else if ← takeIf .blockEnd then return true
  else throw .malformed

/-- One more item of a sequence that has no indentation of its own, or its end. -/
def indentlessItem (child : Setting → Reading NodeId) (id : NodeId) : Reading Bool := do
  if ← takeIf .entry then
    addItem id (← unlessAt (.entry :: afterEntryPart) (child blockNode))
    return false
  else return true

/-- One more entry of a block mapping, or its end. In the first version keys are never left out. -/
def blockEntry (child : Setting → Reading NodeId) (id : NodeId) : Reading Bool := do
  let key ← match ← peek with
    | .key =>
      take
      some <$> unlessAt afterEntryPart (child blockValue)
    | .value => if (← version).isLater then some <$> absent else throw .malformed
    | .blockEnd => pure none
    | _ => throw .malformed
  match key with
  | some k =>
    addEntry id k (← valueUnlessAt afterEntryPart (child blockValue))
    return false
  | none =>
    take
    return true

/-- A comma stands before all but the first item in brackets, and may stand before their end. Tells
whether the end has come. -/
def flowEnds (close : Token) (first : Bool) : Reading Bool := do
  if ← takeIf close then return true
  else if first then return false
  else if ← takeIf .flowEntry then takeIf close
  else throw .malformed

/-- One more item of a sequence in brackets, or its end. An entry by itself is a mapping. -/
def flowItem (child : Setting → Reading NodeId) (id : NodeId) (first : Bool) : Reading Bool := do
  if ← flowEnds .flowSequenceEnd first then return true
  else if (← peek) = .key then
    let single ← add { kind := .mapping, content := .mapping [] }
    take
    let k ← unlessAt [.value, .flowEntry, .flowSequenceEnd] (child flowNode)
    addEntry single k (← valueUnlessAt [.flowEntry, .flowSequenceEnd] (child flowNode))
    addItem id single
    return false
  else
    addItem id (← child flowNode)
    return false

/-- One more entry of a mapping in braces, or its end. -/
def flowEntry (child : Setting → Reading NodeId) (id : NodeId) (first : Bool) : Reading Bool := do
  if ← flowEnds .flowMappingEnd first then return true
  else
    let value := valueUnlessAt [.flowEntry, .flowMappingEnd] (child flowNode)
    let next ← peek
    if next = .key then
      take
      let k ← unlessAt [.value, .flowEntry, .flowMappingEnd] (child flowNode)
      addEntry id k (← value)
    else if next = .value && (← version).isLater then
      let k ← absent
      addEntry id k (← value)
    else
      let k ← child flowNode
      addEntry id k (← absent)
    return false

/-- Takes steps until one says that it was the last. -/
def untilEnd (step : Reading Bool) : Reading Unit := do
  repeatUntil step (4 * (← get).stream.size + 16)

/-- Takes a step as the first one, and others until one says that it was the last. -/
def fromFirst (step : Bool → Reading Bool) : Reading Unit := do
  if ← step true then pure () else untilEnd (step false)

/-- A node of some nesting. -/
def readNode : Nat → Setting → Reading NodeId
  | 0, _ => throw .tooDeep
  | depth + 1, setting => do
    match ← peek with
    | .reference name =>
      take
      match (← get).anchors.lookup name with
      | some id => return id
      | none => throw .malformed
    | _ =>
      let props ← properties
      let tag ← props.tag.mapM wholeTag
      let sequence := addCollection props tag .sequence (.sequence [])
      let mapping := addCollection props tag .mapping (.mapping [])
      let empty : Reading NodeId :=
        if props.anchor.isSome || props.tag.isSome then addScalar props tag [] true
        else throw .malformed
      match ← peek with
      | .scalar text plain =>
        take
        addScalar props tag text (plain && props.tag.isNone)
      | .flowSequenceStart =>
        let id ← sequence
        take
        fromFirst (flowItem (readNode depth) id)
        return id
      | .flowMappingStart =>
        let id ← mapping
        take
        fromFirst (flowEntry (readNode depth) id)
        return id
      | .entry =>
        if setting.indentless then
          let id ← sequence
          untilEnd (indentlessItem (readNode depth) id)
          return id
        else empty
      | .sequenceStart =>
        if setting.block then
          let id ← sequence
          take
          untilEnd (blockItem (readNode depth) id)
          return id
        else empty
      | .mappingStart =>
        if setting.block then
          let id ← mapping
          take
          untilEnd (blockEntry (readNode depth) id)
          return id
        else empty
      | _ => empty

/-- How deep nodes may stand inside one another. -/
def depthLimit : Nat := 487

def rootNode : Reading NodeId := readNode depthLimit blockNode

/-- The directives that come next, after some that gave a version and the meaning of handles. There
is one version at most, and each handle is explained once. -/
def directivesAfter (asked : Option Version) (own : Handles) :
    Nat → Reading (Option Version × Handles)
  | 0 => return (asked, own)
  | fuel + 1 => do
    match ← peek with
    | .directive (.version v) =>
      take
      if asked.isSome || v.major != 1 then throw .malformed
      else directivesAfter (some v) own fuel
    | .directive (.handle name meaning) =>
      take
      if (own.lookup name).isSome then throw .malformed
      else directivesAfter asked ((name, meaning) :: own) fuel
    | .directive .other =>
      take
      directivesAfter asked own fuel
    | _ => return (asked, own)

/-- The directives before a document. -/
def directives : Reading Unit := do
  let (asked, own) ← directivesAfter none [] ((← get).stream.size + 1)
  if asked.any (!·.isOffered) then throw .refusedVersion
  else setHandles (own ++ standardHandles)

/-- The content of a document that begins with its mark. -/
def markedContent : Reading NodeId := do
  match ← peek with
  | .directive _ => absent
  | .documentStart => absent
  | .documentEnd => absent
  | .streamEnd => absent
  | _ => rootNode

/-- The mark at the end of a document, if there is one. Nothing else may stand on its line. -/
def endMark : Reading Unit := do
  if ← takeIf .documentEnd then
    let crowded := (remark? (← get).stream.rest).isNone
    if (← peek) ≠ .streamEnd && crowded then throw .malformed

/-- Nothing may follow a document but, in the first version, more marks of its end. The directives of
a second document are read before it is refused. -/
def endOfStream : Reading Unit := do
  if (← version).isFirst then untilEnd (not <$> takeIf .documentEnd)
  match ← peek with
  | .streamEnd => pure ()
  | .directive _ =>
    directives
    throw .malformed
  | _ => throw .malformed

/-- The root of the only document. A text without tokens has none. -/
def document : Reading (Option NodeId) := do
  let root ← match ← peek with
    | .streamEnd => return none
    | .directive _ =>
      directives
      if ← takeIf .documentStart then markedContent else throw .malformed
    | .documentStart =>
      take
      setHandles standardHandles
      markedContent
    | _ =>
      setHandles standardHandles
      rootNode
  endMark
  modify ({ · with anchors := [] })
  endOfStream
  return some root

end Runbook.Yaml.Reader
