import Runbook.Catalog.Basic
import Runbook.Catalog.Event
import Runbook.Catalog.Scope
import Runbook.Failure
import Runbook.Json.Reader
import Runbook.Placeholder.Reading
import Runbook.Settings.Schema
import Runbook.Yaml.Reader

/-! From events to a catalog. Events are taken one by one; the state knows which headings are open,
which command has no end yet, and whether a heading still waits for its code block. -/
namespace Runbook.Catalog

open Markdown

/-- The line of a place, if it has one. -/
def lineOf (span : Option Span) : Option Int := span.map Span.first

/-- What is wrong with a configuration block, or what fails altogether. -/
abbrev Decoded := Except (Failure ⊕ CatalogFault) Value

/-- JSON as data; a blank text has no settings. -/
def decodeJson (text : Text) : Decoded :=
  if Text.isBlankText text then .ok (.map [])
  else match Json.parse text with
    | .ok v => .ok v
    | .error (.error e) => .error (.inr (.settingsJson e))
    | .error (.longNumeral digits) => .error (.inl (.longNumeral digits))
    | .error .tooDeep => .error (.inl .tooDeep)

/-- What was read as YAML as data; a void value has no settings. -/
def ofYaml : Except Yaml.Problem Value → Decoded
  | .ok v => .ok (if v.isVoid then .map [] else v)
  | .error .malformed => .error (.inr .settingsYaml)
  | .error problem => .error (.inl (.yaml problem))

/-- A configuration block as data, and the reader of YAML afterwards. -/
def decode (reader : Yaml.Reader) (language : Language) (text : Text) : Decoded × Yaml.Reader :=
  match language with
  | .json => (decodeJson text, reader)
  | .none => (decodeJson text, reader)
  | .yaml =>
    let (v, reader) := reader.read text
    (ofYaml v, reader)
  | other => (.error (.inr (.settingsLanguage other)), reader)

/-- The settings of decoded data. -/
def settingsOf (site : Site) : Decoded → Except Failure Settings
  | .error (.inl failure) => .error failure
  | .error (.inr fault) => .error (.catalog site fault)
  | .ok (.map entries) =>
    match Schema.settings (.map entries) with
    | .good settings => .ok settings
    | .bad issues => .error (.catalog site (.settingsInvalid issues))
  | .ok _ => .error (.catalog site .settingsNotMapping)

/-- The settings of a configuration block, and the reader of YAML afterwards. -/
def readSettings (reader : Yaml.Reader) (site : Site) (language : Language) (text : Text) :
    Except Failure Settings × Yaml.Reader :=
  let (v, reader) := decode reader language text
  (settingsOf site v, reader)

/-- A heading that waits for its code block. -/
structure Opening where
  span : Option Span
  level : Int
  heading : Heading
  deriving DecidableEq, Repr

namespace Opening

def site (o : Opening) (path : Text) : Site := ⟨path, lineOf o.span⟩

/-- The command of a heading and its code block. -/
def command (o : Opening) (path : Text) (types : Tags) (description : Option Text)
    (language : Language) (words : List Text) (source : Text) : Except Failure Command :=
  let faulty : Placeholder.Problem → Failure
    | .fault cause position =>
      .catalog (o.site path) (.placeholder o.heading.name cause position)
    | .longNumeral digits => .longNumeral digits
  match Placeholder.splitName o.heading.name with
  | .error e => .error (faulty e)
  | .ok (name, inHeading) =>
    let info := Text.unwords words
    match Placeholder.scan info with
    | .error e => .error (faulty (e.inText info))
    | .ok inSource =>
      if !inHeading.isEmpty && !inSource.isEmpty then
        .error (.catalog (o.site path) (.placeholdersTwice name))
      else
        .ok {
          name, language, source, types, description
          placeholders := if inHeading.isEmpty then inSource else inHeading
          hidden := isHiddenName name
          background := o.heading.hasFlag "bg" }

end Opening

/-- What the next event has to be. -/
inductive Awaiting where
  | anything
  /-- The code block of a configuration heading. -/
  | settings (opening : Opening)
  /-- The code block of a command heading, with paragraphs before it; the first describes the
  command. -/
  | source (opening : Opening) (types : Tags) (description : Option Text)
  deriving DecidableEq, Repr

structure Progress where
  scope : Scope := []
  settings : Option Settings := none
  /-- The commands whose ranges have ended. -/
  ended : List Command := []
  /-- The last command, while its range has not ended, with its heading. -/
  current : Option (Command × Opening) := none
  awaiting : Awaiting := .anything
  /-- The reader of YAML, which keeps some things in mind. -/
  reader : Yaml.Reader := {}

namespace Progress

/-- All commands so far. -/
def commands (p : Progress) : List Command := p.ended ++ (p.current.map Prod.fst).toList

/-- The range of the last command ends before this place. -/
def endRange (path : Text) (next : Option Span) (p : Progress) : Progress :=
  match p.current with
  | none => p
  | some (c, o) =>
    let location : Location :=
      ⟨path, (lineOf o.span).getD (-1), (lineOf next).getD 0 - 1, o.level⟩
    { p with ended := p.ended ++ [{ c with location := some location }], current := none }

/-- The settings of one more configuration block; there can be only one. -/
def addSettings (site : Site) (s : Settings) (p : Progress) : Except Failure Progress :=
  if p.settings.isSome then .error (.catalog site .settingsRepeated)
  else .ok { p with settings := some s, awaiting := .anything }

/-- An event where anything may come. -/
def continue_ (path : Text) (p : Progress) : Event → Except Failure Progress
  | .finish span => .ok (p.endRange path span)
  | .paragraph _ _ => .ok p
  | .source span language words text =>
    if words.contains "config" then
      match readSettings p.reader ⟨path, lineOf span⟩ language text with
      | (.ok s, reader) => { p with reader }.addSettings ⟨path, lineOf span⟩ s
      | (.error e, _) => .error e
    else .ok p
  | .heading span level heading =>
    let p := p.endRange path span
    let opening : Opening := ⟨span, level, heading⟩
    if heading.hasFlag "config" then .ok { p with awaiting := .settings opening }
    else
      let scope := p.scope.enter level (.ofList (heading.valuesOf "type"))
      if heading.hasFlag "command" then
        .ok { p with scope, awaiting := .source opening scope.types none }
      else .ok { p with scope }

/-- The failure of a heading whose code block does not come. -/
def missing (path : Text) : Awaiting → Option Failure
  | .anything => none
  | .settings o => some (.catalog (o.site path) .settingsExpected)
  | .source o _ _ => some (.catalog (o.site path) (.sourceExpected o.heading.name))

/-- One more event. -/
def step (path : Text) (p : Progress) (e : Event) : Except Failure Progress :=
  match p.awaiting, e with
  | .anything, e => p.continue_ path e
  | .settings o, .source span language _ text =>
    match readSettings p.reader ⟨path, lineOf (span <|> o.span)⟩ language text with
    | (.ok s, reader) => { p with reader }.addSettings (o.site path) s
    | (.error e, _) => .error e
  | .settings o, _ => .error (.catalog (o.site path) .settingsExpected)
  | .source o types description, .paragraph _ text =>
    .ok { p with awaiting := .source o types (description <|> some (Text.trim text)) }
  | .source o types description, .source _ language words text =>
    match o.command path types description language words text with
    | .ok c => .ok { p with current := some (c, o), awaiting := .anything }
    | .error e => .error e
  | .source o _ _, _ => .error (.catalog (o.site path) (.sourceExpected o.heading.name))

/-- The catalog when no event is left. -/
def catalog (path : Text) (p : Progress) : Except Failure Catalog :=
  match missing path p.awaiting with
  | some e => .error e
  | none => .ok ⟨p.settings, p.commands, path⟩

/-- The configuration block in an event. -/
def settingsBlock? (p : Progress) (e : Event) : Option (Language × Text) :=
  match p.awaiting, e with
  | .anything, .source _ language words text =>
    if words.contains "config" then some (language, text) else none
  | .settings _, .source _ language _ text => some (language, text)
  | _, _ => none

/-- The reader of YAML after one more event. -/
def readerAfter (p : Progress) (e : Event) : Yaml.Reader :=
  match p.settingsBlock? e with
  | some (language, text) => (decode p.reader language text).2
  | none => p.reader

/-- Some more events, and the reader of YAML after them, or after the first of them that fails. -/
def run (path : Text) (p : Progress) : List Event → Except Failure Progress × Yaml.Reader
  | [] => (.ok p, p.reader)
  | e :: es =>
    match p.step path e with
    | .ok q => run path q es
    | .error failure => (.error failure, p.readerAfter e)

theorem run_fst (path : Text) (p : Progress) (es : List Event) :
    (p.run path es).1 = es.foldlM (step path) p := by
  induction es generalizing p with
  | nil => rfl
  | cons e es ih =>
    rw [List.foldlM_cons, run]
    cases h : p.step path e with
    | error failure => rfl
    | ok q => exact ih q

end Progress

/-- The catalog of a sequence of events. The first failure ends the reading. -/
def ofEvents (path : Text) (events : List Event) : Except Failure Catalog :=
  match events.foldlM (Progress.step path) {} with
  | .ok p => p.catalog path
  | .error e => .error e

/-- The catalog of a sequence of events, and the reader of YAML afterwards. -/
def ofEventsAfter (reader : Yaml.Reader) (path : Text) (events : List Event) :
    Except Failure Catalog × Yaml.Reader :=
  let (p, reader) := Progress.run path { reader } events
  (p.bind (·.catalog path), reader)

theorem ofEventsAfter_eq_bind (reader : Yaml.Reader) (path : Text) (events : List Event) :
    (ofEventsAfter reader path events).1 =
      (events.foldlM (Progress.step path) { reader }).bind (·.catalog path) := by
  rw [← Progress.run_fst]
  rfl

/-- The catalog of a document. -/
def parse (path text : Text) : Except Failure Catalog :=
  ofEvents path (Event.ofNode (document text))

/-- The catalog of a document after other ones, and the reader of YAML afterwards. -/
def parseAfter (reader : Yaml.Reader) (path text : Text) : Except Failure Catalog × Yaml.Reader :=
  ofEventsAfter reader path (Event.ofNode (document text))

/-- A document by itself is read as one that comes after no others. -/
theorem parse_eq_parseAfter (path text : Text) : parse path text = (parseAfter {} path text).1 := by
  rw [parse, ofEvents, parseAfter, ofEventsAfter_eq_bind]
  cases (Event.ofNode (document text)).foldlM (Progress.step path) {} <;> rfl

end Runbook.Catalog
