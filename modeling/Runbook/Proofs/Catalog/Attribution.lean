import Mathlib.Data.List.Forall2
import Mathlib.Tactic.Common
import Runbook.Proofs.Catalog.Entry

/-! What the entries of a document make of a catalog: one command for each command entry, and
settings if there is an entry for them. -/
namespace Runbook.Catalog
open Markdown

/-! ### One command -/

/-- What a command has from its heading and its code block. -/
lemma Opening.command_ok {o : Opening} {path : Text} {types : Tags} {description : Option Text}
    {language : Language} {words : List Text} {source : Text} {c : Command}
    (h : o.command path types description language words source = .ok c) :
    ∃ name inHeading placeholders, Placeholder.splitName o.heading.name = .ok (name, inHeading) ∧
      c = { name, language, source, placeholders, types, description
            hidden := isHiddenName name, background := o.heading.hasFlag "bg" } := by
  unfold Opening.command at h
  dsimp only at h
  split at h
  · cases h
  · next name inHeading hname =>
    split at h
    · cases h
    · split at h
      · cases h
      · exact ⟨name, inHeading, _, hname, (Except.ok.inj h).symm⟩

/-- Where the range of what stands before some events ends: at the next heading, or at the end of
what contains it. -/
def boundary? : List Event → Option (Option Span)
  | [] => none
  | .heading span _ _ :: _ => some span
  | .finish span :: _ => some span
  | _ :: es => boundary? es

/-- A command with its range, from its heading to the boundary after it. -/
def Opening.locate (o : Opening) (path : Text) (after : List Event) (c : Command) : Command :=
  match boundary? after with
  | none => c
  | some next =>
    { c with
      location := some ⟨path, (lineOf o.span).getD (-1), (lineOf next).getD 0 - 1, o.level⟩ }

/-- The commands so far, with the range of the last one as it ends before some events. -/
def Progress.settled (path : Text) (p : Progress) (es : List Event) : List Command :=
  p.ended ++ (p.current.map fun c => c.2.locate path es c.1).toList

/-- A command entry with the events around it. -/
structure Placed where
  before : List Event
  entry : CommandParts
  after : List Event

/-- The command entries, in their order. -/
def Entry.placed (before : List Event) : List Entry → List Placed
  | [] => []
  | e :: es =>
    (e.command?.map fun c => ⟨before, c, es.flatMap events⟩).toList ++
      placed (before ++ e.events) es

/-- The headings that are open after some events. -/
def Scope.ofEvents (es : List Event) : Scope := es.foldl Scope.after []

/-- The command of a placed entry. -/
def Placed.Gives (path : Text) (x : Placed) (c : Command) : Prop :=
  ∃ made, x.entry.command path ((Scope.ofEvents x.before).after x.entry.opening.event).types =
      .ok made ∧ c = x.entry.opening.locate path x.after made

@[simp] lemma Scope.after_block (scope : Scope) (b : CodeBlock) : scope.after b.event = scope := rfl

lemma CommandParts.foldl_after_body (c : CommandParts) (scope : Scope) :
    c.body.foldl Scope.after scope = scope := by
  have hparagraphs (ps : List Paragraph) : (ps.map Paragraph.event).foldl Scope.after scope = scope := by
    induction ps with
    | nil => rfl
    | cons p ps ih => exact ih
  rw [body, List.foldl_append, hparagraphs]
  rfl

/-- The range of a command does not end within its body. -/
lemma CommandParts.boundary?_body (c : CommandParts) (es : List Event) :
    boundary? (c.body ++ es) = boundary? es := by
  rw [body, List.append_assoc]
  induction c.paragraphs with
  | nil => rfl
  | cons p ps ih => exact ih

namespace Progress
variable {path : Text} {p : Progress}

@[simp] lemma endRange_current (span : Option Span) : (p.endRange path span).current = none := by
  unfold endRange
  split
  · next h => exact h
  · rfl

lemma settled_congr {es fs : List Event} (h : boundary? es = boundary? fs) :
    p.settled path es = p.settled path fs := by
  simp only [settled, Opening.locate, h]

lemma endRange_ended {span : Option Span} {es : List Event} (h : boundary? es = some span) :
    (p.endRange path span).ended = p.settled path es := by
  simp only [endRange, settled, Opening.locate, h]
  split <;> simp_all

/-- At a boundary the last range ends, whatever comes afterwards. -/
lemma settled_endRange {span : Option Span} {es : List Event} (h : boundary? es = some span)
    (fs : List Event) : (p.endRange path span).settled path fs = p.settled path es := by
  rw [settled, endRange_current, endRange_ended h]
  exact List.append_nil _

/-- With nothing after it, no range ends. -/
lemma settled_nil : p.settled path [] = p.commands := rfl

end Progress

section Entries
variable {path : Text} {p q : Progress} {e : Entry}

lemma Entry.Reads.scope (h : e.Reads path p q) :
    q.scope = e.events.foldl Scope.after p.scope := by
  cases h with
  | finish => exact Progress.endRange_scope _
  | heading => rfl
  | paragraph => rfl
  | source => rfl
  | settings => rfl
  | @settingsUnder o marked =>
    have hafter : p.scope.after o.event = p.scope := by rw [p.scope.after_event, if_pos marked]
    simp only [events, List.foldl_cons, List.foldl_nil, hafter, Scope.after_block]
    exact Progress.endRange_scope _
  | @command c => exact (c.foldl_after_body _).symm

/-- A command entry adds its command, and ends the range of the one before, as any heading does. -/
lemma Entry.Reads.settled (h : e.Reads path p q) {before : List Event}
    (hscope : p.scope = Scope.ofEvents before) (es : List Event) :
    ∃ made, q.settled path es = p.settled path (e.events ++ es) ++ made ∧
      List.Forall₂ (Placed.Gives path) (e.command?.map fun c => ⟨before, c, es⟩).toList made := by
  -- An entry that is not of a command adds none, so that the commands stay as they are.
  have nothing {cs ds : List Command} (hcs : cs = ds) :
      ∃ made, cs = ds ++ made ∧ List.Forall₂ (Placed.Gives path) [] made :=
    ⟨[], by rw [hcs, List.append_nil], .nil⟩
  cases h with
  | finish => exact nothing (Progress.settled_endRange rfl es)
  | heading => exact nothing (Progress.settled_endRange rfl es)
  | paragraph => exact nothing (Progress.settled_congr rfl)
  | source => exact nothing (Progress.settled_congr rfl)
  | settings => exact nothing (Progress.settled_congr rfl)
  | settingsUnder => exact nothing (Progress.settled_endRange rfl es)
  | @command c made makes =>
    refine ⟨[c.opening.locate path es made], ?_, .cons ⟨made, by rwa [← hscope], rfl⟩ .nil⟩
    have hended : (p.endRange path c.opening.span).ended =
        p.settled path ((Entry.command c).events ++ es) := Progress.endRange_ended rfl
    rw [← hended]
    rfl

/-- The commands of a run are those before it, the last of them with its range ended, and one for
each command entry. -/
theorem ReadsAll.commands {entries : List Entry} (h : ReadsAll path p entries q)
    {before : List Event} (hscope : p.scope = Scope.ofEvents before) :
    ∃ made, q.commands = p.settled path (entries.flatMap Entry.events) ++ made ∧
      List.Forall₂ (Placed.Gives path) (Entry.placed before entries) made := by
  induction h generalizing before with
  | nil p => exact ⟨[], by simp [Progress.settled_nil], .nil⟩
  | @cons p q r e es head tail ih =>
    obtain ⟨first, hfirst, hgives⟩ := head.settled hscope (es.flatMap Entry.events)
    have hscope' : q.scope = Scope.ofEvents (before ++ e.events) := by
      rw [head.scope, hscope, Scope.ofEvents, Scope.ofEvents, List.foldl_append]
    obtain ⟨made, hmade, hall⟩ := ih hscope'
    refine ⟨first ++ made, ?_, List.rel_append hgives hall⟩
    rw [hmade, hfirst, List.append_assoc, List.flatMap_cons]

/-! ### The settings -/

/-- The settings are those that the code block holds, for a reader in some state. -/
def CodeBlock.Means (reader : Yaml.Reader) (b : CodeBlock) (s : Settings) : Prop :=
  ∃ site, (readSettings reader site b.language b.text).1 = .ok s

lemma Entry.Reads.settings_cases (h : e.Reads path p q) :
    (e.settings? = none ∧ q.settings = p.settings ∧ q.reader = p.reader) ∨
      ∃ b site s reader, e.settings? = some b ∧ p.settings = none ∧
        readSettings p.reader site b.language b.text = (.ok s, reader) ∧ q.settings = some s := by
  cases h with
  | finish => exact .inl ⟨rfl, p.endRange_settings _, p.endRange_reader _⟩
  | heading => exact .inl ⟨rfl, p.endRange_settings _, p.endRange_reader _⟩
  | paragraph => exact .inl ⟨rfl, rfl, rfl⟩
  | source => exact .inl ⟨rfl, rfl, rfl⟩
  | settings first read => exact .inr ⟨_, _, _, _, rfl, first, read, rfl⟩
  | settingsUnder first read => exact .inr ⟨_, _, _, _, rfl, first, read, rfl⟩
  | command => exact .inl ⟨rfl, p.endRange_settings _, p.endRange_reader _⟩

/-- Once there are settings, there can be no more of them. -/
lemma ReadsAll.no_more_settings {entries : List Entry} (h : ReadsAll path p entries q)
    {s : Settings} (hs : p.settings = some s) :
    entries.filterMap Entry.settings? = [] ∧ q.settings = some s := by
  induction h with
  | nil p => exact ⟨rfl, hs⟩
  | @cons p q r e es head tail ih =>
    rcases head.settings_cases with ⟨hnone, hsettings, -⟩ | ⟨b, site, s', reader, -, hfirst, -, -⟩
    · obtain ⟨hrest, hr⟩ := ih (hsettings.trans hs)
      exact ⟨by rw [List.filterMap_cons_none hnone, hrest], hr⟩
    · rw [hs] at hfirst
      cases hfirst

theorem ReadsAll.settings {entries : List Entry} (h : ReadsAll path p entries q)
    (hnone : p.settings = none) :
    List.Forall₂ (CodeBlock.Means p.reader) (entries.filterMap Entry.settings?)
      q.settings.toList := by
  induction h with
  | nil p =>
    rw [hnone]
    exact .nil
  | @cons p q r e es head tail ih =>
    rcases head.settings_cases with ⟨he, hsettings, hq⟩ | ⟨b, site, s, reader, he, -, hread, hq⟩
    -- The reader is as at the beginning until the one block for settings comes.
    · rw [List.filterMap_cons_none he, ← hq]
      exact ih (hsettings.trans hnone)
    · obtain ⟨hrest, hr⟩ := tail.no_more_settings hq
      rw [List.filterMap_cons_some he, hrest, hr]
      exact .cons ⟨site, congrArg Prod.fst hread⟩ .nil

end Entries

/-! ### The whole document -/

variable {reader : Yaml.Reader} {path : Text} {events : List Event} {catalog : Catalog}

lemma Progress.catalog_ok {p : Progress} (h : p.catalog path = .ok catalog) :
    p.awaiting = .anything ∧ catalog = ⟨p.settings, p.commands, path⟩ := by
  unfold Progress.catalog at h
  cases hawaiting : p.awaiting with
  | anything =>
    rw [hawaiting] at h
    exact ⟨rfl, (Except.ok.inj h).symm⟩
  | settings o =>
    rw [hawaiting] at h
    cases h
  | source o types description =>
    rw [hawaiting] at h
    cases h

lemma ofEventsAfter_ok (h : (ofEventsAfter reader path events).1 = .ok catalog) :
    ∃ q, events.foldlM (Progress.step path) { reader } = .ok q ∧ q.awaiting = .anything ∧
      catalog = ⟨q.settings, q.commands, path⟩ := by
  rw [ofEventsAfter_eq_bind] at h
  cases hq : events.foldlM (Progress.step path) { reader } with
  | error failure =>
    rw [hq] at h
    cases h
  | ok q =>
    rw [hq] at h
    exact ⟨q, rfl, Progress.catalog_ok h⟩

/-- A document that is read consists of entries, and each is read. -/
theorem entries_of_ofEventsAfter (h : (ofEventsAfter reader path events).1 = .ok catalog) :
    (∃ entries : List Entry, events = entries.flatMap Entry.events) ∧
      ∀ entries : List Entry, events = entries.flatMap Entry.events →
        List.Forall₂ (Placed.Gives path) (Entry.placed [] entries) catalog.commands ∧
          List.Forall₂ (CodeBlock.Means reader) (entries.filterMap Entry.settings?)
            catalog.settings.toList := by
  obtain ⟨q, hq, hawaiting, rfl⟩ := ofEventsAfter_ok h
  refine ⟨Progress.exists_entries rfl hawaiting hq, ?_⟩
  rintro entries rfl
  have hall := Progress.readsAll_of_run rfl hq
  have hscope : ({ reader } : Progress).scope = Scope.ofEvents [] := rfl
  obtain ⟨made, hmade, hgives⟩ := hall.commands hscope
  obtain rfl : q.commands = made := hmade
  exact ⟨hgives, hall.settings rfl⟩

/-! ### The headings of commands -/

/-- A command heading with the events around it. -/
structure CommandHeading where
  before : List Event
  opening : Opening
  after : List Event

/-- The command headings among events that come after others. -/
def commandHeadings (before : List Event) : List Event → List CommandHeading
  | [] => []
  | e :: es =>
    (e.commandHeading?.map fun o => ⟨before, o, es⟩).toList ++ commandHeadings (before ++ [e]) es

lemma map_commandHeadings (before es : List Event) :
    (commandHeadings before es).map CommandHeading.opening =
      es.filterMap Event.commandHeading? := by
  induction es generalizing before with
  | nil => rfl
  | cons e es ih =>
    rw [commandHeadings, List.map_append, ih, List.filterMap_cons]
    cases e.commandHeading? <;> rfl

lemma commandHeadings_append {before es : List Event} (h : ∀ e ∈ es, e.commandHeading? = none)
    (fs : List Event) : commandHeadings before (es ++ fs) = commandHeadings (before ++ es) fs := by
  induction es generalizing before with
  | nil => rw [List.nil_append, List.append_nil]
  | cons e es ih =>
    obtain ⟨he, hes⟩ := List.forall_mem_cons.mp h
    rw [List.cons_append, commandHeadings, he, ih hes, ← List.append_cons]
    rfl

lemma Event.commandHeading?_of_isPlain {e : Event} (h : e.isPlain = true) :
    e.commandHeading? = none := by
  cases e with
  | heading span level heading =>
    let o : Opening := ⟨span, level, heading⟩
    change o.event.commandHeading? = none
    rw [o.commandHeading?_event, (o.flags_of_isPlain h).1]
    rfl
  | source => rfl
  | paragraph => rfl
  | finish => rfl

lemma CommandParts.no_heading_in_body (c : CommandParts) :
    ∀ e ∈ c.body, e.commandHeading? = none := by
  intro e he
  rcases List.mem_append.mp he with he | he
  · obtain ⟨p, -, rfl⟩ := List.mem_map.mp he
    rfl
  · obtain rfl := List.mem_singleton.mp he
    rfl

/-- The heading of a placed entry. -/
def Placed.heading (x : Placed) : CommandHeading :=
  ⟨x.before, x.entry.opening, x.entry.body ++ x.after⟩

/-- An entry has one command heading if it is that of a command, and none otherwise. -/
lemma Entry.commandHeadings_events (before : List Event) (e : Entry) (es : List Event) :
    commandHeadings before (e.events ++ es) =
      (e.command?.map fun c => ⟨before, c.opening, c.body ++ es⟩).toList ++
        commandHeadings (before ++ e.events) es := by
  cases e with
  | plain e plain =>
    refine commandHeadings_append (fun x hx => ?_) es
    rw [List.mem_singleton.mp hx]
    exact Event.commandHeading?_of_isPlain plain
  | settings b marked => rfl
  | settingsUnder o marked b =>
    refine commandHeadings_append (fun x hx => ?_) es
    rcases List.mem_pair.mp hx with rfl | rfl
    · rw [o.commandHeading?_event, marked]
      simp
    · rfl
  | command c =>
    rw [events, List.cons_append, commandHeadings, c.opens,
      commandHeadings_append c.no_heading_in_body, ← List.append_cons]
    rfl

lemma commandHeadings_flatMap (before : List Event) (entries : List Entry) :
    commandHeadings before (entries.flatMap Entry.events) =
      (Entry.placed before entries).map Placed.heading := by
  induction entries generalizing before with
  | nil => rfl
  | cons e es ih =>
    rw [List.flatMap_cons, e.commandHeadings_events, ih, Entry.placed, List.map_append]
    cases e <;> rfl

lemma Entry.map_placed (before : List Event) (entries : List Entry) :
    (placed before entries).map Placed.entry = entries.filterMap command? := by
  induction entries generalizing before with
  | nil => rfl
  | cons e es ih =>
    rw [placed, List.map_append, ih]
    cases e <;> rfl

/-- A command has its name and its mark for the background from its heading, its language and its
source from the code block, and its description from the first paragraph between them. -/
structure CommandParts.Describes (x : CommandParts) (c : Command) : Prop where
  name : ∃ placeholders,
    Placeholder.splitName x.opening.heading.name = .ok (c.name, placeholders)
  background : c.background = x.opening.heading.hasFlag "bg"
  language : c.language = x.block.language
  source : c.source = x.block.text
  description : c.description = x.description

lemma Placed.Gives.describes {path : Text} {x : Placed} {c : Command} (h : x.Gives path c) :
    x.entry.Describes c := by
  obtain ⟨made, hmade, rfl⟩ := h
  obtain ⟨name, inHeading, placeholders, hname, rfl⟩ := Opening.command_ok hmade
  unfold Opening.locate
  split <;> exact ⟨⟨inHeading, hname⟩, rfl, rfl, rfl, rfl⟩

/-- The events of a document that is read are cut into entries, so that no code block belongs to two
headings. The commands are those of the command headings, one by one, and the settings are those of
the one entry for settings, if there is one; with more of them the document cannot be read. -/
theorem ofEventsAfter_attributes (reader : Yaml.Reader) (path : Text) (events : List Event) :
    (∀ catalog, (ofEventsAfter reader path events).1 = .ok catalog →
      ∃ entries : List Entry, events = entries.flatMap Entry.events ∧
        events.filterMap Event.commandHeading? =
          (entries.filterMap Entry.command?).map CommandParts.opening ∧
        List.Forall₂ CommandParts.Describes (entries.filterMap Entry.command?) catalog.commands ∧
        (catalog.settings = none ↔ entries.filterMap Entry.settings? = []) ∧
        List.Forall₂ (CodeBlock.Means reader) (entries.filterMap Entry.settings?)
          catalog.settings.toList) ∧
    ∀ entries : List Entry, events = entries.flatMap Entry.events →
      2 ≤ (entries.filterMap Entry.settings?).length →
        ∃ failure, (ofEventsAfter reader path events).1 = .error failure := by
  constructor
  · intro catalog h
    obtain ⟨⟨entries, hevents⟩, hread⟩ := entries_of_ofEventsAfter h
    obtain ⟨hgives, hmeans⟩ := hread entries hevents
    refine ⟨entries, hevents, ?_, ?_, ?_, hmeans⟩
    · rw [hevents, ← map_commandHeadings [], commandHeadings_flatMap, ← Entry.map_placed [] entries,
        List.map_map, List.map_map]
      rfl
    · rw [← Entry.map_placed [] entries, List.forall₂_map_left_iff]
      exact hgives.imp fun _ _ => Placed.Gives.describes
    · have hlength := hmeans.length_eq
      rw [← List.length_eq_zero_iff, hlength]
      cases catalog.settings <;> simp
  · intro entries hevents htwo
    cases h : (ofEventsAfter reader path events).1 with
    | error failure => exact ⟨failure, rfl⟩
    | ok catalog =>
      have hlength := ((entries_of_ofEventsAfter h).2 entries hevents).2.length_eq
      have hle : catalog.settings.toList.length ≤ 1 := by cases catalog.settings <;> simp
      omega

/-- Settings, a command whose code block has the word of settings, and code of no command. -/
def greeting : List Entry :=
  [.settings ⟨none, .json, ["config"], []⟩ rfl,
    .command {
      opening := ⟨none, 2, { name := "greet", flags := ["bg", "command"] }⟩
      opens := rfl
      paragraphs := [⟨none, " Says hello. "⟩, ⟨none, "Not more."⟩]
      block := ⟨none, .bash, ["config"], "echo hello"⟩ },
    .plain (.source none .python [] "pass") rfl]

def greetingCatalog : Catalog where
  settings := some {}
  commands := [{ name := "greet", language := .bash, source := "echo hello",
                 description := some "Says hello.", background := true }]
  path := "notes.md"

/-- Settings under a heading, which are too many after other ones. -/
def moreSettings : Entry :=
  .settingsUnder ⟨none, 1, { name := "Settings", flags := ["config"] }⟩ rfl ⟨none, .none, [], []⟩

theorem ofEventsAfter_greeting :
    (ofEventsAfter {} "notes.md" (greeting.flatMap Entry.events)).1 = .ok greetingCatalog ∧
      (∃ entries : List Entry, greeting.flatMap Entry.events = entries.flatMap Entry.events ∧
        (greeting.flatMap Entry.events).filterMap Event.commandHeading? =
          (entries.filterMap Entry.command?).map CommandParts.opening ∧
        List.Forall₂ CommandParts.Describes (entries.filterMap Entry.command?)
          greetingCatalog.commands ∧
        (greetingCatalog.settings = none ↔ entries.filterMap Entry.settings? = []) ∧
        List.Forall₂ (CodeBlock.Means {}) (entries.filterMap Entry.settings?)
          greetingCatalog.settings.toList) ∧
      2 ≤ ((greeting ++ [moreSettings]).filterMap Entry.settings?).length ∧
      ∃ failure, (ofEventsAfter {} "notes.md"
        ((greeting ++ [moreSettings]).flatMap Entry.events)).1 = .error failure := by
  have read : (ofEventsAfter {} "notes.md" (greeting.flatMap Entry.events)).1 =
      .ok greetingCatalog := by decide +kernel
  have two : 2 ≤ ((greeting ++ [moreSettings]).filterMap Entry.settings?).length := by
    decide +kernel
  refine ⟨read, ?_, two, ?_⟩
  · exact (ofEventsAfter_attributes {} "notes.md" _).1 greetingCatalog read
  · exact (ofEventsAfter_attributes {} "notes.md" _).2 (greeting ++ [moreSettings]) rfl two

end Runbook.Catalog
