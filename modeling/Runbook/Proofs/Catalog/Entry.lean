import Mathlib.Tactic.Common
import Runbook.Catalog.Extraction

/-! Events cut into entries: a heading with the code block that it waits for is one entry, and every
other event is an entry by itself. A catalog that is read event by event is read entry by entry. -/
namespace Runbook.Catalog
open Markdown

/-- A code block among the events. -/
structure CodeBlock where
  span : Option Span
  language : Language
  words : List Text
  text : Text

def CodeBlock.event (b : CodeBlock) : Event := .source b.span b.language b.words b.text

/-- A paragraph among the events. -/
structure Paragraph where
  span : Option Span
  text : Text

def Paragraph.event (p : Paragraph) : Event := .paragraph p.span p.text

def Opening.event (o : Opening) : Event := .heading o.span o.level o.heading

/-- The heading that opens a command. One that is for settings does not. -/
def Event.commandHeading? : Event → Option Opening
  | .heading span level h =>
    if h.hasFlag "command" && !h.hasFlag "config" then some ⟨span, level, h⟩ else none
  | _ => none

/-- An event that neither is for settings nor opens a command. -/
def Event.isPlain : Event → Bool
  | .heading _ _ h => !h.hasFlag "command" && !h.hasFlag "config"
  | .source _ _ words _ => !words.contains "config"
  | _ => true

lemma CodeBlock.isPlain_event (b : CodeBlock) :
    b.event.isPlain = !b.words.contains "config" := rfl

lemma Opening.isPlain_event (o : Opening) :
    o.event.isPlain = (!o.heading.hasFlag "command" && !o.heading.hasFlag "config") := rfl

lemma Opening.commandHeading?_event (o : Opening) :
    o.event.commandHeading? =
      if o.heading.hasFlag "command" && !o.heading.hasFlag "config" then some o else none := rfl

lemma Opening.flags_of_isPlain (o : Opening) (h : o.event.isPlain = true) :
    o.heading.hasFlag "command" = false ∧ o.heading.hasFlag "config" = false := by
  rw [o.isPlain_event] at h
  simpa using h

lemma Opening.flags_of_commandHeading? (o : Opening) (h : o.event.commandHeading? = some o) :
    o.heading.hasFlag "command" = true ∧ o.heading.hasFlag "config" = false := by
  rw [o.commandHeading?_event] at h
  split at h
  · next hflags => simpa using hflags
  · cases h

lemma Opening.opens_of_not_isPlain (o : Opening) (h : ¬ o.event.isPlain = true)
    (hconfig : ¬ o.heading.hasFlag "config" = true) : o.event.commandHeading? = some o := by
  rw [o.isPlain_event, Bool.eq_false_iff.mpr hconfig] at h
  rw [o.commandHeading?_event, Bool.eq_false_iff.mpr hconfig]
  exact if_pos (by simpa using h)

/-- A command as it stands among the events: its heading, paragraphs, and its code block. -/
structure CommandParts where
  opening : Opening
  opens : opening.event.commandHeading? = some opening
  paragraphs : List Paragraph
  block : CodeBlock

inductive Entry where
  | plain (e : Event) (plain : e.isPlain = true)
  /-- A code block that says by itself that it is for settings. -/
  | settings (block : CodeBlock) (marked : block.words.contains "config" = true)
  /-- A heading that says so, and the code block under it. -/
  | settingsUnder (opening : Opening) (marked : opening.heading.hasFlag "config" = true)
      (block : CodeBlock)
  | command (c : CommandParts)

namespace CommandParts

/-- The paragraphs and the code block. -/
def body (c : CommandParts) : List Event :=
  c.paragraphs.map Paragraph.event ++ [c.block.event]

/-- The first paragraph without the white space around it. -/
def description (c : CommandParts) : Option Text := c.paragraphs.head?.map (Text.trim ·.text)

/-- The command that the entry stands for, with the types in force under its heading. -/
def command (c : CommandParts) (path : Text) (types : Tags) : Except Failure Command :=
  c.opening.command path types c.description c.block.language c.block.words c.block.text

end CommandParts

namespace Entry

def events : Entry → List Event
  | plain e _ => [e]
  | settings b _ => [b.event]
  | settingsUnder o _ b => [o.event, b.event]
  | command c => c.opening.event :: c.body

lemma length_events_pos (e : Entry) : 0 < e.events.length := by
  cases e <;> simp [events]

/-- The code block of an entry that is for settings. -/
def settings? : Entry → Option CodeBlock
  | plain .. => none
  | settings b _ => some b
  | settingsUnder _ _ b => some b
  | command _ => none

def command? : Entry → Option CommandParts
  | command c => some c
  | _ => none

end Entry

/-- What a heading does to the open headings, unless it is for settings. -/
def Scope.after (scope : Scope) : Event → Scope
  | .heading _ level heading =>
    if heading.hasFlag "config" then scope
    else scope.enter level (.ofList (heading.valuesOf "type"))
  | _ => scope

lemma Scope.after_event (scope : Scope) (o : Opening) :
    scope.after o.event =
      if o.heading.hasFlag "config" then scope
      else scope.enter o.level (.ofList (o.heading.valuesOf "type")) := rfl

/-- All that an entry can do. -/
inductive Entry.Reads (path : Text) (p : Progress) : Entry → Progress → Prop
  | finish {span : Option Span} {plain : Event.isPlain (.finish span) = true} :
      Reads path p (.plain (.finish span) plain) (p.endRange path span)
  | heading {o : Opening} {plain : o.event.isPlain = true} :
      Reads path p (.plain o.event plain)
        { p.endRange path o.span with scope := p.scope.after o.event }
  | paragraph {span : Option Span} {text : Text}
      {plain : Event.isPlain (.paragraph span text) = true} :
      Reads path p (.plain (.paragraph span text) plain) p
  | source {b : CodeBlock} {plain : b.event.isPlain = true} : Reads path p (.plain b.event plain) p
  | settings {b : CodeBlock} {marked : b.words.contains "config" = true} {site : Site}
      {s : Settings} {reader : Yaml.Reader} (first : p.settings = none)
      (read : readSettings p.reader site b.language b.text = (.ok s, reader)) :
      Reads path p (.settings b marked) { p with settings := some s, reader }
  | settingsUnder {o : Opening} {marked : o.heading.hasFlag "config" = true} {b : CodeBlock}
      {site : Site} {s : Settings} {reader : Yaml.Reader} (first : p.settings = none)
      (read : readSettings p.reader site b.language b.text = (.ok s, reader)) :
      Reads path p (.settingsUnder o marked b)
        { p.endRange path o.span with settings := some s, reader }
  | command {c : CommandParts} {made : Command}
      (makes : c.command path (p.scope.after c.opening.event).types = .ok made) :
      Reads path p (.command c)
        { p.endRange path c.opening.span with
          scope := p.scope.after c.opening.event, current := some (made, c.opening) }

/-- Entries that are read one after another. -/
inductive ReadsAll (path : Text) : Progress → List Entry → Progress → Prop
  | nil (p : Progress) : ReadsAll path p [] p
  | cons {p q r : Progress} {e : Entry} {es : List Entry} (head : e.Reads path p q)
      (tail : ReadsAll path q es r) : ReadsAll path p (e :: es) r

namespace Progress
variable {path : Text} {p q : Progress} {es : List Event}

@[simp] lemma endRange_scope (span : Option Span) : (p.endRange path span).scope = p.scope := by
  unfold endRange
  split <;> rfl

@[simp] lemma endRange_awaiting (span : Option Span) :
    (p.endRange path span).awaiting = p.awaiting := by
  unfold endRange
  split <;> rfl

@[simp] lemma endRange_settings (span : Option Span) :
    (p.endRange path span).settings = p.settings := by
  unfold endRange
  split <;> rfl

@[simp] lemma endRange_reader (span : Option Span) : (p.endRange path span).reader = p.reader := by
  unfold endRange
  split <;> rfl

/-! ### Single events -/

/-- A run over one more event is a step and a run. -/
lemma run_cons {e : Event} (h : (e :: es).foldlM (step path) p = .ok q) :
    ∃ r, p.step path e = .ok r ∧ es.foldlM (step path) r = .ok q := by
  rw [List.foldlM_cons] at h
  cases hstep : p.step path e with
  | error failure =>
    rw [hstep] at h
    cases h
  | ok r =>
    rw [hstep] at h
    exact ⟨r, rfl, h⟩

lemma step_anything (hp : p.awaiting = .anything) (e : Event) :
    p.step path e = p.continue_ path e := by
  unfold step
  rw [hp]

lemma addSettings_ok {site : Site} {s : Settings} (h : p.addSettings site s = .ok q) :
    p.settings = none ∧ q = { p with settings := some s, awaiting := .anything } := by
  unfold addSettings at h
  split at h
  · cases h
  · next hs => exact ⟨by simpa using hs, (Except.ok.inj h).symm⟩

variable {o : Opening}

/-- The code block that is awaited makes the command, unless it cannot be made. -/
lemma step_source {types : Tags} {description : Option Text}
    (hp : p.awaiting = .source o types description) (b : CodeBlock) :
    p.step path b.event =
      (o.command path types description b.language b.words b.text).map fun c =>
        { p with current := some (c, o), awaiting := .anything } := by
  unfold step CodeBlock.event
  rw [hp]
  dsimp only
  cases o.command path types description b.language b.words b.text <;> rfl

lemma continue_settingsHeading (h : o.heading.hasFlag "config" = true) :
    p.continue_ path o.event =
      .ok { p.endRange path o.span with awaiting := .settings o } := by
  rw [Opening.event, continue_]
  exact if_pos h

lemma continue_commandHeading (h : o.event.commandHeading? = some o) :
    p.continue_ path o.event = .ok { p.endRange path o.span with
      scope := p.scope.after o.event
      awaiting := .source o (p.scope.after o.event).types none } := by
  obtain ⟨hcommand, hconfig⟩ := o.flags_of_commandHeading? h
  rw [p.scope.after_event, hconfig, Opening.event, continue_]
  simp only [hcommand, hconfig, endRange_scope]
  rfl

lemma continue_plainHeading (h : o.event.isPlain = true) :
    p.continue_ path o.event =
      .ok { p.endRange path o.span with scope := p.scope.after o.event } := by
  obtain ⟨hcommand, hconfig⟩ := o.flags_of_isPlain h
  rw [p.scope.after_event, hconfig, Opening.event, continue_]
  simp only [hcommand, hconfig, endRange_scope]
  rfl

/-! ### From events to entries -/

/-- A heading that is for settings is followed by a code block. -/
lemma exists_block (hp : p.awaiting = .settings o) (hq : q.awaiting = .anything)
    (h : es.foldlM (step path) p = .ok q) :
    ∃ (b : CodeBlock) (rest : List Event), es = b.event :: rest := by
  cases es with
  | nil =>
    cases h
    rw [hp] at hq
    cases hq
  | cons e rest =>
    obtain ⟨r, hstep, -⟩ := run_cons h
    unfold step at hstep
    rw [hp] at hstep
    cases e with
    | source span language words text => exact ⟨⟨span, language, words, text⟩, rest, rfl⟩
    | heading span level heading => cases hstep
    | paragraph span text => cases hstep
    | finish span => cases hstep

/-- A command heading is followed by paragraphs and a code block. -/
lemma exists_body {types : Tags} {description : Option Text}
    (hp : p.awaiting = .source o types description) (hq : q.awaiting = .anything)
    (h : es.foldlM (step path) p = .ok q) :
    ∃ (paragraphs : List Paragraph) (b : CodeBlock) (rest : List Event),
      es = paragraphs.map Paragraph.event ++ b.event :: rest := by
  induction es generalizing p description with
  | nil =>
    cases h
    rw [hp] at hq
    cases hq
  | cons e rest ih =>
    obtain ⟨r, hstep, hrest⟩ := run_cons h
    unfold step at hstep
    rw [hp] at hstep
    cases e with
    | paragraph span text =>
      obtain rfl := Except.ok.inj hstep
      obtain ⟨paragraphs, b, rest', rfl⟩ := ih rfl hrest
      exact ⟨⟨span, text⟩ :: paragraphs, b, rest', rfl⟩
    | source span language words text => exact ⟨[], ⟨span, language, words, text⟩, rest, rfl⟩
    | heading span level heading => cases hstep
    | finish span => cases hstep

/-- Where nothing is awaited, the first of the events that are read begins an entry. -/
lemma exists_entry {e : Event} (hp : p.awaiting = .anything) (hq : q.awaiting = .anything)
    (h : (e :: es).foldlM (step path) p = .ok q) :
    ∃ (entry : Entry) (rest : List Event), e :: es = entry.events ++ rest := by
  by_cases hplain : e.isPlain = true
  · exact ⟨.plain e hplain, es, rfl⟩
  · obtain ⟨r, hstep, hrest⟩ := run_cons h
    rw [step_anything hp] at hstep
    cases e with
    | finish span => exact absurd rfl hplain
    | paragraph span text => exact absurd rfl hplain
    | source span language words text =>
      let b : CodeBlock := ⟨span, language, words, text⟩
      have hmarked : b.words.contains "config" = true := by simpa [Event.isPlain] using hplain
      exact ⟨.settings b hmarked, es, rfl⟩
    | heading span level heading =>
      let o : Opening := ⟨span, level, heading⟩
      change p.continue_ path o.event = .ok r at hstep
      by_cases hconfig : o.heading.hasFlag "config" = true
      · rw [continue_settingsHeading hconfig] at hstep
        obtain rfl := Except.ok.inj hstep
        obtain ⟨b, rest, rfl⟩ := exists_block rfl hq hrest
        exact ⟨.settingsUnder o hconfig b, rest, rfl⟩
      · have hopens : o.event.commandHeading? = some o := o.opens_of_not_isPlain hplain hconfig
        rw [continue_commandHeading hopens] at hstep
        obtain rfl := Except.ok.inj hstep
        obtain ⟨paragraphs, b, rest, rfl⟩ := exists_body rfl hq hrest
        refine ⟨.command ⟨o, hopens, paragraphs, b⟩, rest, ?_⟩
        simp [Entry.events, CommandParts.body, o, Opening.event]

/-! ### From entries to what they do -/

lemma run_block {b : CodeBlock} (hp : p.awaiting = .settings o)
    (h : (b.event :: es).foldlM (step path) p = .ok q) :
    ∃ (site : Site) (s : Settings) (reader : Yaml.Reader), p.settings = none ∧
      readSettings p.reader site b.language b.text = (.ok s, reader) ∧
        es.foldlM (step path)
          { p with settings := some s, reader, awaiting := .anything } = .ok q := by
  obtain ⟨r, hstep, hrest⟩ := run_cons h
  unfold step CodeBlock.event at hstep
  rw [hp] at hstep
  dsimp only at hstep
  split at hstep
  · next s reader hread =>
    obtain ⟨hnone, rfl⟩ := addSettings_ok hstep
    exact ⟨_, s, reader, hnone, hread, hrest⟩
  · cases hstep

lemma run_body {types : Tags} {description : Option Text} {paragraphs : List Paragraph}
    {b : CodeBlock} (hp : p.awaiting = .source o types description)
    (h : (paragraphs.map Paragraph.event ++ b.event :: es).foldlM (step path) p =
      .ok q) :
    ∃ made, o.command path types
        (description <|> paragraphs.head?.map (Text.trim ·.text))
        b.language b.words b.text = .ok made ∧
      es.foldlM (step path) { p with current := some (made, o), awaiting := .anything } = .ok q := by
  induction paragraphs generalizing p description with
  | nil =>
    obtain ⟨r, hstep, hrest⟩ := run_cons h
    rw [step_source hp] at hstep
    cases hmade : o.command path types description b.language b.words b.text with
    | error failure =>
      rw [hmade] at hstep
      cases hstep
    | ok made =>
      rw [hmade] at hstep
      obtain rfl := Except.ok.inj hstep
      refine ⟨made, ?_, hrest⟩
      cases description <;> exact hmade
  | cons paragraph paragraphs ih =>
    obtain ⟨r, hstep, hrest⟩ := run_cons h
    unfold step at hstep
    rw [hp] at hstep
    obtain rfl := Except.ok.inj hstep
    obtain ⟨made, hmade, hrun⟩ := ih rfl hrest
    refine ⟨made, ?_, hrun⟩
    cases description <;> exact hmade

lemma reads_plain {e : Event} (plain : e.isPlain = true) (hp : p.awaiting = .anything)
    (h : p.step path e = .ok q) :
    (Entry.plain e plain).Reads path p q ∧ q.awaiting = .anything := by
  rw [step_anything hp] at h
  cases e with
  | finish span =>
    obtain rfl := Except.ok.inj h
    exact ⟨.finish, by simpa using hp⟩
  | paragraph span text =>
    obtain rfl := Except.ok.inj h
    exact ⟨.paragraph, hp⟩
  | source span language words text =>
    have hwords : words.contains "config" = false := by simpa [Event.isPlain] using plain
    rw [continue_, hwords] at h
    obtain rfl := Except.ok.inj h
    exact ⟨.source (b := ⟨span, language, words, text⟩), hp⟩
  | heading span level heading =>
    let o : Opening := ⟨span, level, heading⟩
    change p.continue_ path o.event = .ok q at h
    rw [continue_plainHeading (o := o) plain] at h
    obtain rfl := Except.ok.inj h
    exact ⟨.heading (o := o), by simpa using hp⟩

lemma reads_settings {b : CodeBlock} (marked : b.words.contains "config" = true)
    (hp : p.awaiting = .anything) (h : p.step path b.event = .ok q) :
    (Entry.settings b marked).Reads path p q ∧ q.awaiting = .anything := by
  rw [step_anything hp, CodeBlock.event, continue_, marked, if_pos rfl] at h
  split at h
  · next s reader hread =>
    obtain ⟨hnone, rfl⟩ := addSettings_ok h
    refine ⟨?_, rfl⟩
    rw [← hp]
    exact .settings hnone hread
  · cases h

/-- Where nothing is awaited, an entry is read as a whole, and nothing is awaited then. -/
lemma reads_entry {entry : Entry} (hp : p.awaiting = .anything)
    (h : (entry.events ++ es).foldlM (step path) p = .ok q) :
    ∃ r, entry.Reads path p r ∧ r.awaiting = .anything ∧ es.foldlM (step path) r = .ok q := by
  cases entry with
  | plain e plain =>
    obtain ⟨r, hstep, hrest⟩ := run_cons h
    obtain ⟨hreads, hr⟩ := reads_plain plain hp hstep
    exact ⟨r, hreads, hr, hrest⟩
  | settings b marked =>
    obtain ⟨r, hstep, hrest⟩ := run_cons h
    obtain ⟨hreads, hr⟩ := reads_settings marked hp hstep
    exact ⟨r, hreads, hr, hrest⟩
  | settingsUnder o marked b =>
    obtain ⟨r, hstep, hrest⟩ := run_cons h
    rw [step_anything hp, continue_settingsHeading marked] at hstep
    obtain rfl := Except.ok.inj hstep
    obtain ⟨site, s, reader, hnone, hread, hrun⟩ := run_block rfl hrest
    rw [endRange_settings] at hnone
    rw [endRange_reader] at hread
    have hanything : (p.endRange path o.span).awaiting = .anything := by simpa using hp
    rw [← hanything] at hrun
    exact ⟨_, .settingsUnder hnone hread, hanything, hrun⟩
  | command c =>
    have hevents : c.opening.event :: (c.paragraphs.map Paragraph.event ++ c.block.event :: es) =
        (Entry.command c).events ++ es := by simp [Entry.events, CommandParts.body]
    rw [← hevents] at h
    obtain ⟨r, hstep, hrest⟩ := run_cons h
    rw [step_anything hp, continue_commandHeading c.opens] at hstep
    obtain rfl := Except.ok.inj hstep
    obtain ⟨made, hmade, hrun⟩ := run_body rfl hrest
    have hanything : (p.endRange path c.opening.span).awaiting = .anything := by simpa using hp
    rw [← hanything] at hrun
    exact ⟨_, .command hmade, hanything, hrun⟩

/-- Entries are read one after another. -/
theorem readsAll_of_run {entries : List Entry} (hp : p.awaiting = .anything)
    (h : (entries.flatMap Entry.events).foldlM (step path) p = .ok q) :
    ReadsAll path p entries q := by
  induction entries generalizing p with
  | nil =>
    cases h
    exact .nil _
  | cons entry entries ih =>
    rw [List.flatMap_cons] at h
    obtain ⟨r, hentry, hr, hrest⟩ := reads_entry hp h
    exact .cons hentry (ih hr hrest)

/-- Where nothing is awaited, events that are read to the end are cut into entries. -/
theorem exists_entries (hp : p.awaiting = .anything) (hq : q.awaiting = .anything)
    (h : es.foldlM (step path) p = .ok q) :
    ∃ entries : List Entry, es = entries.flatMap Entry.events := by
  -- The induction is on the number of events, since an entry takes several of them.
  induction hn : es.length using Nat.strongRecOn generalizing es p with
  | ind n ih =>
    cases es with
    | nil => exact ⟨[], rfl⟩
    | cons e es =>
      obtain ⟨entry, rest, hes⟩ := exists_entry hp hq h
      rw [hes] at h hn ⊢
      obtain ⟨r, -, hr, hrest⟩ := reads_entry hp h
      have hlength : rest.length < n := by
        rw [← hn, List.length_append]
        have := entry.length_events_pos
        omega
      obtain ⟨entries, rfl⟩ := ih _ hlength hr hrest rfl
      exact ⟨entry :: entries, rfl⟩

end Progress
end Runbook.Catalog
