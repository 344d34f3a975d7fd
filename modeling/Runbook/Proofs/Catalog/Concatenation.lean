import Mathlib.Tactic.Common
import Runbook.Proofs.Catalog.Inheritance
import Runbook.Proofs.Catalog.Location
import Runbook.Proofs.Markdown.Append

/-! The catalog of two documents, one after the other. The second one starts with a heading of the
first level, so that nothing of the first one is in force there but its settings. -/
namespace Runbook

/-! ### Further down -/

namespace Markdown

/-- The same lines with some lines above them. -/
def Span.shift (k : Nat) (s : Span) : Span := ⟨s.first + k, s.last + k⟩

/-- A heading on one line has one sign at least. -/
lemma numbered?_pos {l title : Text} {level : Nat} (h : numbered? l = some (level, title)) :
    1 ≤ level := by
  unfold numbered? at h
  grind

lemma underline?_pos {l : Text} {level : Nat} (h : underline? l = some level) : 1 ≤ level := by
  unfold underline? at h
  grind

end Markdown

/-- The same place with some lines above it. -/
def Location.shift (k : Nat) (l : Location) : Location :=
  { l with first := l.first + k, last := l.last + k }

/-- The same command with some lines above it. -/
def Command.shift (k : Nat) (c : Command) : Command :=
  { c with location := c.location.map (Location.shift k) }

lemma Command.shift_of_none (c : Command) (h : c.location = none) (k : Nat) : c.shift k = c := by
  rw [Command.shift, h, Option.map_none, ← h]

namespace Catalog
open Markdown Text

def Opening.shift (k : Nat) (o : Opening) : Opening :=
  { o with span := o.span.map (Span.shift k) }

def Awaiting.shift (k : Nat) : Awaiting → Awaiting
  | anything => anything
  | settings o => settings (o.shift k)
  | source o types description => source (o.shift k) types description

def Awaiting.opening? : Awaiting → Option Opening
  | anything => none
  | settings o => some o
  | source o _ _ => some o

lemma Awaiting.eq_anything {k : Nat} {a : Awaiting} (h : a.shift k = .anything) :
    a = .anything := by
  cases a with
  | anything => rfl
  | settings => cases h
  | source => cases h

namespace Event

def shift (k : Nat) : Event → Event
  | heading span level h => heading (span.map (Span.shift k)) level h
  | source span language words text => source (span.map (Span.shift k)) language words text
  | paragraph span text => paragraph (span.map (Span.shift k)) text
  | finish span => finish (span.map (Span.shift k))

def span? : Event → Option Span
  | heading span _ _ => span
  | source span _ _ _ => span
  | paragraph span _ => span
  | finish span => span

lemma ofBlock_shift (k : Nat) (b : Block) : ofBlock (b.shift k) = (ofBlock b).map (shift k) := by
  obtain ⟨first, last, content⟩ := b
  cases content <;> rfl

lemma span?_of_mem_ofBlock {e : Event} {b : Block} (h : e ∈ ofBlock b) : e.span?.isSome = true := by
  obtain ⟨first, last, content⟩ := b
  cases content with
  | heading =>
    obtain rfl := List.mem_singleton.mp h
    rfl
  | paragraph =>
    obtain rfl := List.mem_singleton.mp h
    rfl
  | code =>
    obtain rfl := List.mem_singleton.mp h
    rfl
  | verbatim => cases h

/-- All events of a document have their lines. -/
lemma span?_of_mem_document {e : Event} {s : Text} (h : e ∈ ofNode (document s)) :
    e.span?.isSome = true := by
  rw [ofNode_document, List.mem_append] at h
  rcases h with h | h
  · obtain ⟨b, -, hb⟩ := List.mem_flatMap.mp h
    exact span?_of_mem_ofBlock hb
  · obtain rfl := List.mem_singleton.mp h
    rfl

lemma flatMap_ofBlock_shift (k : Nat) (bs : List Block) :
    (bs.map (Block.shift k)).flatMap ofBlock = (bs.flatMap ofBlock).map (shift k) := by
  rw [List.flatMap_map, List.map_flatMap]
  exact List.flatMap_congr fun b _ => ofBlock_shift k b

end Event

lemma lineOf_shift (k : Nat) {span : Option Span} (h : span.isSome = true) {line : Int} :
    (lineOf (span.map (Span.shift k))).getD line = (lineOf span).getD line + k := by
  obtain ⟨s, rfl⟩ := Option.isSome_iff_exists.mp h
  rfl

lemma Opening.command_cases (o : Opening) (k : Nat) (path : Text) (types : Tags)
    (description : Option Text) (language : Language) (words : List Text) (source : Text) :
    (∃ c, o.command path types description language words source = .ok c ∧
      (o.shift k).command path types description language words source = .ok c ∧
        c.location = none) ∨
      ∃ failure failure',
        o.command path types description language words source = .error failure ∧
          (o.shift k).command path types description language words source = .error failure' := by
  simp only [Opening.command, Opening.shift]
  split
  · exact .inr ⟨_, _, rfl, rfl⟩
  · split
    · exact .inr ⟨_, _, rfl, rfl⟩
    · split
      · exact .inr ⟨_, _, rfl, rfl⟩
      · exact .inl ⟨_, rfl, rfl, rfl⟩

/-! ### What an event can do -/

namespace Progress
variable {path : Text} {p q : Progress} {e : Event}

/-- All that one event can do. -/
inductive Takes (path : Text) (p : Progress) : Event → Progress → Prop
  | finish {span : Option Span} : Takes path p (.finish span) (p.endRange path span)
  | paragraph {span : Option Span} {text : Text} : Takes path p (.paragraph span text) p
  | describes {o : Opening} {types : Tags} {description more : Option Text} {span : Option Span}
      {text : Text} (awaiting : p.awaiting = .source o types description) :
      Takes path p (.paragraph span text) { p with awaiting := .source o types more }
  | source {b : CodeBlock} : Takes path p b.event p
  | settings {b : CodeBlock} {s : Settings} {reader : Yaml.Reader} (first : p.settings = none) :
      Takes path p b.event { p with settings := some s, reader, awaiting := .anything }
  | command {o : Opening} {types : Tags} {description : Option Text} {b : CodeBlock} {c : Command}
      (awaiting : p.awaiting = .source o types description) :
      Takes path p b.event { p with current := some (c, o), awaiting := .anything }
  | settingsHeading {o : Opening} (marked : o.heading.hasFlag "config" = true) :
      Takes path p o.event { p.endRange path o.span with awaiting := .settings o }
  | commandHeading {o : Opening} {types : Tags} : Takes path p o.event
      { p.endRange path o.span with
        scope := p.scope.after o.event, awaiting := .source o types none }
  | heading {o : Opening} :
      Takes path p o.event { p.endRange path o.span with scope := p.scope.after o.event }

lemma takes_settings {b : CodeBlock} {r : Except Failure Settings × Yaml.Reader} {site : Site}
    (h : (match r with
      | (.ok s, reader) => { p with reader }.addSettings site s
      | (.error failure, _) => .error failure) = Except.ok q) : p.Takes path b.event q := by
  obtain ⟨_ | s, reader⟩ := r
  · cases h
  · obtain ⟨hnone, rfl⟩ := addSettings_ok h
    exact .settings hnone

lemma takes_of_continue (h : p.continue_ path e = .ok q) : p.Takes path e q := by
  cases e with
  | finish span =>
    obtain rfl := Except.ok.inj h
    exact .finish
  | paragraph span text =>
    obtain rfl := Except.ok.inj h
    exact .paragraph
  | source span language words text =>
    let b : CodeBlock := ⟨span, language, words, text⟩
    change p.Takes path b.event q
    rw [continue_] at h
    split at h
    · exact takes_settings h
    · obtain rfl := Except.ok.inj h
      exact .source
  | heading span level heading =>
    let o : Opening := ⟨span, level, heading⟩
    change p.continue_ path o.event = .ok q at h
    change p.Takes path o.event q
    by_cases hconfig : o.heading.hasFlag "config" = true
    · rw [continue_settingsHeading hconfig] at h
      obtain rfl := Except.ok.inj h
      exact .settingsHeading hconfig
    · by_cases hplain : o.event.isPlain = true
      · rw [continue_plainHeading hplain] at h
        obtain rfl := Except.ok.inj h
        exact .heading
      · rw [continue_commandHeading (o.opens_of_not_isPlain hplain hconfig)] at h
        obtain rfl := Except.ok.inj h
        exact .commandHeading

theorem takes_of_step (h : p.step path e = .ok q) : p.Takes path e q := by
  unfold step at h
  cases hp : p.awaiting with
  | anything =>
    rw [hp] at h
    exact takes_of_continue h
  | settings o =>
    rw [hp] at h
    cases e with
    | source span language words text =>
      let b : CodeBlock := ⟨span, language, words, text⟩
      change p.Takes path b.event q
      exact takes_settings h
    | heading => cases h
    | paragraph => cases h
    | finish => cases h
  | source o types description =>
    rw [hp] at h
    cases e with
    | source span language words text =>
      let b : CodeBlock := ⟨span, language, words, text⟩
      change p.Takes path b.event q
      dsimp only at h
      split at h
      · obtain rfl := Except.ok.inj h
        exact .command hp
      · cases h
    | paragraph span text =>
      obtain rfl := Except.ok.inj h
      exact .describes hp
    | heading => cases h
    | finish => cases h

/-- The headings that are waited for or that have an open range have their lines. -/
structure Located (p : Progress) : Prop where
  current : ∀ c ∈ p.current, c.2.span.isSome = true
  awaiting : ∀ o ∈ p.awaiting.opening?, o.span.isSome = true

/-- What every event keeps. -/
lemma Takes.scope (h : p.Takes path e q) : q.scope = p.scope.after e := by
  cases h with
  | settingsHeading marked => exact (endRange_scope _).trans ((if_pos marked).symm)
  | finish => exact endRange_scope _
  | _ => rfl

lemma Takes.unsettled (h : p.Takes path e q) (hq : q.settings = none) :
    p.settings = none ∧ q.reader = p.reader := by
  cases h with
  | settings => cases hq
  | finish => exact ⟨by rwa [endRange_settings] at hq, endRange_reader _⟩
  | settingsHeading => exact ⟨by rwa [endRange_settings] at hq, endRange_reader _⟩
  | commandHeading => exact ⟨by rwa [endRange_settings] at hq, endRange_reader _⟩
  | heading => exact ⟨by rwa [endRange_settings] at hq, endRange_reader _⟩
  | _ => exact ⟨hq, rfl⟩

lemma Takes.located (h : p.Takes path e q) (hp : p.Located) (he : e.span?.isSome = true) :
    q.Located := by
  have ended (span : Option Span) :
      ∀ c ∈ (p.endRange path span).current, c.2.span.isSome = true := by
    simp
  cases h with
  | finish => exact ⟨ended _, by simpa using hp.awaiting⟩
  | paragraph => exact hp
  | describes awaiting =>
    refine ⟨hp.current, ?_⟩
    have := hp.awaiting
    rw [awaiting] at this
    exact this
  | source => exact hp
  | settings => exact ⟨hp.current, by simp [Awaiting.opening?]⟩
  | @command o types description b c awaiting =>
    have ho := hp.awaiting o (by rw [awaiting]; rfl)
    exact ⟨by simpa using ho, by simp [Awaiting.opening?]⟩
  | @settingsHeading o => exact ⟨ended _, fun o' ho' => Option.some.inj ho' ▸ he⟩
  | @commandHeading o => exact ⟨ended _, fun o' ho' => Option.some.inj ho' ▸ he⟩
  | heading => exact ⟨ended _, by simpa using hp.awaiting⟩

/-! ### One state after another -/

/-- A state in the second document, where the first one has so many lines and ends in front. -/
def join (front : Progress) (k : Nat) (p : Progress) : Progress where
  scope := p.scope
  settings := front.settings <|> p.settings
  ended := front.ended ++ p.ended.map (Command.shift k)
  current := p.current.map fun c => (c.1.shift k, c.2.shift k)
  awaiting := p.awaiting.shift k
  reader := if front.settings.isSome then front.reader else p.reader

variable {front : Progress} {k : Nat}

lemma endRange_join (hp : p.Located) {span : Option Span} (h : span.isSome = true) :
    (front.join k p).endRange path (span.map (Span.shift k)) =
      front.join k (p.endRange path span) := by
  cases hc : p.current with
  | none => simp [endRange, join, hc]
  | some c =>
    obtain ⟨c, o⟩ := c
    have ho : o.span.isSome = true := hp.current (c, o) hc
    have hfirst : (lineOf (o.shift k).span).getD (-1) = (lineOf o.span).getD (-1) + k :=
      lineOf_shift k ho
    have hlast : (lineOf (span.map (Span.shift k))).getD 0 - 1 = (lineOf span).getD 0 - 1 + k := by
      rw [lineOf_shift k h]
      omega
    simp only [endRange, join, hc, Option.map_some, hfirst, hlast, List.map_append,
      List.append_assoc]
    rfl

/-- What comes of the second document alone, and after the first one: the same further down, or a
failure, where the settings of both are a failure as well. -/
inductive Agrees (front : Progress) (k : Nat) :
    Except Failure Progress → Except Failure Progress → Prop
  | ok {p : Progress} (apart : front.settings = none ∨ p.settings = none) :
      Agrees front k (.ok p) (.ok (front.join k p))
  | error {alone after : Failure} : Agrees front k (.error alone) (.error after)
  | clash {p : Progress} {failure : Failure} (first : front.settings ≠ none)
      (second : p.settings ≠ none) : Agrees front k (.ok p) (.error failure)

/-- Whether data are settings does not depend on where they stand. -/
lemma settingsOf_cases (site site' : Site) (v : Decoded) :
    (∃ s, settingsOf site v = .ok s ∧ settingsOf site' v = .ok s) ∨
      ∃ failure failure', settingsOf site v = .error failure ∧
        settingsOf site' v = .error failure' := by
  unfold settingsOf
  split
  · exact .inr ⟨_, _, rfl, rfl⟩
  · exact .inr ⟨_, _, rfl, rfl⟩
  · split
    · exact .inl ⟨_, rfl, rfl⟩
    · exact .inr ⟨_, _, rfl, rfl⟩
  · exact .inr ⟨_, _, rfl, rfl⟩

/-- With settings in front, there can be no more of them. -/
lemma addSettings_join (h : front.settings ≠ none) (reader : Yaml.Reader) (site : Site)
    (s : Settings) :
    ({ front.join k p with reader }.addSettings site s) =
      .error (.catalog site .settingsRepeated) := by
  obtain ⟨settings, hsettings⟩ := Option.ne_none_iff_exists'.mp h
  simp [addSettings, join, hsettings]

lemma agrees_settings (apart : front.settings = none ∨ p.settings = none)
    (site site' here here' : Site) (language : Language) (text : Text) :
    Agrees front k
      (match readSettings p.reader site language text with
        | (.ok s, reader) => { p with reader }.addSettings here s
        | (.error failure, _) => .error failure)
      (match readSettings (front.join k p).reader site' language text with
        | (.ok s, reader) => { front.join k p with reader }.addSettings here' s
        | (.error failure, _) => .error failure) := by
  by_cases hfront : front.settings = none
  · have hreader : (front.join k p).reader = p.reader := by simp [join, hfront]
    have hsettings : (front.join k p).settings = p.settings := by simp [join, hfront]
    rw [readSettings, readSettings, hreader]
    obtain ⟨v, reader⟩ := decode p.reader language text
    rcases settingsOf_cases site site' v with ⟨s, h, h'⟩ | ⟨failure, failure', h, h'⟩
    · simp only [h, h', addSettings, hsettings]
      split
      · exact .error
      · have hjoin : { front.join k p with reader, settings := some s, awaiting := .anything } =
            front.join k { p with reader, settings := some s, awaiting := .anything } := by
          simp [join, hfront, Awaiting.shift]
        rw [hjoin]
        exact .ok (.inl hfront)
    · simp only [h, h']
      exact .error
  · have hp : p.settings = none := apart.resolve_left hfront
    have hfails : ∃ failure, (match readSettings (front.join k p).reader site' language text with
        | (.ok s, reader) => { front.join k p with reader }.addSettings here' s
        | (.error failure, _) => .error failure) = Except.error failure := by
      obtain ⟨_ | s, reader⟩ := readSettings (front.join k p).reader site' language text
      · exact ⟨_, rfl⟩
      · exact ⟨_, addSettings_join hfront reader here' s⟩
    obtain ⟨failure, hfailure⟩ := hfails
    rw [hfailure]
    obtain ⟨_ | s, reader⟩ := readSettings p.reader site language text
    · exact .error
    · simp only [addSettings, hp]
      exact .clash hfront (by simp)

lemma agrees_continue (hp : p.Located) (apart : front.settings = none ∨ p.settings = none)
    (he : e.span?.isSome = true) :
    Agrees front k (p.continue_ path e) ((front.join k p).continue_ path (e.shift k)) := by
  cases e with
  | finish span =>
    have hend : (front.join k p).endRange path (span.map (Span.shift k)) =
      front.join k (p.endRange path span) := endRange_join hp he
    rw [Event.shift, continue_, continue_, hend]
    exact .ok (by rwa [endRange_settings])
  | paragraph span text => exact .ok apart
  | source span language words text =>
    rw [Event.shift, continue_, continue_]
    split
    · exact agrees_settings apart _ _ _ _ language text
    · exact .ok apart
  | heading span level heading =>
    let o : Opening := ⟨span, level, heading⟩
    change Agrees front k (p.continue_ path o.event)
      ((front.join k p).continue_ path (o.shift k).event)
    have hend : (front.join k p).endRange path (o.shift k).span =
      front.join k (p.endRange path o.span) := endRange_join hp he
    have hscope : (front.join k p).scope.after (o.shift k).event = p.scope.after o.event := rfl
    have hapart : front.settings = none ∨ (p.endRange path o.span).settings = none := by
      rwa [endRange_settings]
    by_cases hconfig : o.heading.hasFlag "config" = true
    · rw [continue_settingsHeading hconfig, continue_settingsHeading (o := o.shift k) hconfig, hend]
      exact .ok (p := { p.endRange path o.span with awaiting := .settings o }) hapart
    · by_cases hplain : o.event.isPlain = true
      · rw [continue_plainHeading hplain, continue_plainHeading (o := o.shift k) hplain, hend,
          hscope]
        exact .ok (p := { p.endRange path o.span with scope := p.scope.after o.event }) hapart
      · have hopens := o.opens_of_not_isPlain hplain hconfig
        have hopens' := (o.shift k).opens_of_not_isPlain hplain hconfig
        rw [continue_commandHeading hopens, continue_commandHeading hopens', hend, hscope]
        exact .ok (p := { p.endRange path o.span with
          scope := p.scope.after o.event
          awaiting := .source o (p.scope.after o.event).types none }) hapart

/-- The step: one event of the second document, after the first one and alone. -/
lemma agrees_step (hp : p.Located) (apart : front.settings = none ∨ p.settings = none)
    (he : e.span?.isSome = true) :
    Agrees front k (p.step path e) ((front.join k p).step path (e.shift k)) := by
  have hawaiting : (front.join k p).awaiting = p.awaiting.shift k := rfl
  unfold step
  rw [hawaiting]
  cases hp' : p.awaiting with
  | anything => exact agrees_continue hp apart he
  | settings o =>
    cases e with
    | source span language words text => exact agrees_settings apart _ _ _ _ language text
    | heading => exact .error
    | paragraph => exact .error
    | finish => exact .error
  | source o types description =>
    cases e with
    | source span language words text =>
      simp only [Awaiting.shift, Event.shift]
      rcases o.command_cases k path types description language words text with
        ⟨c, h, h', hlocation⟩ | ⟨failure, failure', h, h'⟩
      · simp only [h, h']
        have hc : c.shift k = c := c.shift_of_none hlocation k
        have hjoin : { front.join k p with
            current := some (c, o.shift k), awaiting := .anything } =
            front.join k { p with current := some (c, o), awaiting := .anything } := by
          simp [join, hc, Awaiting.shift]
        rw [hjoin]
        exact .ok apart
      · simp only [h, h']
        exact .error
    | paragraph span text => exact .ok (p := { p with
        awaiting := .source o types (description <|> some (Text.trim text)) }) apart
    | heading => exact .error
    | finish => exact .error

lemma unsettled_of_run {es : List Event} (h : es.foldlM (step path) p = .ok q)
    (hq : q.settings = none) : p.settings = none ∧ q.reader = p.reader := by
  induction es generalizing p with
  | nil =>
    obtain rfl := Except.ok.inj h
    exact ⟨hq, rfl⟩
  | cons e es ih =>
    obtain ⟨r, hstep, hrest⟩ := run_cons h
    obtain ⟨hr, hreader⟩ := ih hrest
    obtain ⟨hp, hreader'⟩ := (takes_of_step hstep).unsettled hr
    exact ⟨hp, hreader.trans hreader'⟩

lemma scope_of_run {es : List Event} (h : es.foldlM (step path) p = .ok q) :
    q.scope = es.foldl Scope.after p.scope := by
  induction es generalizing p with
  | nil =>
    obtain rfl := Except.ok.inj h
    rfl
  | cons e es ih =>
    obtain ⟨r, hstep, hrest⟩ := run_cons h
    rw [ih hrest, (takes_of_step hstep).scope, List.foldl_cons]

/-- The run: the second document after the first one and alone. -/
theorem agrees_run {es : List Event} (hes : ∀ e ∈ es, e.span?.isSome = true) (hp : p.Located)
    (apart : front.settings = none ∨ p.settings = none) :
    Agrees front k (es.foldlM (step path) p)
      ((es.map (Event.shift k)).foldlM (step path) (front.join k p)) := by
  induction es generalizing p with
  | nil => exact .ok apart
  | cons e es ih =>
    obtain ⟨he, hes⟩ := List.forall_mem_cons.mp hes
    have hstep : Agrees front k (p.step path e) ((front.join k p).step path (e.shift k)) :=
      agrees_step hp apart he
    rw [List.map_cons, List.foldlM_cons, List.foldlM_cons]
    generalize hx : p.step path e = alone at hstep ⊢
    generalize (front.join k p).step path (e.shift k) = after at hstep ⊢
    cases hstep with
    | ok apart => exact ih hes ((takes_of_step hx).located hp he) apart
    | error => exact .error
    | @clash r failure first second =>
      -- Settings stay, so the rest of the second document cannot mend the clash.
      change Agrees front k (es.foldlM (step path) r) (.error failure)
      cases hrun : es.foldlM (step path) r with
      | error => exact .error
      | ok q => exact .clash first fun hq => second (unsettled_of_run hrun hq).1

lemma step_finish {span : Option Span} :
    p.step path (.finish span) = .ok q ↔ p.awaiting = .anything ∧ q = p.endRange path span := by
  constructor
  · intro h
    unfold step at h
    cases hp : p.awaiting with
    | anything =>
      rw [hp] at h
      exact ⟨rfl, (Except.ok.inj h).symm⟩
    | settings =>
      rw [hp] at h
      cases h
    | source =>
      rw [hp] at h
      cases h
  · rintro ⟨hp, rfl⟩
    exact step_anything hp _

lemma commands_join (front : Progress) (k : Nat) (p : Progress) :
    (front.join k p).commands = front.ended ++ p.commands.map (Command.shift k) := by
  rw [commands, commands, join, List.map_append, List.append_assoc]
  cases p.current <;> rfl

lemma commands_endRange (span : Option Span) :
    (p.endRange path span).commands = (p.endRange path span).ended := by
  simp [commands]

lemma anything_of_step_heading {span : Option Span} {level : Int} {heading : Heading}
    (h : p.step path (.heading span level heading) = .ok q) : p.awaiting = .anything := by
  unfold step at h
  cases hp : p.awaiting with
  | anything => rfl
  | settings =>
    rw [hp] at h
    cases h
  | source =>
    rw [hp] at h
    cases h

/-! ### Where the second document begins -/

lemma endRange_congr {span span' : Option Span} (h : lineOf span = lineOf span') :
    p.endRange path span = p.endRange path span' := by
  rw [endRange, endRange, h]

lemma endRange_of_none (h : p.current = none) (span : Option Span) : p.endRange path span = p := by
  rw [endRange, h]

/-- A heading of the first level closes all others, so that it finds nothing but settings. -/
lemma step_boundary {r : Progress} {reader : Yaml.Reader} {o : Opening}
    (hanything : r.awaiting = .anything) (hscope : ∀ x ∈ r.scope, 1 ≤ x.1)
    (hreader : r.settings = none → r.reader = reader) (hnested : o.IsNested)
    (hlevel : o.level = 1) :
    r.step path o.event = ((r.endRange path o.span).join k { reader }).step path o.event := by
  set front := (r.endRange path o.span).join k { reader } with hfront
  have hempty : r.scope.after o.event = front.scope.after o.event := by
    have hlineage : r.scope.lineage o.level = [] := by
      rw [Scope.lineage, List.filter_eq_nil_iff]
      intro x hx
      have := hscope x hx
      simp only [decide_eq_true_eq]
      omega
    rw [Scope.after_nested _ hnested, Scope.after_nested _ hnested, Scope.enter, hlineage]
    rfl
  -- But for the open headings, the states are the same after the range of the last command.
  have hsame : { r.endRange path o.span with scope := [] } = front.endRange path o.span := by
    have hread : (if r.settings.isSome then r.reader else reader) = r.reader := by
      cases hs : r.settings with
      | none => exact (hreader hs).symm
      | some => rfl
    rw [endRange_of_none (p := front) rfl, hfront, join, endRange_settings, endRange_reader, hread]
    simp [hanything, Awaiting.shift]
  rw [step_anything hanything, step_anything (p := front) rfl]
  by_cases hplain : o.event.isPlain = true
  · rw [continue_plainHeading hplain, continue_plainHeading hplain, hempty, ← hsame]
  · have hopens := o.opens_of_not_isPlain hplain (Bool.eq_false_iff.mp hnested)
    rw [continue_commandHeading hopens, continue_commandHeading hopens, hempty, ← hsame]

end Progress

/-! ### Documents -/

lemma ofEventsAfter_eq_ok {reader : Yaml.Reader} {path : Text} {events : List Event}
    {catalog : Catalog} : (ofEventsAfter reader path events).1 = .ok catalog ↔
      ∃ q, events.foldlM (Progress.step path) { reader } = .ok q ∧ q.awaiting = .anything ∧
        catalog = ⟨q.settings, q.commands, path⟩ := by
  refine ⟨ofEventsAfter_ok, ?_⟩
  rintro ⟨q, hq, hawaiting, rfl⟩
  rw [ofEventsAfter_eq_bind, hq]
  simp [Except.bind, Progress.catalog, hawaiting, Progress.missing]

/-- The level of a heading of a document is one at least. -/
lemma level_pos {s : Text} {o : Opening} (h : o.event ∈ (blocks s).flatMap Event.ofBlock) :
    1 ≤ o.level := by
  obtain ⟨b, hb, ho⟩ := List.mem_flatMap.mp h
  obtain ⟨first, last, content⟩ := b
  cases content with
  | heading level title =>
    obtain ⟨-, hlevel, -⟩ := Event.heading.inj (List.mem_singleton.mp ho)
    have hpos : 1 ≤ level := by
      cases blocks_headingLines hb rfl with
      | numbered place shape => exact numbered?_pos shape
      | underlined titled place shape => exact underline?_pos shape
    rw [hlevel]
    exact_mod_cast hpos
  | paragraph => cases List.mem_singleton.mp ho
  | code => cases List.mem_singleton.mp ho
  | verbatim => cases ho

lemma foldlM_append_ok {path : Text} {p q : Progress} {es fs : List Event} :
    (es ++ fs).foldlM (Progress.step path) p = .ok q ↔
      ∃ r, es.foldlM (Progress.step path) p = .ok r ∧ fs.foldlM (Progress.step path) r = .ok q := by
  rw [List.foldlM_append]
  cases es.foldlM (Progress.step path) p with
  | error failure =>
    constructor
    · intro h
      cases h
    · rintro ⟨r, hr, -⟩
      cases hr
  | ok r =>
    constructor
    · intro h
      exact ⟨r, rfl, h⟩
    · rintro ⟨r', hr, h⟩
      obtain rfl := Except.ok.inj hr
      exact h

section Documents
variable {reader : Yaml.Reader} {path s t l title : Text}

/-- The line after the document. -/
def lineAfter (s : Text) : Option Span := some (Span.shift (lines s).length ⟨1, 1⟩)

/-- The range of the last command ends where another document would begin. -/
lemma endRange_atEnd {p : Progress}
    (h : ((blocks s).flatMap Event.ofBlock).foldlM (Progress.step path) { reader } = .ok p) :
    p.endRange path (Event.atEnd (lines s).length).span? =
      p.endRange path (lineAfter s) := by
  unfold lineAfter
  cases hlines : lines s with
  | nil =>
    -- Without lines there is no command.
    rw [blocks, hlines] at h
    obtain rfl := Except.ok.inj h
    rfl
  | cons l ls =>
    refine Progress.endRange_congr ?_
    simp only [Event.atEnd, Event.after, Event.span?, lineOf, Span.shift, Option.map_some,
      List.length_cons, Option.some.injEq]
    omega

/-- The first document alone. -/
lemma parseAfter_first {a : Catalog} : (parseAfter reader path s).1 = .ok a ↔
    ∃ p, ((blocks s).flatMap Event.ofBlock).foldlM (Progress.step path) { reader } = .ok p ∧
      p.awaiting = .anything ∧ a = ⟨p.settings, (p.endRange path (lineAfter s)).ended, path⟩ := by
  rw [parseAfter, ofEventsAfter_eq_ok, Event.ofNode_document]
  constructor
  · rintro ⟨q, hq, hawaiting, rfl⟩
    obtain ⟨p, hp, hlast⟩ := foldlM_append_ok.mp hq
    obtain ⟨r, hstep, hr⟩ := Progress.run_cons hlast
    obtain rfl := Except.ok.inj hr
    obtain ⟨hanything, rfl⟩ := Progress.step_finish.mp hstep
    have hend := endRange_atEnd hp
    refine ⟨p, hp, hanything, ?_⟩
    rw [← hend, Progress.endRange_settings, Progress.commands_endRange]
    rfl
  · rintro ⟨p, hp, hanything, rfl⟩
    have hend := endRange_atEnd hp
    have hstep : p.step path (.atEnd (lines s).length) = .ok (p.endRange path (lineAfter s)) := by
      rw [← hend]
      exact Progress.step_finish.mpr ⟨hanything, rfl⟩
    have hlast : [Event.atEnd (lines s).length].foldlM (Progress.step path) p =
        .ok (p.endRange path (lineAfter s)) := by
      rw [List.foldlM_cons, hstep]
      rfl
    refine ⟨p.endRange path (lineAfter s), foldlM_append_ok.mpr ⟨p, hp, hlast⟩, ?_, ?_⟩
    · rw [Progress.endRange_awaiting, hanything]
    · rw [Progress.endRange_settings, Progress.commands_endRange]

lemma events_append (hs : ∀ c ∈ s.getLast?, isLineBreak c = true) (hclosed : FencesClosed s)
    (ht : (lines t).head? = some l) (hl : numbered? l = some (1, title)) :
    Event.ofNode (document (s ++ t)) = (blocks s).flatMap Event.ofBlock ++
      (Event.ofNode (document t)).map (Event.shift (lines s).length) := by
  have hend : Event.atEnd (lines (s ++ t)).length =
      (Event.atEnd (lines t).length).shift (lines s).length := by
    obtain ⟨ms, hlines⟩ := exists_lines ht
    rw [lines_append_numbered hs ht hl, List.length_append, hlines]
    simp only [Event.atEnd, Event.after, Event.shift, Option.map_some, Span.shift,
      List.length_cons, Event.finish.injEq, Option.some.injEq, Span.mk.injEq]
    omega
  rw [Event.ofNode_document, Event.ofNode_document, blocks_append hs hclosed ht hl, hend,
    List.flatMap_append, Event.flatMap_ofBlock_shift, List.map_append, List.append_assoc]
  rfl

lemma events_heading (ht : (lines t).head? = some l) (hl : numbered? l = some (1, title)) :
    ∃ rest, Event.ofNode (document t) = Opening.event
      ⟨some ⟨1, 1⟩, 1, Event.headingOf ((Markdown.inline title).map Node.ofInline)⟩ :: rest := by
  obtain ⟨ms, hlines⟩ := exists_lines ht
  have hbegin : Pending.idle.step (0 + 1) l = _ := begin_numbered hl 1
  rw [Event.ofNode_document, blocks, hlines, readLines, hbegin]
  exact ⟨_, rfl⟩

/-- Where the first document ends, the second one goes on as it does alone. -/
lemma agrees_second {p : Progress} (hp : ((blocks s).flatMap Event.ofBlock).foldlM
      (Progress.step path) { reader } = .ok p) (hanything : p.awaiting = .anything)
    (ht : (lines t).head? = some l) (hl : numbered? l = some (1, title))
    (hconfig :
      (Event.headingOf ((Markdown.inline title).map Node.ofInline)).hasFlag "config" = false) :
    Progress.Agrees (p.endRange path (lineAfter s)) (lines s).length
      ((Event.ofNode (document t)).foldlM (Progress.step path) { reader })
      (((Event.ofNode (document t)).map (Event.shift (lines s).length)).foldlM
        (Progress.step path) p) := by
  set k := (lines s).length
  have hscope : ∀ x ∈ p.scope, 1 ≤ x.1 := by
    intro x hx
    rw [Progress.scope_of_run hp] at hx
    obtain ⟨o, ⟨-, front, back, hevents, -⟩, rfl⟩ := Scope.mem_ofEvents.mp hx
    exact level_pos (hevents ▸ List.mem_append_right front List.mem_cons_self)
  have hreader (hnone : p.settings = none) : p.reader = reader :=
    (Progress.unsettled_of_run hp hnone).2
  obtain ⟨rest, hrest⟩ := events_heading ht hl
  set o : Opening := ⟨some ⟨1, 1⟩, 1, Event.headingOf ((Markdown.inline title).map Node.ofInline)⟩
  have hboundary : p.step path (o.shift k).event =
      ((p.endRange path (lineAfter s)).join k { reader }).step path (o.shift k).event :=
    Progress.step_boundary hanything hscope hreader hconfig rfl
  have hsame : ((o.event :: rest).map (Event.shift k)).foldlM (Progress.step path) p =
      ((o.event :: rest).map (Event.shift k)).foldlM (Progress.step path)
        ((p.endRange path (lineAfter s)).join k { reader }) := by
    rw [List.map_cons, List.foldlM_cons, List.foldlM_cons]
    exact congrArg (· >>= _) hboundary
  have hlocated : ∀ e ∈ Event.ofNode (document t), e.span?.isSome = true :=
    fun e he => Event.span?_of_mem_document he
  have hstart : ({ reader } : Progress).Located := ⟨by simp, by simp [Awaiting.opening?]⟩
  rw [hrest] at hlocated ⊢
  rw [hsame]
  exact Progress.agrees_run hlocated hstart (.inr rfl)

/-- The catalog of two documents, one after the other, where the second one starts with a heading
of the first level that is not for settings. -/
theorem parseAfter_append (reader : Yaml.Reader) (path : Text) {s t l title : Text}
    (hs : ∀ c ∈ s.getLast?, isLineBreak c = true) (hclosed : FencesClosed s)
    (ht : (lines t).head? = some l) (hl : numbered? l = some (1, title))
    (hconfig :
      (Event.headingOf ((Markdown.inline title).map Node.ofInline)).hasFlag "config" = false)
    (catalog : Catalog) :
    (parseAfter reader path (s ++ t)).1 = .ok catalog ↔
      ∃ a b, (parseAfter reader path s).1 = .ok a ∧ (parseAfter reader path t).1 = .ok b ∧
        (a.settings = none ∨ b.settings = none) ∧
        catalog = ⟨a.settings <|> b.settings,
          a.commands ++ b.commands.map (Command.shift (lines s).length), path⟩ := by
  constructor
  · intro h
    rw [parseAfter, ofEventsAfter_eq_ok, events_append hs hclosed ht hl] at h
    obtain ⟨q, hq, hawaiting, rfl⟩ := h
    obtain ⟨p, hp, hsecond⟩ := foldlM_append_ok.mp hq
    have hanything : p.awaiting = .anything := by
      obtain ⟨rest, hrest⟩ := events_heading ht hl
      rw [hrest, List.map_cons] at hsecond
      obtain ⟨r, hstep, -⟩ := Progress.run_cons hsecond
      exact Progress.anything_of_step_heading hstep
    have hagrees := agrees_second hp hanything ht hl hconfig
    rw [hsecond] at hagrees
    generalize halone :
      (Event.ofNode (document t)).foldlM (Progress.step path) { reader } = alone at hagrees
    cases hagrees with
    | @ok r apart =>
      have hr : r.awaiting = .anything := Awaiting.eq_anything hawaiting
      refine ⟨_, _, parseAfter_first.mpr ⟨p, hp, hanything, rfl⟩,
        ofEventsAfter_eq_ok.mpr ⟨r, halone, hr, rfl⟩, ?_, ?_⟩
      · rwa [Progress.endRange_settings] at apart
      · rw [Progress.commands_join, Progress.join, Progress.endRange_settings]
  · rintro ⟨a, b, ha, hb, apart, rfl⟩
    obtain ⟨p, hp, hanything, rfl⟩ := parseAfter_first.mp ha
    obtain ⟨r, hr, hawaiting, rfl⟩ := ofEventsAfter_eq_ok.mp hb
    have hagrees := agrees_second hp hanything ht hl hconfig
    rw [hr] at hagrees
    generalize hafter : ((Event.ofNode (document t)).map (Event.shift (lines s).length)).foldlM
      (Progress.step path) p = after at hagrees
    rw [parseAfter, ofEventsAfter_eq_ok, events_append hs hclosed ht hl]
    cases hagrees with
    | ok =>
      refine ⟨_, foldlM_append_ok.mpr ⟨p, hp, hafter⟩, ?_, ?_⟩
      · rw [Progress.join, hawaiting]
        rfl
      · rw [Progress.commands_join, Progress.join, Progress.endRange_settings]
    | clash first second =>
      rw [Progress.endRange_settings] at first
      exact absurd apart (not_or.mpr ⟨first, second⟩)

end Documents

/-- Headings that stay open, and a paragraph that does. -/
def notebook : Text :=
  unlines ["# Work \x7btype=git\x7d", "### `hello`", "~~~sh", "echo hello", "~~~", "Not more"]

def notebookCatalog : Catalog where
  commands :=
    [{ name := "hello", language := .bash, source := "echo hello\n", types := .ofList ["git"]
       location := some ⟨"notes.md", 2, 6, 3⟩ }]
  path := "notes.md"

def appendix : Text :=
  unlines ["# `bye` #", "~~~", "echo bye", "~~~", "~~~json config"]

def appendixCatalog : Catalog where
  settings := some {}
  commands := [{ name := "bye", source := "echo bye\n", location := some ⟨"notes.md", 1, 5, 1⟩ }]
  path := "notes.md"

theorem parseAfter_appendix :
    (parseAfter {} "notes.md" notebook).1 = .ok notebookCatalog ∧
      (parseAfter {} "notes.md" appendix).1 = .ok appendixCatalog ∧
      (parseAfter {} "notes.md" (notebook ++ appendix)).1 = .ok ⟨some {},
        notebookCatalog.commands ++ appendixCatalog.commands.map (Command.shift 6), "notes.md"⟩ := by
  have first : (parseAfter {} "notes.md" notebook).1 = .ok notebookCatalog := by decide +kernel
  have second : (parseAfter {} "notes.md" appendix).1 = .ok appendixCatalog := by decide +kernel
  have hend : notebook.getLast? = some '\n' := by decide +kernel
  have hlast : ∀ c ∈ notebook.getLast?, isLineBreak c = true := by
    intro c hc
    rw [hend] at hc
    obtain rfl := Option.some.inj hc
    decide
  have hclosed : FencesClosed notebook := by decide +kernel
  have hcount : (lines notebook).length = 6 := by decide +kernel
  have hline : (lines appendix).head? = some "# `bye` #" := by decide +kernel
  have hheading : numbered? "# `bye` #" = some (1, ("`bye`" : Text)) := by decide +kernel
  have hconfig : (Event.headingOf ((Markdown.inline "`bye`").map Node.ofInline)).hasFlag "config" =
      false := by decide +kernel
  refine ⟨first, second, ?_⟩
  have happend := parseAfter_append {} "notes.md" hlast hclosed hline hheading hconfig
  rw [hcount] at happend
  exact (happend _).mpr ⟨notebookCatalog, appendixCatalog, first, second, .inl rfl, rfl⟩

end Catalog
end Runbook
