import Mathlib.Data.List.Induction
import Runbook.Proofs.Catalog.Attribution

/-! The types that a command inherits: those of the headings that are open where it stands. -/
namespace Runbook.Catalog

/-- A heading takes part in the nesting of headings unless it is for settings. -/
def Opening.IsNested (o : Opening) : Prop := o.heading.hasFlag "config" = false

/-- The heading has been met, and all that came after it are deeper. -/
def Opening.IsOpen (o : Opening) (es : List Event) : Prop :=
  o.IsNested ∧ ∃ front back, es = front ++ o.event :: back ∧
    ∀ later : Opening, later.event ∈ back → later.IsNested → o.level < later.level

lemma Opening.event_injective {o o' : Opening} (h : o.event = o'.event) : o = o' := by
  obtain ⟨span, level, heading⟩ := o
  obtain ⟨span', level', heading'⟩ := o'
  obtain ⟨rfl, rfl, rfl⟩ := Event.heading.inj h
  rfl

/-- The step: one more event opens a heading, or keeps open those that are less deep. -/
lemma Opening.isOpen_concat {o : Opening} {es : List Event} {e : Event} :
    o.IsOpen (es ++ [e]) ↔ (o.event = e ∧ o.IsNested) ∨
      (o.IsOpen es ∧ ∀ later : Opening, later.event = e → later.IsNested → o.level < later.level) := by
  constructor
  · rintro ⟨hnested, front, back, hes, hback⟩
    rcases back.eq_nil_or_concat' with rfl | ⟨back, e', rfl⟩
    · obtain ⟨-, he⟩ := List.append_inj' hes rfl
      exact .inl ⟨(List.cons.inj he).1.symm, hnested⟩
    · rw [← List.cons_append, ← List.append_assoc] at hes
      obtain ⟨rfl, he⟩ := List.append_inj' hes rfl
      obtain rfl := (List.cons.inj he).1
      refine .inr ⟨⟨hnested, front, back, rfl, fun later hlater => ?_⟩, fun later hlater => ?_⟩
      · exact hback later (List.mem_append_left _ hlater)
      · exact hback later (by simp [hlater])
  · rintro (⟨rfl, hnested⟩ | ⟨⟨hnested, front, back, rfl, hback⟩, he⟩)
    · exact ⟨hnested, es, [], rfl, by simp⟩
    · refine ⟨hnested, front, back ++ [e], by simp, fun later hlater => ?_⟩
      rcases List.mem_append.mp hlater with hlater | hlater
      · exact hback later hlater
      · exact he later (List.mem_singleton.mp hlater)

lemma Scope.after_nested (scope : Scope) {o : Opening} (h : o.IsNested) :
    scope.after o.event = scope.enter o.level (.ofList (o.heading.valuesOf "type")) := by
  rw [scope.after_event, h]
  rfl

lemma Scope.after_other (scope : Scope) {e : Event} (h : ∀ o : Opening, o.event = e → ¬ o.IsNested) :
    scope.after e = scope := by
  cases e with
  | heading span level heading =>
    let o : Opening := ⟨span, level, heading⟩
    have hconfig : o.heading.hasFlag "config" = true :=
      (Bool.eq_false_or_eq_true _).resolve_right (h o rfl)
    exact (scope.after_event o).trans (if_pos hconfig)
  | source => rfl
  | paragraph => rfl
  | finish => rfl

lemma Scope.ofEvents_concat (es : List Event) (e : Event) :
    Scope.ofEvents (es ++ [e]) = (Scope.ofEvents es).after e := by
  rw [Scope.ofEvents, List.foldl_append]
  rfl

lemma Scope.mem_enter {scope : Scope} {level : Int} {own : Tags} {x : Int × Tags} :
    x ∈ scope.enter level own ↔ (x ∈ scope ∧ x.1 < level) ∨ x = (level, own) := by
  simp [Scope.enter, Scope.lineage]

/-- The headings that are kept as open are those that are open, each with its level and its types. -/
theorem Scope.mem_ofEvents {es : List Event} {x : Int × Tags} :
    x ∈ Scope.ofEvents es ↔
      ∃ o : Opening, o.IsOpen es ∧ x = (o.level, .ofList (o.heading.valuesOf "type")) := by
  -- A heading closes those before it, so the induction is on the end of the list.
  induction es using List.reverseRecOn generalizing x with
  | nil =>
    constructor
    · intro h
      cases h
    · rintro ⟨o, ⟨-, front, back, hnil, -⟩, -⟩
      cases front <;> cases hnil
  | append_singleton es e ih =>
    rw [Scope.ofEvents_concat]
    by_cases he : ∃ o : Opening, o.event = e ∧ o.IsNested
    · obtain ⟨o, rfl, hnested⟩ := he
      rw [Scope.after_nested _ hnested, Scope.mem_enter, ih]
      constructor
      · rintro (⟨⟨outer, houter, rfl⟩, hlt⟩ | rfl)
        · refine ⟨outer, Opening.isOpen_concat.mpr (.inr ⟨houter, fun later h _ => ?_⟩), rfl⟩
          exact Opening.event_injective h ▸ hlt
        · exact ⟨o, Opening.isOpen_concat.mpr (.inl ⟨rfl, hnested⟩), rfl⟩
      · rintro ⟨outer, houter, rfl⟩
        rcases Opening.isOpen_concat.mp houter with ⟨h, -⟩ | ⟨hopen, hlater⟩
        · exact .inr (by rw [Opening.event_injective h])
        · exact .inl ⟨⟨outer, hopen, rfl⟩, hlater o rfl hnested⟩
    · have hother : ∀ o : Opening, o.event = e → ¬ o.IsNested := fun o h hn => he ⟨o, h, hn⟩
      rw [Scope.after_other _ hother, ih]
      refine exists_congr fun o => and_congr_left fun _ => ?_
      rw [Opening.isOpen_concat]
      constructor
      · exact fun h => .inr ⟨h, fun later hl hn => absurd hn (hother later hl)⟩
      · rintro (⟨h, hn⟩ | ⟨h, -⟩)
        · exact absurd hn (hother o h)
        · exact h

/-- The types in force under a heading are its own and those of the open headings above it. -/
lemma Scope.mem_types_after {es : List Event} {o : Opening} (h : o.IsNested) {t : Text} :
    t ∈ ((Scope.ofEvents es).after o.event).types ↔ t ∈ o.heading.valuesOf "type" ∨
      ∃ outer : Opening, outer.IsOpen es ∧ outer.level < o.level ∧
        t ∈ outer.heading.valuesOf "type" := by
  rw [Scope.after_nested _ h, Scope.mem_types]
  constructor
  · rintro ⟨x, hx, ht⟩
    rcases Scope.mem_enter.mp hx with ⟨hmem, hlt⟩ | rfl
    · obtain ⟨outer, houter, rfl⟩ := Scope.mem_ofEvents.mp hmem
      exact .inr ⟨outer, houter, hlt, Tags.mem_ofList.mp ht⟩
    · exact .inl (Tags.mem_ofList.mp ht)
  · rintro (ht | ⟨outer, houter, hlt, ht⟩)
    · exact ⟨_, Scope.mem_enter.mpr (.inr rfl), Tags.mem_ofList.mpr ht⟩
    · have hmem := Scope.mem_ofEvents.mpr ⟨outer, houter, rfl⟩
      exact ⟨_, Scope.mem_enter.mpr (.inl ⟨hmem, hlt⟩), Tags.mem_ofList.mpr ht⟩

lemma Placed.Gives.types {path : Text} {x : Placed} {c : Command} (h : x.Gives path c) :
    c.types = ((Scope.ofEvents x.before).after x.entry.opening.event).types := by
  obtain ⟨made, hmade, rfl⟩ := h
  obtain ⟨name, inHeading, placeholders, hname, rfl⟩ := Opening.command_ok hmade
  unfold Opening.locate
  split <;> rfl

/-- The types of a command are those of its own heading, and those of the headings before it that
are still open and less deep; there are no others. -/
def CommandHeading.GivesTypes (x : CommandHeading) (c : Command) : Prop :=
  ∀ t, t ∈ c.types ↔ t ∈ x.opening.heading.valuesOf "type" ∨
    ∃ outer : Opening, outer.IsOpen x.before ∧ outer.level < x.opening.level ∧
      t ∈ outer.heading.valuesOf "type"

lemma Placed.Gives.givesTypes {path : Text} {x : Placed} {c : Command} (h : x.Gives path c) :
    x.heading.GivesTypes c := by
  intro t
  rw [h.types]
  exact Scope.mem_types_after (x.entry.opening.flags_of_commandHeading? x.entry.opens).2

/-- The commands of a document that is read have the types that the command headings give, one by
one. -/
theorem ofEventsAfter_types (reader : Yaml.Reader) (path : Text) (events : List Event)
    {catalog : Catalog} (h : (ofEventsAfter reader path events).1 = .ok catalog) :
    List.Forall₂ CommandHeading.GivesTypes (commandHeadings [] events) catalog.commands := by
  obtain ⟨⟨entries, rfl⟩, hread⟩ := entries_of_ofEventsAfter h
  rw [commandHeadings_flatMap, List.forall₂_map_left_iff]
  exact (hread entries rfl).1.imp fun x c hx => hx.givesTypes

/-- Headings that skip levels and come back, with settings between them. -/
def workshop : List Event :=
  [.heading none (-1) { name := "All", pairs := [("type", "any")] },
    .heading none 5 { name := "Web", pairs := [("type", "node")] },
    .heading none 3 { name := "Native", pairs := [("type", "rust")] },
    .heading none 2 { name := "Settings", flags := ["config"], pairs := [("type", "git")] },
    .source none .json [] [],
    .heading none 4 { name := "build", flags := ["command"], pairs := [("type", "cargo")] },
    .source none .bash [] "cargo build"]

def workshopCatalog : Catalog where
  settings := some {}
  commands := [{ name := "build", language := .bash, source := "cargo build",
                 types := .ofList ["any", "rust", "cargo"] }]
  path := "notes.md"

theorem ofEventsAfter_workshop :
    (ofEventsAfter {} "notes.md" workshop).1 = .ok workshopCatalog ∧
      List.Forall₂ CommandHeading.GivesTypes (commandHeadings [] workshop)
        workshopCatalog.commands := by
  have read : (ofEventsAfter {} "notes.md" workshop).1 = .ok workshopCatalog := by decide +kernel
  exact ⟨read, ofEventsAfter_types {} "notes.md" workshop read⟩

end Runbook.Catalog
