import Runbook.Proofs.Catalog.Inheritance

/-! Headings close the scopes of those before them that are not less deep. Headings for settings
close none, so that types are left over that are not due. -/
namespace Runbook.Catalog

namespace Opening
variable {o : Opening} {es : List Event}

/-- The heading has been met, and all that came after it are deeper, those for settings included. -/
def StandsOpen (o : Opening) (es : List Event) : Prop :=
  o.IsNested ∧ ∃ front back, es = front ++ o.event :: back ∧
    ∀ later : Opening, later.event ∈ back → o.level < later.level

/-- The heading is open, though a heading for settings came after it that is not deeper. -/
def IsLeftOpen (o : Opening) (es : List Event) : Prop :=
  o.IsNested ∧ ∃ front back, es = front ++ o.event :: back ∧
    (∀ later : Opening, later.event ∈ back → later.IsNested → o.level < later.level) ∧
    ∃ later : Opening, later.event ∈ back ∧ ¬ later.IsNested ∧ later.level ≤ o.level

lemma isOpen_iff : o.IsOpen es ↔ o.StandsOpen es ∨ o.IsLeftOpen es := by
  constructor
  · rintro ⟨hnested, front, back, hes, hback⟩
    by_cases hall : ∀ later : Opening, later.event ∈ back → o.level < later.level
    · exact .inl ⟨hnested, front, back, hes, hall⟩
    · obtain ⟨later, hnot⟩ := not_forall.mp hall
      obtain ⟨hlater, hnot⟩ := Classical.not_imp.mp hnot
      have hsettings : ¬ later.IsNested := fun h => hnot (hback later hlater h)
      have hle : later.level ≤ o.level := Int.not_lt.mp hnot
      exact .inr ⟨hnested, front, back, hes, hback, later, hlater, hsettings, hle⟩
  · rintro (⟨hnested, front, back, hes, hback⟩ | ⟨hnested, front, back, hes, hback, -⟩)
    · exact ⟨hnested, front, back, hes, fun later hlater _ => hback later hlater⟩
    · exact ⟨hnested, front, back, hes, hback⟩

end Opening

namespace CommandHeading

/-- The types that are due to a command: its own, and those of the headings before it that are less
deep, if no heading has closed them. -/
def Due (x : CommandHeading) (t : Text) : Prop :=
  t ∈ x.opening.heading.valuesOf "type" ∨
    ∃ outer : Opening, outer.StandsOpen x.before ∧ outer.level < x.opening.level ∧
      t ∈ outer.heading.valuesOf "type"

/-- The types of headings that a heading for settings should have closed. -/
def LeftOver (x : CommandHeading) (t : Text) : Prop :=
  ∃ outer : Opening, outer.IsLeftOpen x.before ∧ outer.level < x.opening.level ∧
    t ∈ outer.heading.valuesOf "type"

lemma GivesTypes.mem_iff {x : CommandHeading} {c : Command} (h : x.GivesTypes c) (t : Text) :
    t ∈ c.types ↔ x.Due t ∨ x.LeftOver t := by
  rw [h t]
  constructor
  · rintro (hown | ⟨outer, hopen, hrest⟩)
    · exact .inl (.inl hown)
    · exact (Opening.isOpen_iff.mp hopen).imp (fun h => .inr ⟨outer, h, hrest⟩)
        fun h => ⟨outer, h, hrest⟩
  · rintro ((hown | ⟨outer, hopen, hrest⟩) | ⟨outer, hopen, hrest⟩)
    · exact .inl hown
    · exact .inr ⟨outer, Opening.isOpen_iff.mpr (.inl hopen), hrest⟩
    · exact .inr ⟨outer, Opening.isOpen_iff.mpr (.inr hopen), hrest⟩

/-- A command has the types that are due to it and those that are left over. It has only what is due
exactly if nothing else is left over. -/
def GivesLeftOver (x : CommandHeading) (c : Command) : Prop :=
  (∀ t, t ∈ c.types ↔ x.Due t ∨ x.LeftOver t) ∧
    ((∀ t ∈ c.types, x.Due t) ↔ ∀ t, x.LeftOver t → x.Due t)

end CommandHeading

/-- The commands of a document that is read have the types that are due to them and those that the
headings for settings leave over. -/
theorem ofEventsAfter_leftOver (reader : Yaml.Reader) (path : Text) (events : List Event)
    {catalog : Catalog} (h : (ofEventsAfter reader path events).1 = .ok catalog) :
    List.Forall₂ CommandHeading.GivesLeftOver (commandHeadings [] events) catalog.commands := by
  obtain ⟨⟨entries, rfl⟩, hread⟩ := entries_of_ofEventsAfter h
  rw [commandHeadings_flatMap, List.forall₂_map_left_iff]
  refine (hread entries rfl).1.imp fun x c hx => ?_
  have hmem := hx.givesTypes.mem_iff
  refine ⟨hmem, fun hdue t hleft => hdue t ((hmem t).mpr (.inr hleft)), fun hdue t ht => ?_⟩
  exact ((hmem t).mp ht).elim id (hdue t)

/-- A heading for settings between a heading with a type and a command that is not under it. -/
def workbench : List Event :=
  [.heading none 1 { name := "Web", pairs := [("type", "node")] },
    .heading none 1 { name := "Settings", flags := ["config"] },
    .source none .json [] [],
    .heading none 2 { name := "build", flags := ["command"] },
    .source none .bash [] "make"]

def workbenchCatalog : Catalog where
  settings := some {}
  commands := [{ name := "build", language := .bash, source := "make", types := .ofList ["node"] }]
  path := "notes.md"

theorem ofEventsAfter_workbench :
    (ofEventsAfter {} "notes.md" workbench).1 = .ok workbenchCatalog ∧
      List.Forall₂ CommandHeading.GivesLeftOver (commandHeadings [] workbench)
        workbenchCatalog.commands := by
  have read : (ofEventsAfter {} "notes.md" workbench).1 = .ok workbenchCatalog := by decide +kernel
  exact ⟨read, ofEventsAfter_leftOver {} "notes.md" workbench read⟩

/-- The command has the type all the same, though it is not due. -/
theorem ofEventsAfter_undue :
    (ofEventsAfter {} "notes.md" workbench).1 = .ok workbenchCatalog ∧
      ¬ List.Forall₂ (fun x c => ∀ t ∈ c.types, x.Due t)
        (commandHeadings [] workbench) workbenchCatalog.commands := by
  refine ⟨by decide +kernel, fun h => ?_⟩
  obtain ⟨hdue, -⟩ := List.forall₂_cons.mp h
  let web : Opening := ⟨none, 1, { name := "Web", pairs := [("type", "node")] }⟩
  let settings : Opening := ⟨none, 1, { name := "Settings", flags := ["config"] }⟩
  rcases hdue "node" (by decide +kernel) with hown | ⟨outer, ⟨-, front, back, hes, hback⟩, -, htype⟩
  · cases hown
  · rcases front with _ | ⟨first, _ | ⟨second, _ | ⟨third, front⟩⟩⟩
    · obtain ⟨hweb, rfl⟩ := List.cons.inj hes
      obtain rfl : web = outer := Opening.event_injective hweb
      exact absurd (hback settings (List.mem_cons_self ..)) (by decide)
    · obtain ⟨hsettings, -⟩ := List.cons.inj (List.cons.inj hes).2
      obtain rfl : settings = outer := Opening.event_injective hsettings
      exact absurd htype (by decide)
    · cases (List.cons.inj (List.cons.inj (List.cons.inj hes).2).2).1
    · have hlength := congrArg List.length hes
      simp at hlength

end Runbook.Catalog
