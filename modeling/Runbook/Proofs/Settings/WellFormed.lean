import Mathlib.Data.List.TakeWhile
import Mathlib.Tactic.Common
import Runbook.Proofs.Catalog.Content
import Runbook.Proofs.Placeholder.Canonical
import Runbook.Proofs.Placeholder.Soundness
import Runbook.Proofs.Settings.Precedence

/-! Commands are well formed whichever way they are declared, under a heading or among the settings.
Only a heading without a word in it can leave one without a name. -/
namespace Runbook
open Text

/-! ### Placeholders -/

namespace Placeholder

/-- A placeholder that names a command, with a name for its variable if it sets one, and with some
numbers if it takes fields. -/
structure WellFormed (p : Placeholder) : Prop where
  named : p.name ≠ []
  assigned : ∀ v, p.target = .environment v → v ≠ [] ∧ '-' ∉ v
  fields : ∀ ns, p.format = .fields ns → ns ≠ []

lemma Numbers.values_ne_nil (n : Numbers) : n.values ≠ [] := List.cons_ne_nil _ _

lemma Shorthand.fields_ne_nil {s : Shorthand} {ns : List Nat}
    (h : Modifier.format (.fields ns) ∈ s.modifiers) : ns ≠ [] := by
  cases s with
  | fields n multi =>
    rcases List.mem_cons.mp h with h | h
    · cases h
      exact n.values_ne_nil
    · cases multi <;> simp at h
  | several n =>
    cases n with
    | none => simp [modifiers] at h
    | some n =>
      obtain rfl : ns = n.values := by simpa [modifiers] using h
      exact n.values_ne_nil

lemma Phrase.fields_ne_nil {ph : Phrase} {ns : List Nat}
    (h : ph.modifier = .format (.fields ns)) : ns ≠ [] := by
  cases ph with
  | fields gap n =>
    cases h
    exact n.values_ne_nil
  | _ => cases h

namespace Written

lemma fields_ne_nil {w : Written} {ns : List Nat}
    (h : Modifier.format (.fields ns) ∈ w.modifiers) : ns ≠ [] := by
  rcases List.mem_append.mp h with h | h
  · cases hs : w.shorthand with
    | none => simp [headModifiers, hs] at h
    | some s =>
      rw [headModifiers, hs] at h
      exact Shorthand.fields_ne_nil h
  · obtain ⟨l, -, hl⟩ := List.mem_map.mp h
    exact Phrase.fields_ne_nil hl

lemma hyphenless (s : Text) : '-' ∉ s.map fun c => if c = '-' then '_' else c := by
  intro h
  obtain ⟨c, -, hc⟩ := List.mem_map.mp h
  split at hc
  · cases hc
  · next hne => exact hne hc

/-- What is written is well formed. -/
theorem wellFormed (w : Written) : w.placeholder.WellFormed where
  named := w.named
  assigned v h := by
    change w.target = _ at h
    unfold target at h
    split at h
    · cases h
    · cases h
    · cases h
      exact ⟨by simpa using w.named, hyphenless _⟩
    · next given hgiven _ =>
      cases h
      exact ⟨by simpa using hgiven, hyphenless _⟩
  fields ns h := by
    change w.formats.head?.getD .lines = _ at h
    cases hformats : w.formats with
    | nil => rw [hformats] at h; cases h
    | cons f fs =>
      rw [hformats] at h
      obtain rfl : f = .fields ns := h
      have hmem : Format.fields ns ∈ w.formats := hformats ▸ List.mem_cons_self
      obtain ⟨m, hm, hformat⟩ := List.mem_filterMap.mp hmem
      cases m with
      | format f => exact fields_ne_nil (Option.some.inj hformat ▸ hm)
      | _ => cases hformat

end Written

lemma wellFormed_of_read? {s r : Text} {p : Placeholder} (h : read? s = some (.ok (p, r))) :
    p.WellFormed := by
  obtain ⟨o, rest, -, -, t, -, w, -, rfl, -⟩ := read?_sound h
  exact w.wellFormed

theorem wellFormed_of_scan {s : Text} {ps : List Placeholder} (h : scan s = .ok ps) :
    ∀ p ∈ ps, p.WellFormed := by
  fun_induction scan s generalizing ps with
  | case1 =>
    obtain rfl := Except.ok.inj h
    simp
  | case2 c t hnone ih => exact ih h
  | case3 c t e herror => cases h
  | case4 c t p rest hread hlt qs hqs ih =>
    obtain rfl := Except.ok.inj h
    exact List.forall_mem_cons.mpr ⟨wellFormed_of_read? hread, ih hqs⟩
  | case5 c t p rest hread hlt e herror ih => cases h

lemma firstWord_eq_nil (s : Text) :
    (trimStart s).takeWhile (!isBlank ·) = [] ↔ isBlankText s = true := by
  have hclear : Clear isBlank (trimStart s) := clear_dropWhile isBlank s
  have hblank : trimStart s = [] ↔ isBlankText s = true := by
    simp [trimStart, isBlankText, List.dropWhile_eq_nil_iff]
  rw [← hblank]
  cases h : trimStart s with
  | nil => simp
  | cons c t =>
    have hc : isBlank c = false := clear_cons.mp (h ▸ hclear)
    simp [hc]

/-- A name is the first word; it has nothing of what counts as white space, and is empty if there is
no word. -/
theorem splitName_ok {s name : Text} {ps : List Placeholder} (h : splitName s = .ok (name, ps)) :
    name.all (!isBlank ·) = true ∧ (name = [] ↔ isBlankText s = true) ∧ ∀ p ∈ ps, p.WellFormed := by
  unfold splitName at h
  dsimp only at h
  split at h
  · next qs hscan =>
    obtain ⟨rfl, rfl⟩ := Prod.mk.inj (Except.ok.inj h)
    exact ⟨List.all_takeWhile, firstWord_eq_nil s, wellFormed_of_scan hscan⟩
  · cases h

end Placeholder

/-! ### Lists side by side -/

section Lists
variable {α β γ : Type} {R S : α → β → Prop} {xs : List α} {ys : List β}

lemma forall₂_of_mem (h : List.Forall₂ R xs ys) (hRS : ∀ x ∈ xs, ∀ y, R x y → S x y) :
    List.Forall₂ S xs ys := by
  induction h with
  | nil => exact .nil
  | cons hxy _ ih =>
    obtain ⟨hx, hxs⟩ := List.forall_mem_cons.mp hRS
    exact .cons (hx _ hxy) (ih hxs)

lemma forall_of_forall₂ {Q : β → Prop} (h : List.Forall₂ (fun _ y => Q y) xs ys) :
    ∀ y ∈ ys, Q y := by
  induction h with
  | nil => simp
  | cons hy _ ih => exact List.forall_mem_cons.mpr ⟨hy, ih⟩

lemma exists_iff_of_forall₂ {P : α → Prop} {Q : β → Prop}
    (h : List.Forall₂ (fun x y => P x ↔ Q y) xs ys) : (∃ y ∈ ys, Q y) ↔ ∃ x ∈ xs, P x := by
  induction h with
  | nil => simp
  | cons hxy _ ih => simp only [List.exists_mem_cons_iff, hxy, ih]

lemma forall₂_trans {T : β → γ → Prop} {U : α → γ → Prop} {zs : List γ}
    (hxy : List.Forall₂ R xs ys) (hyz : List.Forall₂ T ys zs)
    (hU : ∀ x y z, R x y → T y z → U x z) : List.Forall₂ U xs zs := by
  induction hxy generalizing zs with
  | nil =>
    cases hyz
    exact .nil
  | cons hx _ ih =>
    cases hyz with
    | cons hz hzs => exact .cons (hU _ _ _ hx hz) (ih hzs)

end Lists

/-! ### Commands -/

/-- The name of a command is unbroken and tells whether it is hidden, and its source is empty or
ends a line. -/
structure Command.WellFormed (c : Command) : Prop where
  unbroken : c.name.all (!isBlank ·) = true
  hidden : c.hidden = true ↔ c.name.head? = some '_'
  source : c.source = [] ∨ c.source.getLast? = some '\n'
  placeholders : ∀ p ∈ c.placeholders, p.WellFormed

/-- A command among the settings has a name besides. -/
lemma CommandEntry.command_wellFormed {e : CommandEntry} {origin : Text} {c : Command}
    (h : e.command origin = .ok c) : c.WellFormed ∧ c.name ≠ [] := by
  unfold command at h
  split at h
  · cases h
  · cases h
  · next name ps hname =>
    obtain ⟨hunbroken, -, hps⟩ := Placeholder.splitName_ok hname
    split at h
    · cases h
    · next hne =>
      obtain rfl := Except.ok.inj h
      have hsource : (endLine e.source).getLast? = some '\n' := by
        unfold endLine
        split
        · assumption
        · simp
      exact ⟨⟨hunbroken, by simp [isHiddenName], .inr hsource, hps⟩, by simpa using hne⟩

namespace Catalog
open Markdown

lemma unlines_ends (ls : List Text) : unlines ls = [] ∨ (unlines ls).getLast? = some '\n' := by
  rcases List.eq_nil_or_concat ls with rfl | ⟨ls, l, rfl⟩
  · exact .inl rfl
  · right
    simp [unlines]

lemma Opening.command_wellFormed {o : Opening} {path : Text} {types : Tags}
    {description : Option Text} {language : Language} {words : List Text} {source : Text}
    {c : Command} (hsource : source = [] ∨ source.getLast? = some '\n')
    (h : o.command path types description language words source = .ok c) :
    c.WellFormed ∧ (c.name = [] ↔ isBlankText o.heading.name = true) := by
  unfold Opening.command at h
  dsimp only at h
  split at h
  · cases h
  · next name inHeading hname =>
    obtain ⟨hunbroken, hempty, hheading⟩ := Placeholder.splitName_ok hname
    split at h
    · cases h
    · next inSource hscan =>
      split at h
      · cases h
      · obtain rfl := Except.ok.inj h
        refine ⟨⟨hunbroken, by simp [isHiddenName], hsource, ?_⟩, hempty⟩
        split
        · exact Placeholder.wellFormed_of_scan hscan
        · exact hheading

lemma Placed.Gives.wellFormed {path : Text} {x : Placed} {c : Command} (h : x.Gives path c)
    (hsource : x.entry.block.text = [] ∨ x.entry.block.text.getLast? = some '\n') :
    c.WellFormed ∧ (c.name = [] ↔ isBlankText x.entry.opening.heading.name = true) := by
  obtain ⟨made, hmade, rfl⟩ := h
  obtain ⟨hformed, hname⟩ := Opening.command_wellFormed hsource hmade
  unfold Opening.locate
  split
  · exact ⟨hformed, hname⟩
  · exact ⟨⟨hformed.unbroken, hformed.hidden, hformed.source, hformed.placeholders⟩, hname⟩

/-- Code ends with a line, where it is not empty. -/
lemma source_ends {s text : Text} {span : Option Span} {language : Language} {words : List Text}
    (h : Event.source span language words text ∈ Event.ofNode (document s)) :
    text = [] ∨ text.getLast? = some '\n' := by
  obtain ⟨-, ls, rfl, -⟩ := Event.document_has .trivial trivial h
  exact unlines_ends ls

/-- The headings of commands in a document. -/
def commandOpenings (s : Text) : List Opening :=
  (Event.ofNode (document s)).filterMap Event.commandHeading?

variable {reader : Yaml.Reader} {path s : Text} {catalog : Catalog}

/-- The commands of a document are those of its command headings, in their order. -/
lemma exists_placed (h : (parseAfter reader path s).1 = .ok catalog) :
    ∃ placed : List Placed, placed.map (·.entry.opening) = commandOpenings s ∧
      (∀ x ∈ placed, x.entry.block.event ∈ Event.ofNode (document s)) ∧
      List.Forall₂ (Placed.Gives path) placed catalog.commands := by
  obtain ⟨⟨entries, hevents⟩, hread⟩ := entries_of_ofEventsAfter h
  refine ⟨Entry.placed [] entries, ?_, fun x hx => ?_, (hread entries hevents).1⟩
  · rw [commandOpenings, hevents, ← map_commandHeadings [], commandHeadings_flatMap, List.map_map]
    rfl
  · have hcommand : x.entry ∈ entries.filterMap Entry.command? :=
      Entry.map_placed [] entries ▸ List.mem_map_of_mem hx
    obtain ⟨e, he, hx⟩ := List.mem_filterMap.mp hcommand
    rw [hevents]
    refine List.mem_flatMap.mpr ⟨e, he, ?_⟩
    cases e with
    | command c =>
      obtain rfl := Option.some.inj hx
      simp [Entry.events, CommandParts.body]
    | _ => cases hx

/-- Commands under headings are well formed but for their names, which are empty where the headings
are blank. -/
theorem parseAfter_wellFormed (h : (parseAfter reader path s).1 = .ok catalog) :
    (∀ c ∈ catalog.commands, c.WellFormed) ∧
      ((∃ c ∈ catalog.commands, c.name = []) ↔
        ∃ o ∈ commandOpenings s, isBlankText o.heading.name = true) := by
  obtain ⟨placed, hopenings, hsources, hgives⟩ := exists_placed h
  have hformed : List.Forall₂ (fun x c => Command.WellFormed c ∧
      (isBlankText x.entry.opening.heading.name = true ↔ c.name = [])) placed catalog.commands :=
    forall₂_of_mem hgives fun x hx c hc =>
      (hc.wellFormed (source_ends (hsources x hx))).imp_right Iff.symm
  refine ⟨forall_of_forall₂ (hformed.imp fun _ _ hc => hc.1), ?_⟩
  rw [exists_iff_of_forall₂ (hformed.imp fun _ _ hc => hc.2), ← hopenings]
  simp only [List.mem_map, exists_exists_and_eq_and]

end Catalog

/-- The commands of a document, those among its settings included. -/
lemma Catalog.Declares.wellFormed {reader : Yaml.Reader} {path s : Text} {catalog : Catalog}
    {cs : List Command} (h : catalog.Declares cs)
    (read : (Catalog.parseAfter reader path s).1 = .ok catalog) :
    (∀ c ∈ cs, c.WellFormed) ∧
      ((∃ c ∈ cs, c.name = []) ↔
        ∃ o ∈ commandOpenings s, isBlankText o.heading.name = true) := by
  obtain ⟨entries, rfl, hentries⟩ := h
  obtain ⟨hcommands, hblank⟩ := parseAfter_wellFormed read
  have hdeclared : ∀ c ∈ entries, c.WellFormed ∧ c.name ≠ [] :=
    forall_of_forall₂ (hentries.imp fun _ _ hc => CommandEntry.command_wellFormed hc)
  refine ⟨List.forall_mem_append.mpr ⟨hcommands, fun c hc => (hdeclared c hc).1⟩, ?_⟩
  rw [← hblank]
  constructor
  · rintro ⟨c, hc, hname⟩
    rcases List.mem_append.mp hc with hc | hc
    · exact ⟨c, hc, hname⟩
    · exact absurd hname (hdeclared c hc).2
  · rintro ⟨c, hc, hname⟩
    exact ⟨c, List.mem_append_left entries hc, hname⟩

/-- Every command of a configuration is well formed, be it declared under a heading of one of the
documents or among the settings of one. It has a name unless it stands under a heading without a
word, and if there is such a heading there is such a command. -/
theorem merge_wellFormed {documents : List (Text × Text)} {catalogs : List Catalog}
    {overrides : Option Settings} {config : Config}
    (read : List.Forall₂ (fun d c => ∃ reader, (Catalog.parseAfter reader d.1 d.2).1 = .ok c)
      documents catalogs)
    (merged : Config.merge catalogs overrides = .ok config) :
    (∀ c ∈ config.commands, c.WellFormed) ∧
      ((∃ c ∈ config.commands, c.name = []) ↔
        ∃ d ∈ documents, ∃ o ∈ Catalog.commandOpenings d.2, isBlankText o.heading.name = true) := by
  obtain ⟨declared, hdeclared, rfl⟩ := Config.merge_ok merged
  have hformed : List.Forall₂ (fun (d : Text × Text) (cs : List Command) =>
      (∀ c ∈ cs, c.WellFormed) ∧ ((∃ c ∈ cs, c.name = []) ↔
        ∃ o ∈ Catalog.commandOpenings d.2, isBlankText o.heading.name = true)) documents declared :=
    forall₂_trans read hdeclared fun _ _ _ ⟨_, hread⟩ hcs => hcs.wellFormed hread
  have hall := forall_of_forall₂ (hformed.imp fun _ _ hcs => hcs.1)
  have hblank := exists_iff_of_forall₂ (hformed.imp fun _ _ hcs => hcs.2.symm)
  constructor
  · intro c hc
    obtain ⟨cs, hcs, hc⟩ := List.mem_flatten.mp hc
    exact hall cs (List.mem_reverse.mp hcs) c hc
  · rw [← hblank]
    simp only [List.mem_flatten, List.mem_reverse]
    exact ⟨fun ⟨c, ⟨cs, hcs, hc⟩, hname⟩ => ⟨cs, hcs, c, hc, hname⟩,
      fun ⟨cs, hcs, c, hc, hname⟩ => ⟨c, ⟨cs, hcs, hc⟩, hname⟩⟩

/-- Settings with a command that sets a variable. -/
def listing : Text :=
  "\x7b\"commands\":[\x7b\"name\":\"ls =\x7ba-b\x7d\",\"source\":\"ls\"\x7d]\x7d"

/-- The same after a hidden command. -/
def picking : Text :=
  Text.unlines ["# `_all`", "~~~", "sort", "~~~", "~~~json config", listing, "~~~"]

def pickingCatalog : Catalog where
  settings := some { commands := [{ name := "ls =\x7ba-b\x7d", source := "ls" }] }
  commands :=
    [{ name := "_all", source := "sort\n", hidden := true, location := some ⟨"m.md", 1, 7, 1⟩ }]
  path := "m.md"

def pickingConfig : Config where
  projectTypes := ProjectType.standard
  commands := pickingCatalog.commands ++
    [{ name := "ls", language := .bash, source := "ls\n"
       placeholders := [{ target := .environment "a_b", name := "a-b" }] }]
  sources := ["m.md"]

namespace Catalog

lemma parseAfter_picking : (parseAfter {} "m.md" picking).1 = .ok pickingCatalog := by
  decide +kernel

end Catalog

theorem merge_wellFormed_picking :
    (Catalog.parseAfter {} "m.md" picking).1 = .ok pickingCatalog ∧
      Config.merge [pickingCatalog] none = .ok pickingConfig ∧
      (∀ c ∈ pickingConfig.commands, c.WellFormed) ∧
      ∀ o ∈ Catalog.commandOpenings picking, isBlankText o.heading.name = false := by
  have merged : Config.merge [pickingCatalog] none = .ok pickingConfig := by decide +kernel
  have read : List.Forall₂ (fun d c => ∃ reader, (Catalog.parseAfter reader d.1 d.2).1 = .ok c)
      [(("m.md" : Text), picking)] [pickingCatalog] := .cons ⟨{}, Catalog.parseAfter_picking⟩ .nil
  have named : ¬ ∃ c ∈ pickingConfig.commands, c.name = [] := by decide +kernel
  obtain ⟨formed, blank⟩ := merge_wellFormed read merged
  refine ⟨Catalog.parseAfter_picking, merged, formed, fun o ho => ?_⟩
  exact Bool.eq_false_iff.mpr fun h =>
    named (blank.mpr ⟨_, List.mem_singleton_self _, o, ho, h⟩)

/-- A heading of a command without a word in it. -/
def untitled : Text := Text.unlines ["# \x7b.command\x7d", "~~~bash", "true", "~~~"]

/-- The command under it has no name. -/
theorem merge_nameless : ∃ catalog config, (Catalog.parseAfter {} "m.md" untitled).1 = .ok catalog ∧
    Config.merge [catalog] none = .ok config ∧ ∃ c ∈ config.commands, c.name = [] := by
  let c : Command :=
    { name := [], language := .bash, source := "true\n", location := some ⟨"m.md", 1, 4, 1⟩ }
  have read : (Catalog.parseAfter {} "m.md" untitled).1 = .ok ⟨none, [c], "m.md"⟩ := by
    decide +kernel
  have merged : Config.merge [⟨none, [c], "m.md"⟩] none =
      .ok { projectTypes := ProjectType.standard, commands := [c], sources := ["m.md"] } := by
    decide +kernel
  exact ⟨_, _, read, merged, c, List.mem_singleton_self c, rfl⟩

end Runbook
