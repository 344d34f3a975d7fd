import Mathlib.Tactic.Common
import Runbook.Proofs.Resolution.Dialogue
import Runbook.Proofs.Settings.WellFormed
import Runbook.Session.Choice

/-! A command that is picked from the menu and one that is named. The menu lists the first commands
of their names without the hidden ones, and a name is looked up among all; both find the same
command, since the name alone tells whether a command is hidden. -/
namespace Runbook
open Resolution

namespace Index
variable {cs : List Command} {name : Text}

/-- What is left of the names when those that are taken and those that come again are dropped. -/
lemma map_name_firsts (taken : List Text) (cs : List Command) :
    (firsts taken cs).map Command.name =
      ((cs.map Command.name).filter (!taken.contains ·)).eraseDups := by
  induction cs generalizing taken with
  | nil => rfl
  | cons c cs ih =>
    rw [firsts, List.map_cons]
    split
    · next htaken =>
      rw [List.filter_cons_of_neg (by simpa using htaken), ih]
    · next hfree =>
      have hrest : (cs.map Command.name).filter (!(c.name :: taken).contains ·) =
          ((cs.map Command.name).filter (!taken.contains ·)).filter (!· == c.name) := by
        rw [List.filter_filter]
        refine List.filter_congr fun name _ => ?_
        rw [List.contains_cons, Bool.not_or]
      rw [List.filter_cons_of_pos (by simpa using hfree), List.eraseDups_cons, List.map_cons, ih,
        hrest]

theorem names_ofList (cs : List Command) :
    (ofList cs).names = (cs.map Command.name).eraseDups := by
  have hall : (cs.map Command.name).filter (!([] : List Text).contains ·) = cs.map Command.name :=
    List.filter_eq_self.mpr fun _ _ => rfl
  rw [names, ofList, map_name_firsts, hall]

lemma exists_find?_of_mem (h : name ∈ cs.map Command.name) : ∃ c, find? cs name = some c := by
  obtain ⟨c, hc, rfl⟩ := List.mem_map.mp h
  exact Option.isSome_iff_exists.mp (List.find?_isSome.mpr ⟨c, hc, by simp⟩)

lemma name_of_find? {c : Command} (h : find? cs name = some c) : c.name = name := by
  simpa using List.find?_some h

/-- Where no command of a name is hidden, the first one is found without those that are. -/
lemma find?_visible (h : ∀ c ∈ cs, c.name = name → c.hidden = false) :
    find? (cs.filter (!·.hidden)) name = find? cs name := by
  induction cs with
  | nil => rfl
  | cons c cs ih =>
    obtain ⟨hc, hcs⟩ := List.forall_mem_cons.mp h
    by_cases hname : c.name = name
    · have hfound (ds : List Command) : find? (c :: ds) name = some c :=
        List.find?_cons_of_pos (by simpa using hname)
      rw [List.filter_cons_of_pos (by simp [hc hname]), hfound, hfound]
    · have hskip (ds : List Command) : find? (c :: ds) name = find? ds name :=
        List.find?_cons_of_neg (by simpa using hname)
      rw [hskip, ← ih hcs, List.filter_cons]
      split
      · exact hskip _
      · rfl

end Index

/-- The name of a command tells whether it is hidden. -/
def HiddenByName (cs : List Command) : Prop := ∀ c ∈ cs, c.hidden = isHiddenName c.name

/-- The commands of a configuration that is made of documents are hidden by name. -/
lemma hiddenByName_of_merge {documents : List (Text × Text)} {catalogs : List Catalog}
    {overrides : Option Settings} {config : Config}
    (read : List.Forall₂ (fun d c => ∃ reader, (Catalog.parseAfter reader d.1 d.2).1 = .ok c)
      documents catalogs)
    (merged : Config.merge catalogs overrides = .ok config) : HiddenByName config.commands := by
  obtain ⟨declared, hdeclared, rfl⟩ := Config.merge_ok merged
  have hformed : List.Forall₂ (fun (_ : Text × Text) (cs : List Command) =>
      ∀ c ∈ cs, c.WellFormed) documents declared :=
    forall₂_trans read hdeclared fun _ _ _ ⟨_, hread⟩ hcs => (hcs.wellFormed hread).1
  intro c hc
  obtain ⟨cs, hcs, hc⟩ := List.mem_flatten.mp hc
  have hhidden := (forall_of_forall₂ hformed cs (List.mem_reverse.mp hcs) c hc).hidden
  rw [Bool.eq_iff_iff, hhidden]
  simp [isHiddenName]

namespace Choice

/-- The entries of the menu of the commands that are offered in a project. -/
def entries (p : Project) (cs : List Command) : List Candidate :=
  (Index.ofList (p.offered cs)).commands.map Command.candidate

/-- The question for one of them. -/
abbrev asked (o : SelectionOptions) (p : Project) (cs : List Command) (query : Option Text) :
    Question :=
  .selection { o with query, prompt := some "command" } (entries p cs)

/-- A selector answers with values of entries that it was given, and its failures are its own. -/
def Honest : (q : Question) → Asking.Answer q → Prop
  | .selection _ cs, .ok (.chosen values) => ∀ v ∈ values, v ∈ cs.map Candidate.value
  | .selection .., .error e => e ≠ .unofferedChoice
  | _, _ => True

variable {o : SelectionOptions} {p : Project} {cs : List Command} {query : Option Text}
  {name : Text}

lemma values_entries (p : Project) (cs : List Command) :
    (entries p cs).map Candidate.value = ((p.offered cs).map Command.name).eraseDups := by
  rw [← Index.names_ofList, entries, List.map_map]
  rfl

lemma nodup_values (p : Project) (cs : List Command) :
    ((entries p cs).map Candidate.value).Nodup := by
  rw [entries, List.map_map]
  exact (Index.ofList (p.offered cs)).distinct

lemma mem_values : name ∈ (entries p cs).map Candidate.value ↔
    name ∈ (p.offered cs).map Command.name := by
  rw [values_entries, List.mem_eraseDups]

lemma exists_find?_of_mem_values (h : name ∈ (entries p cs).map Candidate.value) :
    ∃ c, Index.find? (p.offered cs) name = some c :=
  Index.exists_find?_of_mem (mem_values.mp h)

/-- A name on the menu is that of a command that is not hidden. -/
lemma isHiddenName_of_mem_values (hcs : HiddenByName cs)
    (h : name ∈ (entries p cs).map Candidate.value) : isHiddenName name = false := by
  obtain ⟨c, hc, rfl⟩ := List.mem_map.mp (mem_values.mp h)
  obtain ⟨husable, hvisible⟩ := List.mem_filter.mp hc
  rw [← hcs c (List.mem_of_mem_filter husable)]
  simpa using hvisible

/-- What is on the menu under a name is what bears it in the project. -/
lemma find?_offered (hcs : HiddenByName cs) (h : isHiddenName name = false) :
    Index.find? (p.offered cs) name = Index.find? (p.usable cs) name := by
  refine Index.find?_visible fun c hc hname => ?_
  rw [hcs c (List.mem_of_mem_filter hc), hname, h]

/-! ### By name -/

lemma named?_eq (hname : name ≠ []) :
    named? p cs (some name) = Index.find? (p.usable cs) name := by
  rw [named?, Option.filter_some_pos (by simpa using hname), Option.bind_some, Index.get?_ofList]

lemma command_of_find? {c : Command} (hname : name ≠ [])
    (h : Index.find? (p.usable cs) name = some c) : command o p cs (some name) = .done c := by
  rw [command, named?_eq hname, h]

/-! ### From the menu -/

/-- What comes of a selection. -/
def ofSelection (p : Project) (cs : List Command) : Selection → Course Command
  | .chosen (v :: _) => known (Index.find? (p.offered cs) v)
  | .chosen [] => .fail (.emptySelection (.thing "command"))
  | .empty => .fail (.emptySelection (.thing "command"))
  | .cancelled => .fail (.cancelledSelection (.thing "command"))

/-- The menu is one question, unless nothing is offered. -/
lemma offeredCommand_eq (o : SelectionOptions) (p : Project) (cs : List Command)
    (query : Option Text) :
    offeredCommand o p cs query =
      if (entries p cs).isEmpty then .fail (.noCommands p.path.toText)
      else .ask (asked o p cs query) fun a => (Dialogue.ofExcept a).bind (ofSelection p cs) := by
  rw [offeredCommand, entries, List.isEmpty_map]
  split
  · rfl
  · change Dialogue.ask _ _ = Dialogue.ask _ _
    congr 1
    funext a
    rcases a with e | (_ | v) | _ | _
    · rfl
    · rfl
    · change known ((Index.ofList (p.offered cs)).get? v) = known _
      rw [Index.get?_ofList]
    · rfl
    · rfl

lemma offeredCommand_ends {c : Command} (h : Index.find? (p.offered cs) name = some c)
    (hname : name ∈ (entries p cs).map Candidate.value) (more : List Text) :
    (offeredCommand o p cs query).Ends
      [⟨asked o p cs query, Except.ok (Selection.chosen (name :: more))⟩] (.ok c) := by
  have hentries : ¬ (entries p cs).isEmpty = true := fun hempty => by
    rw [List.isEmpty_iff.mp hempty] at hname
    cases hname
  rw [offeredCommand_eq, if_neg hentries]
  refine .ask ?_
  change (known (Index.find? (p.offered cs) name)).Ends [] (.ok c)
  rw [h]
  exact .done c

lemma known_honest {c? : Option Command} {log : List (Exchanged Question)}
    {r : Except Failure Command} (hknown : ∃ c, c? = some c) (h : (known c?).Ends log r) :
    r ≠ .error .unofferedChoice := by
  obtain ⟨c, rfl⟩ := hknown
  cases h
  simp

/-- Where values of entries are answered, every one of them is known. -/
lemma offeredCommand_honest {log : List (Exchanged Question)} {r : Except Failure Command}
    (h : (offeredCommand o p cs query).Ends log r)
    (honest : ∀ x ∈ log, Honest x.question x.answer) : r ≠ .error .unofferedChoice := by
  rw [offeredCommand_eq] at h
  split at h
  · cases h
    simp
  · cases h with
    | @ask _ _ a log r tail =>
      have hanswer := honest _ List.mem_cons_self
      rcases a with e | (_ | ⟨v, more⟩) | _ | _
      · cases tail
        exact fun herror => hanswer (Except.error.inj herror)
      · cases tail
        simp
      · exact known_honest (exists_find?_of_mem_values (hanswer v List.mem_cons_self)) tail
      · cases tail
        simp
      · cases tail
        simp

theorem command_honest {log : List (Exchanged Question)} {r : Except Failure Command}
    (h : (command o p cs query).Ends log r)
    (honest : ∀ x ∈ log, Honest x.question x.answer) : r ≠ .error .unofferedChoice := by
  rw [command] at h
  split at h
  · cases h
    simp
  · exact offeredCommand_honest h honest

/-- Nothing else is asked, and the command can be used in the project. -/
lemma meets_asked (o : SelectionOptions) (p : Project) (cs : List Command) (query : Option Text) :
    (command o p cs query).Meets (· = asked o p cs query) (· ∈ p.usable cs) := by
  rw [command]
  split
  · next c hnamed =>
    obtain ⟨q, -, hq⟩ := Option.bind_eq_some_iff.mp hnamed
    rw [Index.get?_ofList] at hq
    exact List.mem_of_find?_eq_some hq
  · rw [offeredCommand_eq]
    split
    · trivial
    · refine ⟨rfl, fun a => ?_⟩
      rcases a with e | (_ | ⟨v, more⟩) | _ | _
      · trivial
      · trivial
      · change (known (Index.find? (p.offered cs) v)).Meets _ _
        cases hfind : Index.find? (p.offered cs) v with
        | none => trivial
        | some c => exact List.mem_of_mem_filter (List.mem_of_find?_eq_some hfind)
      · trivial
      · trivial

/-! ### Both ways -/

lemma command_offered (hcs : HiddenByName cs)
    (hname : name ∈ (entries p cs).map Candidate.value) (hne : name ≠ []) :
    ∃ c, c.name = name ∧ command o p cs (some name) = .done c ∧ ∀ more,
      (command o p cs none).Ends
        [⟨asked o p cs none, Except.ok (Selection.chosen (name :: more))⟩] (.ok c) := by
  obtain ⟨c, hc⟩ := exists_find?_of_mem_values hname
  have hsame := find?_offered (p := p) hcs (isHiddenName_of_mem_values hcs hname)
  exact ⟨c, Index.name_of_find? hc, command_of_find? hne (hsame.symm.trans hc),
    offeredCommand_ends hc hname⟩

lemma command_hidden (hcs : HiddenByName cs) {c : Command} (hc : c ∈ p.usable cs)
    (hhidden : c.hidden = true) :
    c.name ∉ (entries p cs).map Candidate.value ∧
      ∃ d, Index.find? (p.usable cs) c.name = some d ∧ d.hidden = true ∧
        command o p cs (some c.name) = .done d := by
  have hname : isHiddenName c.name = true := by
    rw [← hcs c (List.mem_of_mem_filter hc), hhidden]
  constructor
  · intro hmem
    rw [isHiddenName_of_mem_values hcs hmem] at hname
    cases hname
  · obtain ⟨d, hd⟩ := Index.exists_find?_of_mem (List.mem_map_of_mem hc)
    have hmem := List.mem_of_mem_filter (List.mem_of_find?_eq_some hd)
    have hne : c.name ≠ [] := fun hnil => by
      rw [hnil] at hname
      cases hname
    refine ⟨d, hd, ?_, command_of_find? hne hd⟩
    rw [hcs d hmem, Index.name_of_find? hd, hname]

/-- In a configuration made of documents the menu has one entry for each name of a command that is
not hidden, in the order of their first appearance, and no other question is asked for a command.
To choose an entry gives the command that its name gives. Hidden commands are found by their names
only, and who chooses among the entries always gets a command. -/
theorem command_agrees {documents : List (Text × Text)} {catalogs : List Catalog}
    {overrides : Option Settings} {config : Config}
    (read : List.Forall₂ (fun d c => ∃ reader, (Catalog.parseAfter reader d.1 d.2).1 = .ok c)
      documents catalogs)
    (merged : Config.merge catalogs overrides = .ok config) (o : SelectionOptions) (p : Project) :
    ((entries p config.commands).map Candidate.value).Nodup ∧
      (entries p config.commands).map Candidate.value =
        (((p.usable config.commands).filter (!·.hidden)).map Command.name).eraseDups ∧
      (∀ query, (command o p config.commands query).Meets
        (· = asked o p config.commands query) (· ∈ p.usable config.commands)) ∧
      (∀ name ∈ (entries p config.commands).map Candidate.value, name ≠ [] →
        ∃ c, c.name = name ∧ command o p config.commands (some name) = .done c ∧ ∀ more,
          (command o p config.commands none).Ends
            [⟨asked o p config.commands none, Except.ok (Selection.chosen (name :: more))⟩]
            (.ok c)) ∧
      (∀ c ∈ p.usable config.commands, c.hidden = true →
        c.name ∉ (entries p config.commands).map Candidate.value ∧
        ∃ d, Index.find? (p.usable config.commands) c.name = some d ∧ d.hidden = true ∧
          command o p config.commands (some c.name) = .done d) ∧
      ∀ query log r, (command o p config.commands query).Ends log r →
        (∀ x ∈ log, Honest x.question x.answer) → r ≠ .error .unofferedChoice := by
  have hcs := hiddenByName_of_merge read merged
  exact ⟨nodup_values p _, values_entries p _, meets_asked o p _,
    fun name hname hne => command_offered hcs hname hne,
    fun c hc hhidden => command_hidden hcs hc hhidden, fun query log r => command_honest⟩

/-- A hidden command and one that is offered. -/
theorem command_agrees_picking :
    (Catalog.parseAfter {} "m.md" picking).1 = .ok pickingCatalog ∧
      Config.merge [pickingCatalog] none = .ok pickingConfig ∧
      (entries ⟨{}, []⟩ pickingConfig.commands).map Candidate.value = (["ls"] : List Text) ∧
      (∃ c, command {} ⟨{}, []⟩ pickingConfig.commands (some "ls") = .done c ∧
        (command {} ⟨{}, []⟩ pickingConfig.commands none).Ends
          [⟨asked {} ⟨{}, []⟩ pickingConfig.commands none,
            Except.ok (Selection.chosen (["ls"] : List Text))⟩] (.ok c)) ∧
      ∃ d, d.hidden = true ∧
        command {} ⟨{}, []⟩ pickingConfig.commands (some "_all") = .done d := by
  have merged : Config.merge [pickingCatalog] none = .ok pickingConfig := by decide +kernel
  have read : List.Forall₂ (fun d c => ∃ reader, (Catalog.parseAfter reader d.1 d.2).1 = .ok c)
      [(("m.md" : Text), picking)] [pickingCatalog] := .cons ⟨{}, Catalog.parseAfter_picking⟩ .nil
  obtain ⟨-, hvalues, -, hsame, hhidden, -⟩ := command_agrees read merged {} ⟨{}, []⟩
  have hentries : (entries ⟨{}, []⟩ pickingConfig.commands).map Candidate.value =
      (["ls"] : List Text) := hvalues.trans (by decide +kernel)
  obtain ⟨c, -, hnamed, hchosen⟩ := hsame "ls" (by rw [hentries]; decide) (by decide)
  have hall : pickingConfig.commands.head (by decide) ∈
      Project.usable ⟨{}, []⟩ pickingConfig.commands := by decide +kernel
  obtain ⟨-, d, -, hd, hfound⟩ := hhidden _ hall rfl
  exact ⟨Catalog.parseAfter_picking, merged, hentries, ⟨c, hnamed, hchosen []⟩, d, hd, hfound⟩

end Choice
end Runbook
