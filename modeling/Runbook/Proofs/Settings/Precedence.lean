import Mathlib.Data.List.Forall2
import Mathlib.Data.List.Induction
import Mathlib.Tactic.Common
import Runbook.Settings.Merge

/-! What a configuration takes from the catalogs that it is merged from: options from the last layer
that sets them, lists from the last layer on, and for every name the first command that a project
can use in the last catalog that has one. -/
namespace Runbook

/-! ### Options -/

/-- The last of some values that is set, if one is. -/
def LastSet {α : Type} (vs : List (Option α)) : Option α → Prop
  | some v => ∃ front back, vs = front ++ some v :: back ∧ ∀ w ∈ back, w = none
  | none => ∀ w ∈ vs, w = none

/-- One more value is the last one set, or makes no difference. -/
lemma LastSet.concat {α : Type} {vs : List (Option α)} {v : Option α} (h : LastSet vs v)
    (w : Option α) : LastSet (vs ++ [w]) (w <|> v) := by
  cases w with
  | some x => exact ⟨vs, [], rfl, List.forall_mem_nil _⟩
  | none =>
    have hlast {ws : List (Option α)} (hws : ∀ w ∈ ws, w = none) :
        ∀ w ∈ ws ++ [none], w = none := by
      intro w hw
      rcases List.mem_append.mp hw with hw | hw
      · exact hws w hw
      · exact List.mem_singleton.mp hw
    cases v with
    | some x =>
      obtain ⟨front, back, rfl, hback⟩ := h
      exact ⟨front, back ++ [none], by simp, hlast hback⟩
    | none => exact hlast h

/-- Every option is the one that the last layer which sets it gives. -/
structure Options.Prevail (layers : List Options) (o : Options) : Prop where
  backend : LastSet (layers.map Options.backend) o.backend
  exactMatch : LastSet (layers.map Options.exactMatch) o.exactMatch
  ignoreCase : LastSet (layers.map Options.ignoreCase) o.ignoreCase
  forceTerminal : LastSet (layers.map Options.forceTerminal) o.forceTerminal
  useDirenv : LastSet (layers.map Options.useDirenv) o.useDirenv
  useNix : LastSet (layers.map Options.useNix) o.useNix
  terminal : LastSet (layers.map Options.terminal) o.terminal
  logLevel : LastSet (layers.map Options.logLevel) o.logLevel

namespace Options

/-- The options of all layers, each over those before it. -/
def ofLayers (layers : List Options) : Options := layers.foldl (fun o later => later.over o) {}

lemma ofLayers_concat (layers : List Options) (o : Options) :
    ofLayers (layers ++ [o]) = o.over (ofLayers layers) := by
  rw [ofLayers, List.foldl_append]
  rfl

theorem prevail_ofLayers (layers : List Options) : Prevail layers (ofLayers layers) := by
  induction layers using List.reverseRecOn with
  | nil => constructor <;> exact List.forall_mem_nil _
  | append_singleton layers o ih =>
    rw [ofLayers_concat]
    constructor <;> rw [List.map_append]
    · exact ih.backend.concat o.backend
    · exact ih.exactMatch.concat o.exactMatch
    · exact ih.ignoreCase.concat o.ignoreCase
    · exact ih.forceTerminal.concat o.forceTerminal
    · exact ih.useDirenv.concat o.useDirenv
    · exact ih.useNix.concat o.useNix
    · exact ih.terminal.concat o.terminal
    · exact ih.logLevel.concat o.logLevel

end Options

/-! ### Commands -/

/-- The commands that a catalog declares: those under its headings, then those among its
settings. -/
def Catalog.Declares (c : Catalog) (cs : List Command) : Prop :=
  ∃ entries, cs = c.commands ++ entries ∧
    List.Forall₂ (fun e d => CommandEntry.command e c.path = .ok d)
      ((c.settings.map Settings.commands).getD []) entries

/-- A command can be used in a project if it is for no type, or for one of the project's types. -/
def Project.Admits (p : Project) (c : Command) : Prop :=
  (∀ t, ¬ t ∈ c.types) ∨ ∃ type ∈ p.types, type.name ∈ c.types

/-- The first command of a name that a project can use, if there is one. -/
def Project.First (p : Project) (name : Text) (cs : List Command) : Option Command → Prop
  | some c => ∃ front back, cs = front ++ c :: back ∧ (c.name = name ∧ p.Admits c) ∧
      ∀ d ∈ front, ¬ (d.name = name ∧ p.Admits d)
  | none => ∀ d ∈ cs, ¬ (d.name = name ∧ p.Admits d)

/-- The first such command of the last of several catalogs that declares one. -/
def Project.Finds (p : Project) (name : Text) (declared : List (List Command))
    (found : Option Command) : Prop :=
  ∃ firsts, List.Forall₂ (p.First name) declared firsts ∧ LastSet firsts found

/-- What a name refers to in a project, where these are the commands. -/
def Project.lookup (p : Project) (cs : List Command) (name : Text) : Option Command :=
  (Index.ofList (p.usable cs)).get? name

lemma forall₂_of_mapM {α β ε : Type} {f : α → Except ε β} {xs : List α} {ys : List β}
    (h : xs.mapM f = .ok ys) : List.Forall₂ (fun x y => f x = .ok y) xs ys := by
  induction xs generalizing ys with
  | nil =>
    obtain rfl := Except.ok.inj h
    exact .nil
  | cons x xs ih =>
    rw [List.mapM_cons] at h
    cases hx : f x with
    | error e =>
      rw [hx] at h
      cases h
    | ok y =>
      cases hxs : xs.mapM f with
      | error e =>
        rw [hx, hxs] at h
        cases h
      | ok rest =>
        rw [hx, hxs] at h
        obtain rfl := Except.ok.inj h
        exact .cons hx (ih hxs)

lemma Catalog.declares_allCommands {c : Catalog} {cs : List Command}
    (h : c.allCommands = .ok cs) : c.Declares cs := by
  unfold allCommands at h
  split at h
  · next hnone =>
    obtain rfl := Except.ok.inj h
    refine ⟨[], (List.append_nil _).symm, ?_⟩
    rw [hnone]
    exact .nil
  · next s hsome =>
    cases hentries : s.commands.mapM fun e => CommandEntry.command e c.path with
    | error e =>
      rw [hentries] at h
      cases h
    | ok entries =>
      rw [hentries] at h
      obtain rfl := Except.ok.inj h
      refine ⟨entries, rfl, ?_⟩
      rw [hsome]
      exact forall₂_of_mapM hentries

namespace Project
variable {p : Project} {name : Text} {cs ds : List Command}

lemma accepts_iff {c : Command} : p.accepts c = true ↔ p.Admits c := by
  have hempty : c.types.isEmpty = true ↔ ∀ t, ¬ t ∈ c.types := by
    rw [Tags.isEmpty, List.isEmpty_iff, List.eq_nil_iff_forall_not_mem]
    rfl
  have hmeets : c.types.meets p.tags = true ↔ ∃ type ∈ p.types, type.name ∈ c.types := by
    have hcontains (t : Text) : p.tags.toList.contains t = true ↔
        ∃ type ∈ p.types, type.name = t := by
      rw [List.contains_iff_mem, ← Tags.mem_def, tags, Tags.mem_ofList, List.mem_map]
    simp only [Tags.meets, List.any_eq_true, hcontains]
    constructor
    · rintro ⟨_, ht, type, htype, rfl⟩
      exact ⟨type, htype, ht⟩
    · rintro ⟨type, htype, ht⟩
      exact ⟨type.name, ht, type, htype, rfl⟩
  rw [accepts, Bool.or_eq_true, hempty, hmeets, Admits]

lemma lookup_eq : p.lookup cs name = cs.find? fun c => p.accepts c && c.name = name := by
  rw [lookup, Index.get?_ofList, Index.find?, usable, List.find?_filter]
  congr 1
  funext c
  simp

/-- The look-up goes through the commands one after another. -/
lemma lookup_append : p.lookup (cs ++ ds) name = (p.lookup cs name).or (p.lookup ds name) := by
  rw [lookup_eq, lookup_eq, lookup_eq, List.find?_append]

lemma first_lookup (p : Project) (name : Text) (cs : List Command) :
    p.First name cs (p.lookup cs name) := by
  have hiff (c : Command) : (p.accepts c && decide (c.name = name)) = true ↔
      c.name = name ∧ p.Admits c := by
    rw [Bool.and_eq_true, accepts_iff, decide_eq_true_eq, and_comm]
  rw [lookup_eq]
  cases hfind : cs.find? fun c => p.accepts c && c.name = name with
  | none => exact fun d hd hd' => List.find?_eq_none.mp hfind d hd ((hiff d).mpr hd')
  | some c =>
    obtain ⟨hc, front, back, rfl, hfront⟩ := List.find?_eq_some_iff_append.mp hfind
    refine ⟨front, back, rfl, (hiff c).mp hc, fun d hd hd' => ?_⟩
    have := hfront d hd
    rw [(hiff d).mpr hd'] at this
    cases this

lemma lookup_eq_none_iff :
    p.lookup cs name = none ↔ ∀ c ∈ cs, ¬ (c.name = name ∧ p.Admits c) := by
  have hfirst := p.first_lookup name cs
  cases hlookup : p.lookup cs name with
  | none =>
    rw [hlookup] at hfirst
    exact iff_of_true rfl hfirst
  | some c =>
    rw [hlookup] at hfirst
    obtain ⟨front, back, rfl, hc, -⟩ := hfirst
    exact iff_of_false nofun fun hnone => hnone c (by simp) hc

/-- Among the commands of all catalogs, those of later ones first, a name refers to the one that is
found. -/
theorem finds_lookup (p : Project) (name : Text) (declared : List (List Command)) :
    p.Finds name declared (p.lookup declared.reverse.flatten name) := by
  refine ⟨declared.map (p.lookup · name), ?_, ?_⟩
  · rw [List.forall₂_map_right_iff, List.forall₂_same]
    exact fun cs _ => p.first_lookup name cs
  · -- The last catalog is looked up first, so the induction is from the end of the list.
    induction declared using List.reverseRecOn with
    | nil => exact List.forall_mem_nil _
    | append_singleton lower cs ih =>
      have hlast := ih.concat (p.lookup cs name)
      rw [List.map_append, List.reverse_append, List.reverse_singleton, List.singleton_append,
        List.flatten_cons, lookup_append]
      rwa [Option.orElse_eq_orElse, Option.orElse_eq_or] at hlast

end Project

/-! ### The configuration -/

/-- The settings that take part, those of later layers last. -/
def Config.layers (catalogs : List Catalog) (overrides : Option Settings) : List Settings :=
  catalogs.filterMap Catalog.settings ++ overrides.toList

lemma Config.merge_ok {catalogs : List Catalog} {overrides : Option Settings} {config : Config}
    (h : merge catalogs overrides = .ok config) :
    ∃ declared, List.Forall₂ Catalog.Declares catalogs declared ∧ config =
      { Options.ofLayers ((layers catalogs overrides).map Settings.toOptions) with
        projectDirs := (layers catalogs overrides).reverse.flatMap Settings.projectDirs
        projectTypes :=
          if ((layers catalogs overrides).reverse.flatMap Settings.projectTypes).isEmpty
          then ProjectType.standard
          else (layers catalogs overrides).reverse.flatMap Settings.projectTypes
        commands := declared.reverse.flatten
        sources := catalogs.map Catalog.path } := by
  unfold merge at h
  cases hcommands : catalogs.reverse.mapM Catalog.allCommands with
  | error e =>
    rw [hcommands] at h
    cases h
  | ok reversed =>
    rw [hcommands] at h
    obtain rfl := Except.ok.inj h
    refine ⟨reversed.reverse, ?_, ?_⟩
    · rw [← List.forall₂_reverse_iff, List.reverse_reverse]
      exact (forall₂_of_mapM hcommands).imp fun _ _ => Catalog.declares_allCommands
    · rw [List.reverse_reverse, Options.ofLayers, List.foldl_map]
      rfl

/-- In a merged configuration every option is that of the last layer which sets it, the lists are
those of all layers, the last one first, and a name refers to the first command that the project can
use in the last catalog that declares one. So the commands of the last catalog hide those of the
same name in others if the project can use them, and only then. -/
theorem merge_precedence {catalogs : List Catalog} {overrides : Option Settings} {config : Config}
    (h : Config.merge catalogs overrides = .ok config) :
    Options.Prevail ((Config.layers catalogs overrides).map Settings.toOptions) config.toOptions ∧
    config.projectDirs =
      (Config.layers catalogs overrides).reverse.flatMap Settings.projectDirs ∧
    ((Config.layers catalogs overrides).reverse.flatMap Settings.projectTypes = [] →
      config.projectTypes = ProjectType.standard) ∧
    ((Config.layers catalogs overrides).reverse.flatMap Settings.projectTypes ≠ [] →
      config.projectTypes =
        (Config.layers catalogs overrides).reverse.flatMap Settings.projectTypes) ∧
    ∃ declared, List.Forall₂ Catalog.Declares catalogs declared ∧ ∀ (p : Project) (name : Text),
      p.Finds name declared (p.lookup config.commands name) ∧
      (p.lookup config.commands name = none ↔
        ∀ cs ∈ declared, ∀ c ∈ cs, ¬ (c.name = name ∧ p.Admits c)) ∧
      ∀ lower last, declared = lower ++ [last] →
        ((∃ c ∈ last, c.name = name ∧ p.Admits c) →
          p.lookup config.commands name = p.lookup last name) ∧
        ((∀ c ∈ last, ¬ (c.name = name ∧ p.Admits c)) →
          p.lookup config.commands name = p.lookup lower.reverse.flatten name) := by
  obtain ⟨declared, hdeclared, rfl⟩ := Config.merge_ok h
  refine ⟨Options.prevail_ofLayers _, rfl, fun hnone => ?_, fun hsome => ?_, declared, hdeclared,
    fun p name => ⟨p.finds_lookup name declared, ?_, ?_⟩⟩
  · exact if_pos (List.isEmpty_iff.mpr hnone)
  · exact if_neg (fun hempty => hsome (List.isEmpty_iff.mp hempty))
  · simp only [Project.lookup_eq_none_iff, List.mem_flatten, List.mem_reverse]
    exact ⟨fun hall cs hcs c hc => hall c ⟨cs, hcs, hc⟩,
      fun hall c ⟨cs, hcs, hc⟩ => hall cs hcs c hc⟩
  · rintro lower last rfl
    have hlookup : p.lookup (lower ++ [last]).reverse.flatten name =
        (p.lookup last name).or (p.lookup lower.reverse.flatten name) := by
      rw [List.reverse_append, List.reverse_singleton, List.singleton_append, List.flatten_cons,
        Project.lookup_append]
    refine ⟨fun ⟨c, hc, happlies⟩ => ?_, fun hnone => ?_⟩
    · have hsome : p.lookup last name ≠ none := fun hnone =>
        Project.lookup_eq_none_iff.mp hnone c hc happlies
      exact hlookup.trans (Option.or_of_isSome (Option.isSome_iff_ne_none.mpr hsome))
    · exact hlookup.trans (by rw [Project.lookup_eq_none_iff.mpr hnone, Option.none_or])

/-- Settings with a command of their own, and one of the same name under a heading. -/
def household : Catalog where
  settings := some
    { backend := some .fzf, useNix := some true, projectDirs := ["~/code"]
      commands := [{ name := "test", source := "make test" }] }
  commands := [{ name := "test", source := "npm test\n", types := .ofList ["npm"] }]
  path := "nixon.md"

/-- A command of that name for another type of project, and no settings. -/
def bench : Catalog where
  commands := [{ name := "test", source := "cargo test\n", types := .ofList ["rust"] }]
  path := ".nixon.md"

def householdConfig : Config where
  backend := some .rofi
  useNix := some true
  projectDirs := ["~/work", "~/code"]
  projectTypes := ProjectType.standard
  commands :=
    [{ name := "test", source := "cargo test\n", types := .ofList ["rust"] },
      { name := "test", source := "npm test\n", types := .ofList ["npm"] },
      { name := "test", language := .bash, source := "make test\n" }]
  sources := ["nixon.md", ".nixon.md"]

theorem merge_precedence_household :
    Config.merge [household, bench] (some { backend := some .rofi, projectDirs := ["~/work"] }) =
      .ok householdConfig ∧
    LastSet [some .fzf, some .rofi] householdConfig.backend ∧
    LastSet [some true, none] householdConfig.useNix ∧
    ∃ declared, List.Forall₂ Catalog.Declares [household, bench] declared ∧
      ∀ (p : Project) (name : Text), p.Finds name declared (p.lookup householdConfig.commands name) := by
  have merged : Config.merge [household, bench]
      (some { backend := some .rofi, projectDirs := ["~/work"] }) = .ok householdConfig := by
    decide +kernel
  obtain ⟨prevail, -, -, -, declared, declares, finds⟩ := merge_precedence merged
  exact ⟨merged, prevail.backend, prevail.useNix, declared, declares,
    fun p name => (finds p name).1⟩

end Runbook
