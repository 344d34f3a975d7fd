import Mathlib.Tactic.Common
import Runbook.Project
import Runbook.Proofs.Execution.Wrapping
import Runbook.Proofs.Files.Path

/-! The environment of a command against the project around it. A project is looked for from one
directory to the next, the file of an environment from one name to the next, so that they are found
in different directories where the first names stand above the others. -/
namespace Runbook

/-- A name that is no pattern. -/
def Plain (name : Text) : Prop := IsName name ∧ Glob.hasWildcard name = false
  deriving Decidable

/-- Where a list is split twice, the splits are the same or one of them is before the other. -/
lemma split_cases {α : Type} {a b : α} {as bs as' bs' : List α}
    (h : as ++ a :: as' = bs ++ b :: bs') : (as = bs ∧ a = b) ∨ a ∈ bs ∨ b ∈ as := by
  rcases List.append_eq_append_iff.mp h with ⟨more, rfl, hrest⟩ | ⟨more, rfl, hrest⟩
  · cases more with
    | nil => exact .inl ⟨(List.append_nil as).symm, List.head_eq_of_cons_eq hrest⟩
    | cons _ _ =>
      obtain rfl := List.head_eq_of_cons_eq hrest
      exact .inr (.inl (by simp))
  · cases more with
    | nil => exact .inl ⟨List.append_nil bs, (List.head_eq_of_cons_eq hrest).symm⟩
    | cons _ _ =>
      obtain rfl := List.head_eq_of_cons_eq hrest
      exact .inr (.inr (by simp))

namespace Surroundings

variable {s : Surroundings} {directory dir file : Path} {name : Text} {names missing : List Text}

/-- A directory is the nearest that has any of some names, and one of them is the first that it
has. -/
def Closest (s : Surroundings) (directory : Path) (names : List Text) (dir : Path)
    (missing : List Text) (name : Text) : Prop :=
  ∃ nearer farther others, s.upwards directory = .ok (nearer ++ dir :: farther) ∧
    (∀ d ∈ nearer, ∀ n ∈ names, s.has (d.child n) = .ok false) ∧
    names = missing ++ name :: others ∧
    (∀ m ∈ missing, s.has (dir.child m) = .ok false) ∧ s.has (dir.child name) = .ok true

lemma Nearest.not_nowhere (h : s.Nearest directory name file) : ¬ s.Nowhere directory name := by
  intro hnowhere
  cases (dominating?_some_iff.mpr h).symm.trans (dominating?_none_iff.mpr hnowhere)

lemma Nearest.unique {file' : Path} (h : s.Nearest directory name file)
    (h' : s.Nearest directory name file') : file = file' := by
  have hfound := (dominating?_some_iff.mpr h).symm.trans (dominating?_some_iff.mpr h')
  exact Option.some.inj (Except.ok.inj hfound)

lemma Closest.nearest (h : s.Closest directory names dir missing name) :
    s.Nearest directory name (dir.child name) := by
  obtain ⟨nearer, farther, others, hsplit, hnearer, hnames, -, hhas⟩ := h
  exact ⟨nearer, dir, farther, hsplit, fun d hd => hnearer d hd name (by simp [hnames]), hhas, rfl⟩

/-- The file that is preferred by its name is that of the closest directory exactly if no name that
goes before is to be found anywhere. -/
theorem Preferred.eq_closest_iff (plain : ∀ n ∈ names, Plain n)
    (h : s.Preferred directory names file) (hc : s.Closest directory names dir missing name) :
    file = dir.child name ↔ ∀ m ∈ missing, s.Nowhere directory m := by
  obtain ⟨absent, preferred, others, hnames, habsent, hfile⟩ := h
  have hnearest := hc.nearest
  obtain ⟨-, -, others', -, -, hnames', hmissing, -⟩ := hc
  obtain ⟨rfl, rfl⟩ | hbefore | hbefore := split_cases (hnames.symm.trans hnames')
  · exact iff_of_true (hfile.unique hnearest) habsent
  · refine iff_of_false (fun heq => ?_) fun hnowhere =>
      hfile.not_nowhere (hnowhere preferred hbefore)
    obtain ⟨-, d, -, -, -, hhas, rfl⟩ := hfile
    obtain ⟨rfl, -⟩ := Path.child_inj (plain preferred (by simp [hnames])).1
      (plain name (by simp [hnames'])).1 heq
    cases hhas.symm.trans (hmissing preferred hbefore)
  · exact absurd (habsent name hbefore) hnearest.not_nowhere

end Surroundings

/-! ### Projects by plain names -/
section Markers

variable {s : Surroundings} {directory : Path} {t : ProjectType}

lemma hasSomeMarker_plain (s : Surroundings) (p : Path) {names : List Text}
    (plain : ∀ n ∈ names, Plain n) :
    match hasSomeMarker s p names with
    | .ok true => ∃ missing name others, names = missing ++ name :: others ∧
        (∀ m ∈ missing, s.has (p.child m) = .ok false) ∧ s.has (p.child name) = .ok true
    | .ok false => ∀ n ∈ names, s.has (p.child n) = .ok false
    | .error e => ∃ n ∈ names, s.has (p.child n) = .error e := by
  induction names with
  | nil => exact List.forall_mem_nil _
  | cons n names ih =>
    obtain ⟨hn, hnames⟩ := List.forall_mem_cons.mp plain
    have ih := ih hnames
    rw [hasSomeMarker, hasMarker, hn.2, if_neg Bool.false_ne_true]
    cases hhas : s.has (p.child n) with
    | error e => exact ⟨n, List.mem_cons_self, hhas⟩
    | ok found =>
      cases found with
      | true => exact ⟨[], n, names, rfl, List.forall_mem_nil _, hhas⟩
      | false =>
        dsimp only
        cases hrest : hasSomeMarker s p names with
        | error e =>
          rw [hrest] at ih
          obtain ⟨m, hm, he⟩ := ih
          exact ⟨m, List.mem_cons_of_mem _ hm, he⟩
        | ok found =>
          rw [hrest] at ih
          cases found with
          | true =>
            obtain ⟨missing, name, others, rfl, hmissing, hname⟩ := ih
            exact ⟨n :: missing, name, others, rfl,
              List.forall_mem_cons.mpr ⟨hhas, hmissing⟩, hname⟩
          | false => exact List.forall_mem_cons.mpr ⟨hhas, ih⟩

lemma of?_single (s : Surroundings) (t : ProjectType) (p : Path) :
    Project.of? s [t] p =
      (hasSomeMarker s p t.markers).map fun found => if found then some ⟨p, [t]⟩ else none := by
  rw [Project.of?, Project.typesOf, ProjectType.fits]
  cases hasSomeMarker s p t.markers with
  | error e => rfl
  | ok found => cases found <;> rfl

/-- The search for a project of one type whose markers are plain names stops at the first directory
that has any of them. -/
lemma firstOf?_plain (s : Surroundings) (plain : ∀ n ∈ t.markers, Plain n) (dirs : List Path) :
    match Project.firstOf? s [t] dirs with
    | .ok (some p) => ∃ nearer farther missing name others, dirs = nearer ++ p.path :: farther ∧
        (∀ d ∈ nearer, ∀ n ∈ t.markers, s.has (d.child n) = .ok false) ∧
        t.markers = missing ++ name :: others ∧
        (∀ m ∈ missing, s.has (p.path.child m) = .ok false) ∧ s.has (p.path.child name) = .ok true
    | .ok none => ∀ n ∈ t.markers, ∀ d ∈ dirs, s.has (d.child n) = .ok false
    | .error e => ∃ n ∈ t.markers, (dirs.map (·.child n)).findM? s.has = .error e := by
  induction dirs with
  | nil => exact fun _ _ => List.forall_mem_nil _
  | cons d dirs ih =>
    have hd := hasSomeMarker_plain s d plain
    rw [Project.firstOf?, of?_single]
    cases hfound : hasSomeMarker s d t.markers with
    | error e =>
      rw [hfound] at hd
      obtain ⟨n, hn, he⟩ := hd
      refine ⟨n, hn, ?_⟩
      rw [List.map_cons, List.findM?, he]
      rfl
    | ok found =>
      rw [hfound] at hd
      cases found with
      | true =>
        obtain ⟨missing, name, others, hsplit⟩ := hd
        exact ⟨[], dirs, missing, name, others, rfl, List.forall_mem_nil _, hsplit⟩
      | false =>
        dsimp only [Except.map, Bool.false_eq_true, if_false]
        cases hrest : Project.firstOf? s [t] dirs with
        | error e =>
          rw [hrest] at ih
          obtain ⟨n, hn, he⟩ := ih
          refine ⟨n, hn, ?_⟩
          rw [List.map_cons, List.findM?, hd n hn]
          exact he
        | ok found =>
          rw [hrest] at ih
          cases found with
          | some p =>
            obtain ⟨nearer, farther, missing, name, others, rfl, hnearer, hsplit⟩ := ih
            exact ⟨d :: nearer, farther, missing, name, others, rfl,
              List.forall_mem_cons.mpr ⟨hd, hnearer⟩, hsplit⟩
          | none => exact fun n hn => List.forall_mem_cons.mpr ⟨hd n hn, ih n hn⟩

/-- What the search for such a project around a directory tells of its markers. -/
theorem around?_plain (s : Surroundings) (directory : Path) (some_marker : t.markers ≠ [])
    (plain : ∀ n ∈ t.markers, Plain n) :
    match Project.around? s [t] directory with
    | .ok (some p) => ∃ missing name, s.Closest directory t.markers p.path missing name
    | .ok none => ∀ n ∈ t.markers, s.Nowhere directory n
    | .error e => ∃ n ∈ t.markers, s.dominating? directory n = .error e := by
  rw [Project.around?]
  cases hdirs : s.upwards directory with
  | error e =>
    refine ⟨t.markers.head some_marker, List.head_mem some_marker, ?_⟩
    rw [Surroundings.dominating?, hdirs]
    rfl
  | ok dirs =>
    change match Project.firstOf? s [t] dirs with
      | .ok (some p) => _
      | .ok none => _
      | .error e => _
    have hfirst := firstOf?_plain s plain dirs
    cases hsearch : Project.firstOf? s [t] dirs with
    | error e =>
      rw [hsearch] at hfirst
      obtain ⟨n, hn, he⟩ := hfirst
      refine ⟨n, hn, ?_⟩
      rw [Surroundings.dominating?, hdirs]
      exact he
    | ok found =>
      rw [hsearch] at hfirst
      cases found with
      | some p =>
        obtain ⟨nearer, farther, missing, name, others, rfl, hrest⟩ := hfirst
        exact ⟨missing, name, nearer, farther, others, hdirs, hrest⟩
      | none => exact fun n hn => ⟨dirs, hdirs, hfirst n hn⟩

end Markers

namespace Execution

variable {s : Surroundings} {directory : Path} {o : ExecOptions} {t : ProjectType}

lemma plain_environmentFiles : ∀ n ∈ environmentFiles, Plain n := by decide

/-- The project type of this name among those that are known without any settings has the files of
an environment for its markers. -/
lemma markers_nix (known : t ∈ ProjectType.standard) (named : t.name = "nix".toList) :
    t.markers = environmentFiles := by
  have hall : ∀ t ∈ ProjectType.standard, t.name = "nix".toList → t.markers = environmentFiles := by
    decide
  exact hall t known named

lemma wrapEnvironment_nix (s : Surroundings) (directory : Path) (argv : List Text)
    (wanted : o.useNix = true) (other : o.useDirenv = true → s.Nowhere directory ".envrc") :
    wrapEnvironment s directory o argv = (environmentFile? s directory).map fun
      | some file => ["nix-shell".toList, file.toText, "--run".toList, Shell.join argv]
      | none => argv := by
  have hother : (if o.useDirenv then s.dominating? directory ".envrc" else .ok none) =
      .ok none := by
    split
    · next hw => exact Surroundings.dominating?_none_iff.mpr (other hw)
    · rfl
  rw [wrapEnvironment_eq, hother, if_pos wanted]
  change (environmentFile? s directory).bind _ = _
  cases environmentFile? s directory with
  | error e => rfl
  | ok file => cases file <;> rfl

/-- A command that is to run with nix, and not with direnv, runs in an environment exactly if it is
in a project of that type. The environment is the one in the directory of the project exactly if no
file whose name goes before is to be found above. -/
theorem wrapEnvironment_own (s : Surroundings) (directory : Path) (argv : List Text)
    (wanted : o.useNix = true) (other : o.useDirenv = true → s.Nowhere directory ".envrc")
    (known : t ∈ ProjectType.standard) (named : t.name = "nix".toList) :
    match wrapEnvironment s directory o argv, Project.around? s [t] directory with
    | .ok wrapped, .ok none =>
      wrapped = argv ∧ ∀ n ∈ environmentFiles, s.Nowhere directory n
    | .ok wrapped, .ok (some p) => ∃ file missing name,
        wrapped = ["nix-shell".toList, file.toText, "--run".toList, Shell.join argv] ∧
        s.Preferred directory environmentFiles file ∧
        s.Closest directory environmentFiles p.path missing name ∧
        (file = p.path.child name ↔ ∀ m ∈ missing, s.Nowhere directory m)
    | .error e, _ => ∃ n ∈ environmentFiles, s.dominating? directory n = .error e
    | .ok _, .error e => ∃ n ∈ environmentFiles, s.dominating? directory n = .error e := by
  have hmarkers := markers_nix known named
  have hproject := around?_plain (t := t) s directory (by rw [hmarkers]; decide)
    (hmarkers ▸ plain_environmentFiles)
  rw [hmarkers] at hproject
  rw [wrapEnvironment_nix s directory argv wanted other]
  cases hfile : environmentFile? s directory with
  | error e => exact Surroundings.error_of_findSomeM? hfile
  | ok found =>
    cases haround : Project.around? s [t] directory with
    | error e =>
      rw [haround] at hproject
      exact hproject
    | ok project =>
      rw [haround] at hproject
      cases found with
      | some file =>
        have hpreferred := Surroundings.preferred_of_findSomeM? hfile
        cases project with
        | some p =>
          obtain ⟨missing, name, hclosest⟩ := hproject
          exact ⟨file, missing, name, rfl, hpreferred, hclosest,
            hpreferred.eq_closest_iff plain_environmentFiles hclosest⟩
        | none =>
          obtain ⟨missing, name, others, hnames, -, hnearest⟩ := hpreferred
          exact absurd (hproject name (by simp [hnames])) hnearest.not_nowhere
      | none =>
        have hnowhere := Surroundings.nowhere_of_findSomeM? hfile
        cases project with
        | some p =>
          obtain ⟨missing, name, hclosest⟩ := hproject
          obtain ⟨-, -, others, -, -, hnames, -⟩ := id hclosest
          exact absurd (hnowhere name (by simp [hnames])) hclosest.nearest.not_nowhere
        | none => exact ⟨rfl, hnowhere⟩

/-- The project type that is known under this name. -/
def nix : ProjectType := ⟨"nix", ["shell.nix", "default.nix"], "Nix project"⟩

/-- A project with an environment inside a project with another. -/
def nested : Surroundings where
  files := .directory [("p", .directory [("default.nix", .file []),
    ("lib", .directory [("shell.nix", .file []), ("default.nix", .file []),
      ("src", .directory [])])])]
  directory := ["p"]

def library : Path := ⟨1, ["p", "lib"]⟩

def sources : Path := ⟨1, ["p", "lib", "src"]⟩

theorem wrapEnvironment_own_nested :
    outside.useNix = true ∧ (outside.useDirenv = true → nested.Nowhere sources ".envrc") ∧
    nix ∈ ProjectType.standard ∧ nix.name = "nix".toList ∧
    wrapEnvironment nested sources outside ["make"] =
      .ok ["nix-shell", "/p/lib/shell.nix", "--run", "make"] ∧
    Project.around? nested [nix] sources = .ok (some ⟨library, [nix]⟩) ∧
    ∃ file missing name, file.toText = "/p/lib/shell.nix".toList ∧
      nested.Preferred sources environmentFiles file ∧
      nested.Closest sources environmentFiles library missing name ∧
      (file = library.child name ↔ ∀ m ∈ missing, nested.Nowhere sources m) := by
  have other (_ : outside.useDirenv = true) : nested.Nowhere sources ".envrc" :=
    ⟨[sources, library, ⟨1, ["p"]⟩, ⟨1, []⟩], by decide +kernel, by decide +kernel⟩
  have known : nix ∈ ProjectType.standard := by decide
  have hwrapped : wrapEnvironment nested sources outside ["make"] =
      .ok ["nix-shell", "/p/lib/shell.nix", "--run", "make"] := by decide +kernel
  have haround : Project.around? nested [nix] sources = .ok (some ⟨library, [nix]⟩) := by
    decide +kernel
  have h := wrapEnvironment_own nested sources ["make"] rfl other known rfl
  rw [hwrapped, haround] at h
  obtain ⟨file, missing, name, hfile, hrest⟩ := h
  refine ⟨rfl, other, known, rfl, hwrapped, haround, file, missing, name, ?_, hrest⟩
  exact (List.cons.inj (List.cons.inj hfile).2).1.symm

/-- A project with a `default.nix` inside a project with a `shell.nix`. -/
def overshadowed : Surroundings where
  files := .directory [("p", .directory [("shell.nix", .file []),
    ("lib", .directory [("default.nix", .file [])])])]
  directory := []

/-- A command in the inner project runs in the environment of the outer one. -/
theorem wrapEnvironment_foreign :
    nix ∈ ProjectType.standard ∧
    Project.around? overshadowed [nix] library = .ok (some ⟨library, [nix]⟩) ∧
    overshadowed.has (library.child "default.nix") = .ok true ∧
    wrapEnvironment overshadowed library { useNix := true } ["make"] =
      .ok ["nix-shell", "/p/shell.nix", "--run", "make"] := by
  decide +kernel

end Execution
end Runbook
