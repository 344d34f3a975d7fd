import Mathlib.Tactic.Common
import Runbook.Execution.Running
import Runbook.Proofs.Execution.Quoting

/-! What is handed over when a command is run in the foreground: the words of its line come through
the environment of the project and the terminal unchanged. -/
namespace Runbook

/-! ### Searches -/

section Searches

variable {α β : Type} {f : α → Except Failure (Option β)} {x : α} {l : List α}
  {r : Except Failure (Option β)}

lemma findSomeM?_of_none (h : f x = .ok none) : (x :: l).findSomeM? f = l.findSomeM? f := by
  rw [List.findSomeM?, h]
  rfl

lemma findSomeM?_of_ne (h : f x ≠ .ok none) : (x :: l).findSomeM? f = f x := by
  rw [List.findSomeM?]
  cases hx : f x with
  | error e => rfl
  | ok found =>
    cases found with
    | some b => rfl
    | none => exact absurd hx h

lemma findSomeM?_none_iff : l.findSomeM? f = .ok none ↔ ∀ x ∈ l, f x = .ok none := by
  induction l with
  | nil => exact iff_of_true rfl (List.forall_mem_nil _)
  | cons x l ih =>
    rw [List.forall_mem_cons]
    by_cases hx : f x = .ok none
    · rw [findSomeM?_of_none hx, ih, and_iff_right hx]
    · rw [findSomeM?_of_ne hx]
      exact iff_of_false hx fun h => hx h.1

/-- A search that does not go through to the end is decided by the first question that is not
answered with nothing, by what it gives or by its failure. -/
lemma findSomeM?_eq_iff (hr : r ≠ .ok none) :
    l.findSomeM? f = r ↔ ∃ before x after, l = before ++ x :: after ∧
      (∀ y ∈ before, f y = .ok none) ∧ f x = r := by
  constructor
  · intro h
    induction l with
    | nil => exact absurd h.symm hr
    | cons x l ih =>
      by_cases hx : f x = .ok none
      · rw [findSomeM?_of_none hx] at h
        obtain ⟨before, y, after, rfl, hbefore, hy⟩ := ih h
        exact ⟨x :: before, y, after, rfl, List.forall_mem_cons.2 ⟨hx, hbefore⟩, hy⟩
      · rw [findSomeM?_of_ne hx] at h
        exact ⟨[], x, l, rfl, List.forall_mem_nil _, h⟩
  · rintro ⟨before, x, after, rfl, hbefore, hx⟩
    induction before with
    | nil => rw [List.nil_append, findSomeM?_of_ne (hx ▸ hr), hx]
    | cons y before ih =>
      obtain ⟨hy, hbefore⟩ := List.forall_mem_cons.1 hbefore
      rw [List.cons_append, findSomeM?_of_none hy]
      exact ih hbefore

lemma findSomeM?_some_iff {b : β} :
    l.findSomeM? f = .ok (some b) ↔ ∃ before x after, l = before ++ x :: after ∧
      (∀ y ∈ before, f y = .ok none) ∧ f x = .ok (some b) :=
  findSomeM?_eq_iff nofun

lemma findSomeM?_error_iff {e : Failure} :
    l.findSomeM? f = .error e ↔ ∃ before x after, l = before ++ x :: after ∧
      (∀ y ∈ before, f y = .ok none) ∧ f x = .error e :=
  findSomeM?_eq_iff nofun

end Searches

namespace Surroundings

variable {s : Surroundings} {directory file : Path} {name : Text} {names : List Text}

/-- A path is the nearest of a name: it exists, in a directory or above it, and no path of that name
exists in the directories before. -/
def Nearest (s : Surroundings) (directory : Path) (name : Text) (file : Path) : Prop :=
  ∃ nearer dir farther, s.upwards directory = .ok (nearer ++ dir :: farther) ∧
    (∀ d ∈ nearer, s.has (d.child name) = .ok false) ∧
    s.has (dir.child name) = .ok true ∧ file = dir.child name

/-- No path of a name exists in a directory or above it. -/
def Nowhere (s : Surroundings) (directory : Path) (name : Text) : Prop :=
  ∃ dirs, s.upwards directory = .ok dirs ∧ ∀ d ∈ dirs, s.has (d.child name) = .ok false

/-- The path of a name in one directory, if it exists. -/
def within? (s : Surroundings) (name : Text) (d : Path) : Except Failure (Option Path) :=
  (s.has (d.child name)).map fun found => if found then some (d.child name) else none

lemma within?_none_iff {d : Path} :
    s.within? name d = .ok none ↔ s.has (d.child name) = .ok false := by
  rw [within?]
  cases s.has (d.child name) <;> simp [Except.map]

lemma within?_some_iff {d : Path} :
    s.within? name d = .ok (some file) ↔ s.has (d.child name) = .ok true ∧ file = d.child name := by
  rw [within?]
  cases s.has (d.child name) <;> simp [Except.map, eq_comm]

lemma within?_error_iff {d : Path} {e : Failure} :
    s.within? name d = .error e ↔ s.has (d.child name) = .error e := by
  rw [within?]
  cases s.has (d.child name) <;> simp [Except.map]

lemma findM?_children (s : Surroundings) (name : Text) (dirs : List Path) :
    (dirs.map (·.child name)).findM? s.has = dirs.findSomeM? (s.within? name) := by
  induction dirs with
  | nil => rfl
  | cons d dirs ih =>
    rw [List.map_cons, List.findM?, List.findSomeM?, ih, within?]
    cases s.has (d.child name) with
    | error e => rfl
    | ok found => cases found <;> rfl

lemma dominating?_eq (s : Surroundings) (directory : Path) (name : Text) :
    s.dominating? directory name =
      (s.upwards directory).bind fun dirs => dirs.findSomeM? (s.within? name) := by
  simp only [← findM?_children]
  rfl

theorem dominating?_some_iff :
    s.dominating? directory name = .ok (some file) ↔ s.Nearest directory name file := by
  rw [dominating?_eq, Nearest]
  cases s.upwards directory with
  | error e => simp [Except.bind]
  | ok dirs =>
    rw [Except.bind, findSomeM?_some_iff]
    simp only [within?_none_iff, within?_some_iff, Except.ok.injEq]

theorem dominating?_none_iff :
    s.dominating? directory name = .ok none ↔ s.Nowhere directory name := by
  rw [dominating?_eq, Nowhere]
  cases s.upwards directory with
  | error e => simp [Except.bind]
  | ok dirs =>
    rw [Except.bind, findSomeM?_none_iff]
    simp only [within?_none_iff, Except.ok.injEq, exists_eq_left']

/-- A path is the nearest of the first of some names that is to be found at all. -/
def Preferred (s : Surroundings) (directory : Path) (names : List Text) (file : Path) : Prop :=
  ∃ missing name others, names = missing ++ name :: others ∧
    (∀ n ∈ missing, s.Nowhere directory n) ∧ s.Nearest directory name file

lemma preferred_of_findSomeM?
    (h : names.findSomeM? (s.dominating? directory) = .ok (some file)) :
    s.Preferred directory names file := by
  obtain ⟨missing, name, others, hnames, hmissing, hname⟩ := findSomeM?_some_iff.1 h
  exact ⟨missing, name, others, hnames, fun n hn => dominating?_none_iff.1 (hmissing n hn),
    dominating?_some_iff.1 hname⟩

lemma nowhere_of_findSomeM? (h : names.findSomeM? (s.dominating? directory) = .ok none) :
    ∀ n ∈ names, s.Nowhere directory n := by
  intro n hn
  exact dominating?_none_iff.1 (findSomeM?_none_iff.1 h n hn)

lemma error_of_findSomeM? {e : Failure}
    (h : names.findSomeM? (s.dominating? directory) = .error e) :
    ∃ n ∈ names, s.dominating? directory n = .error e := by
  obtain ⟨before, n, after, rfl, -, hn⟩ := findSomeM?_error_iff.1 h
  exact ⟨n, by simp, hn⟩

end Surroundings

namespace Execution

variable {s : Surroundings} {directory : Path} {o : ExecOptions} {argv wrapped : List Text}

/-- A command line inside the environment around a directory, as it is handed over. -/
inductive Inside (s : Surroundings) (directory : Path) (o : ExecOptions) (argv : List Text) :
    List Text → Prop
  | direnv {envrc : Path} (wanted : o.useDirenv = true)
      (there : s.Nearest directory ".envrc" envrc) :
      Inside s directory o argv (["direnv".toList, "exec".toList, directory.toText] ++ argv)
  | nix {file : Path} {line : Text}
      (other : o.useDirenv = true → s.Nowhere directory ".envrc") (wanted : o.useNix = true)
      (there : s.Preferred directory environmentFiles file) (words : Shell.split line = .ok argv) :
      Inside s directory o argv ["nix-shell".toList, file.toText, "--run".toList, line]
  | bare (other : o.useDirenv = true → s.Nowhere directory ".envrc")
      (unwanted : o.useNix = true → ∀ name ∈ environmentFiles, s.Nowhere directory name) :
      Inside s directory o argv argv

/-- What opens a terminal in front of a command line. The empty text stands for no terminal. -/
inductive Front (interactive : Bool) (o : ExecOptions) : List Text → Prop
  | terminal {t : Text} {words : List Text} (given : o.terminal = some t) (filled : t ≠ [])
      (outside : interactive = false) (free : o.forceTerminal = false)
      (opens : Shell.split t = .ok words) : Front interactive o (words ++ ["-e".toList])
  | none (unneeded : o.terminal.getD [] = [] ∨ interactive = true ∨ o.forceTerminal = true) :
      Front interactive o []

/-- The search for a file of some environment fails. -/
def Unsearchable (s : Surroundings) (directory : Path) (e : Failure) : Prop :=
  ∃ name ∈ ".envrc".toList :: environmentFiles, s.dominating? directory name = .error e

lemma wrapEnvironment_eq (s : Surroundings) (directory : Path) (o : ExecOptions)
    (argv : List Text) :
    wrapEnvironment s directory o argv =
      (if o.useDirenv then s.dominating? directory ".envrc" else .ok none).bind fun
        | some _ => .ok (["direnv".toList, "exec".toList, directory.toText] ++ argv)
        | none => (if o.useNix then environmentFile? s directory else .ok none).bind fun
          | some file => .ok ["nix-shell", file.toText, "--run", Shell.join argv]
          | none => .ok argv := by
  unfold wrapEnvironment
  cases o.useDirenv with
  | false => cases o.useNix <;> rfl
  | true =>
    cases s.dominating? directory ".envrc" with
    | error e => rfl
    | ok envrc => cases envrc <;> cases o.useNix <;> rfl

section Search

variable {wanted : Bool} {search : Except Failure (Option Path)}

lemma wanted_none_iff :
    (if wanted then search else .ok none) = .ok none ↔ (wanted = true → search = .ok none) := by
  cases wanted <;> simp

lemma wanted_some_iff {file : Path} :
    (if wanted then search else .ok none) = .ok (some file) ↔
      wanted = true ∧ search = .ok (some file) := by
  cases wanted <;> simp

lemma wanted_error_iff {e : Failure} :
    (if wanted then search else .ok none) = .error e ↔ wanted = true ∧ search = .error e := by
  cases wanted <;> simp

end Search

/-- A command line is put into the environment around its directory, unless the search for that
fails. -/
theorem wrapEnvironment_inside (s : Surroundings) (directory : Path) (o : ExecOptions)
    (argv : List Text) :
    match wrapEnvironment s directory o argv with
    | .ok wrapped => Inside s directory o argv wrapped
    | .error e => Unsearchable s directory e := by
  rw [wrapEnvironment_eq]
  cases hd : (if o.useDirenv then s.dominating? directory ".envrc" else .ok none) with
  | error e => exact ⟨_, List.mem_cons_self, (wanted_error_iff.1 hd).2⟩
  | ok envrc =>
    cases envrc with
    | some envrc =>
      obtain ⟨hwanted, hfound⟩ := wanted_some_iff.1 hd
      exact .direnv hwanted (Surroundings.dominating?_some_iff.1 hfound)
    | none =>
      have hother (hw : o.useDirenv = true) : s.Nowhere directory ".envrc" :=
        Surroundings.dominating?_none_iff.1 (wanted_none_iff.1 hd hw)
      cases hn : (if o.useNix then environmentFile? s directory else .ok none) with
      | error e =>
        obtain ⟨-, hsearch⟩ := wanted_error_iff.1 hn
        obtain ⟨name, hname, he⟩ := Surroundings.error_of_findSomeM? hsearch
        exact ⟨name, List.mem_cons_of_mem _ hname, he⟩
      | ok file =>
        cases file with
        | some file =>
          obtain ⟨hwanted, hfound⟩ := wanted_some_iff.1 hn
          exact .nix hother hwanted (Surroundings.preferred_of_findSomeM? hfound)
            (Shell.split_join argv)
        | none =>
          exact .bare hother fun hw => Surroundings.nowhere_of_findSomeM? (wanted_none_iff.1 hn hw)

lemma wrapTerminal_front (interactive : Bool) (argv : List Text)
    (h : ∀ t, o.terminal = some t → ∃ words, Shell.split t = .ok words) :
    ∃ front, Front interactive o front ∧
      wrapTerminal false interactive o argv = .ok (front ++ argv) := by
  unfold wrapTerminal
  split
  · next ht => exact ⟨[], .none (.inl (by rw [ht]; rfl)), rfl⟩
  · next t ht =>
    obtain ⟨words, hwords⟩ := h t ht
    split
    · next hc =>
      refine ⟨[], .none ?_, rfl⟩
      simpa [ht, or_assoc] using hc
    · next hc =>
      simp only [Bool.or_false, Bool.or_eq_true, List.isEmpty_iff, not_or, Bool.not_eq_true] at hc
      exact ⟨_, .terminal ht hc.1.1 hc.1.2 hc.2 hwords, by simp [hwords, Except.map]⟩

/-- The end of a run in the foreground, once its command line is known. -/
def handOver (inputs : Inputs) (directory : Path) (argv : List Text) : Dialogue Deed Int :=
  .ask (.run ⟨argv, some directory, some inputs.environment, inputs.text?⟩) fun
    | none => .fail (.executableMissing (argv.headD []))
    | some r => .done r.code

/-- What a run in the foreground does with its script. -/
def useScript (s : Surroundings) (c : Command) (inputs : Inputs) (directory : Path)
    (o : ExecOptions) (extra : List Text) (interactive : Bool) (script : Text) :
    Dialogue Deed Int :=
  match commandLine s c inputs directory o extra interactive script with
  | .error e => .fail e
  | .ok argv => handOver inputs directory argv

variable {c : Command} {inputs : Inputs} {extra : List Text} {interactive : Bool}

lemma run_foreground (h : c.background = false) :
    run s c inputs directory o extra interactive =
      withScript c false (useScript s c inputs directory o extra interactive) := by
  unfold run
  rw [h]
  refine congrArg (withScript c false) (funext fun script => ?_)
  unfold useScript
  cases commandLine s c inputs directory o extra interactive script with
  | error e => rfl
  | ok argv =>
    refine congrArg (Dialogue.ask _) (funext fun outcome => ?_)
    cases outcome <;> rfl

/-- A command that is run in the foreground hands over the words of its script, its inputs and the
arguments after them unchanged, inside the environment of the project and behind the words that open
a terminal. Nothing but the search for the environment can stop it once its script is written. -/
theorem run_hands_over (s : Surroundings) {c : Command} (inputs : Inputs) (directory : Path)
    {o : ExecOptions} (extra : List Text) (interactive : Bool) {program : Text}
    (foreground : c.background = false) (executable : c.language.interpreter? = some program)
    (readable : ∀ t, o.terminal = some t → ∃ words, Shell.split t = .ok words) :
    let use := useScript s c inputs directory o extra interactive
    run s c inputs directory o extra interactive = withScript c false use ∧
    ∀ script,
      (∃ front wrapped, Front interactive o front ∧
        Inside s directory o ([program, script] ++ inputs.arguments ++ extra) wrapped ∧
        use script = handOver inputs directory (front ++ wrapped)) ∨
      ∃ e, Unsearchable s directory e ∧ use script = .fail e := by
  refine ⟨run_foreground foreground, fun script => ?_⟩
  let words := [program, script] ++ inputs.arguments ++ extra
  have hline : commandLine s c inputs directory o extra interactive script =
      (wrapEnvironment s directory o words).bind (wrapTerminal false interactive o) := by
    rw [commandLine, scriptLine, executable, foreground]
    rfl
  have hinside := wrapEnvironment_inside s directory o words
  unfold useScript
  rw [hline]
  cases hw : wrapEnvironment s directory o words with
  | error e =>
    rw [hw] at hinside
    exact .inr ⟨e, hinside, rfl⟩
  | ok wrapped =>
    rw [hw] at hinside
    obtain ⟨front, hfront, hterminal⟩ := wrapTerminal_front interactive wrapped readable
    refine .inl ⟨front, wrapped, hfront, hinside, ?_⟩
    rw [Except.bind, hterminal]

/-- A project with an environment of its own. -/
def fitted : Surroundings where
  files := .directory [("p", .directory [("shell.nix", .file []), ("src", .directory [])])]
  directory := ["p", "src"]

/-- Work in it goes on outside of a terminal. -/
def outside : ExecOptions where
  useDirenv := true
  useNix := true
  terminal := some "st -T 'my term'"

def echoing : Command := { name := "echo", language := .bash, source := "echo \"$@\"\n" }

theorem run_hands_over_in_nix :
    let inputs : Inputs := { arguments := ["it's", ""] }
    let directory : Path := ⟨1, ["p", "src"]⟩
    let use := useScript fitted echoing inputs directory outside ["$x\n"] false
    echoing.background = false ∧ echoing.language.interpreter? = some "bash".toList ∧
    (∀ t, outside.terminal = some t → ∃ words, Shell.split t = .ok words) ∧
    run fitted echoing inputs directory outside ["$x\n"] false = withScript echoing false use ∧
    use "/tmp/s.sh" = handOver inputs directory
      ["st", "-T", "my term", "-e", "nix-shell", "/p/shell.nix", "--run",
        "bash /tmp/s.sh 'it'\"'\"'s' '' '$x\n'"] ∧
    ∃ front wrapped, Front false outside front ∧
      Inside fitted directory outside ["bash", "/tmp/s.sh", "it's", "", "$x\n"] wrapped ∧
      use "/tmp/s.sh" = handOver inputs directory (front ++ wrapped) := by
  intro inputs directory use
  have hterminal (t : Text) (ht : outside.terminal = some t) :
      ∃ words, Shell.split t = .ok words := by
    cases ht
    exact ⟨["st", "-T", "my term"], by decide⟩
  obtain ⟨hrun, huse⟩ :=
    run_hands_over fitted (c := echoing) inputs directory ["$x\n"] false rfl rfl hterminal
  have hcall : use "/tmp/s.sh" = handOver inputs directory
      ["st", "-T", "my term", "-e", "nix-shell", "/p/shell.nix", "--run",
        "bash /tmp/s.sh 'it'\"'\"'s' '' '$x\n'"] := by rfl
  refine ⟨rfl, rfl, hterminal, hrun, hcall, ?_⟩
  rcases huse "/tmp/s.sh" with h | ⟨e, -, he⟩
  · exact h
  · cases hcall.symm.trans he

end Execution
end Runbook
