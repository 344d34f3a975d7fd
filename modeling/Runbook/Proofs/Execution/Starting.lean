import Mathlib.Tactic.Common
import Runbook.Catalog.Extraction
import Runbook.Proofs.Execution.Environment
import Runbook.Proofs.Files.Surroundings
import Runbook.Proofs.Resolution.Dialogue
import Runbook.Proofs.Session.Ending

/-! What can keep a command from being started. Its script has no place where there is a slash in
the name of the command, its language may have no interpreter, and the search for its environment
can come to a path that is too long. Of these only the language is a mistake that the user is told
about. -/
namespace Runbook

namespace Text

lemma byteCount_append (s t : Text) : byteCount (s ++ t) = byteCount s + byteCount t := by
  rw [byteCount, String.ofList_append, String.utf8ByteSize_append]
  rfl

lemma byteCount_takeWhile_le (p : Char → Bool) (s : Text) :
    byteCount (s.takeWhile p) ≤ byteCount s := by
  have h := byteCount_append (s.takeWhile p) (s.dropWhile p)
  rw [List.takeWhile_append_dropWhile] at h
  omega

end Text

namespace Surroundings

variable {s : Surroundings} {directory : Path} {name : Text} {e : Failure}

/-- The search for a name comes to a path that is too long to be looked up, and has found nothing
before. -/
def Lost (s : Surroundings) (directory : Path) (name : Text) : Prop :=
  ∃ nearer dir farther, s.upwards directory = .ok (nearer ++ dir :: farther) ∧
    (∀ d ∈ nearer, s.has (d.child name) = .ok false) ∧
    s.has (dir.child name) = .error .nameTooLong

/-- The directories above one that is there are known. -/
lemma exists_upwards (there : s.isDirectory directory = .ok true) :
    ∃ dirs, s.upwards directory = .ok dirs := by
  have hnull : directory.hasNull = false := by
    by_contra h
    rw [Bool.not_eq_false] at h
    rw [isDirectory, tree?, find?_eq, if_pos h] at there
    cases there
  rw [upwards, place, hnull]
  exact ⟨_, rfl⟩

lemma dominating?_error_iff (there : s.isDirectory directory = .ok true) :
    s.dominating? directory name = .error e ↔ e = .nameTooLong ∧ s.Lost directory name := by
  obtain ⟨dirs, hdirs⟩ := exists_upwards there
  rw [dominating?_eq, Lost, hdirs, Except.bind, findSomeM?_error_iff]
  simp only [within?_none_iff, within?_error_iff]
  constructor
  · rintro ⟨nearer, dir, farther, rfl, hnearer, hdir⟩
    obtain rfl := has_error hdir
    exact ⟨rfl, nearer, dir, farther, rfl, hnearer, hdir⟩
  · rintro ⟨rfl, nearer, dir, farther, hsplit, hrest⟩
    exact ⟨nearer, dir, farther, Except.ok.inj hsplit, hrest⟩

end Surroundings

namespace Execution

variable {s : Surroundings} {directory : Path} {o : ExecOptions} {argv : List Text} {e : Failure}

/-- The search for the environment around a directory comes to a path that is too long. -/
inductive Astray (s : Surroundings) (directory : Path) (o : ExecOptions) : Prop
  | direnv (wanted : o.useDirenv = true) (lost : s.Lost directory ".envrc")
  | nix {missing others : List Text} {name : Text}
      (other : o.useDirenv = true → s.Nowhere directory ".envrc") (wanted : o.useNix = true)
      (names : environmentFiles = missing ++ name :: others)
      (absent : ∀ m ∈ missing, s.Nowhere directory m) (lost : s.Lost directory name)

lemma environmentFile?_error_iff (there : s.isDirectory directory = .ok true) :
    environmentFile? s directory = .error e ↔ e = .nameTooLong ∧
      ∃ missing name others, environmentFiles = missing ++ name :: others ∧
        (∀ m ∈ missing, s.Nowhere directory m) ∧ s.Lost directory name := by
  rw [environmentFile?, findSomeM?_error_iff]
  simp only [Surroundings.dominating?_none_iff, Surroundings.dominating?_error_iff there]
  tauto

/-- A command line is put into the environment around a directory that is there, unless a path is
too long. -/
theorem wrapEnvironment_error_iff (there : s.isDirectory directory = .ok true) :
    wrapEnvironment s directory o argv = .error e ↔ e = .nameTooLong ∧ Astray s directory o := by
  rw [wrapEnvironment_eq, bind_error_iff, wanted_error_iff,
    Surroundings.dominating?_error_iff there]
  constructor
  · rintro (⟨hwanted, rfl, hlost⟩ | ⟨envrc, henvrc, hnix⟩)
    · exact ⟨rfl, .direnv hwanted hlost⟩
    · cases envrc with
      | some _ => cases hnix
      | none =>
        have hother := wanted_none_iff.mp henvrc
        simp only [Surroundings.dominating?_none_iff] at hother
        rcases bind_error_iff.mp hnix with hsearch | ⟨file, -, hfile⟩
        · obtain ⟨hwanted, hsearch⟩ := wanted_error_iff.mp hsearch
          obtain ⟨rfl, missing, name, others, hnames, habsent, hlost⟩ :=
            (environmentFile?_error_iff there).mp hsearch
          exact ⟨rfl, .nix hother hwanted hnames habsent hlost⟩
        · cases file <;> cases hfile
  · rintro ⟨rfl, hastray⟩
    cases hastray with
    | direnv hwanted hlost => exact .inl ⟨hwanted, rfl, hlost⟩
    | nix hother hwanted hnames habsent hlost =>
      refine .inr ⟨none, wanted_none_iff.mpr fun hw => ?_, ?_⟩
      · exact Surroundings.dominating?_none_iff.mpr (hother hw)
      · refine bind_error_iff.mpr (.inl (wanted_error_iff.mpr ⟨hwanted, ?_⟩))
        exact (environmentFile?_error_iff there).mpr ⟨rfl, _, _, _, hnames, habsent, hlost⟩

end Execution

/-! ### Courses up to a process -/

/-- A process is started. -/
def Deed.starts : Deed → Bool
  | .writeScript .. => false
  | .removeScript _ => false
  | .run _ => true
  | .detach _ => true

namespace Dialogue

variable {α β : Type} {fails : Failure → Prop}

/-- Every course of a dialogue starts a process, or ends before that with one of some failures. -/
def StartsOr (fails : Failure → Prop) (d : Dialogue Deed α) : Prop :=
  ∀ log r, d.Ends log r → (∃ x ∈ log, x.question.starts = true) ∨ ∃ e, r = .error e ∧ fails e

lemma not_startsOr_done (a : α) : ¬ (done a : Dialogue Deed α).StartsOr fails := by
  intro h
  rcases h [] (.ok a) (.done a) with ⟨x, hx, -⟩ | ⟨e, he, -⟩
  · cases hx
  · cases he

lemma startsOr_fail_iff {e : Failure} : (fail e : Dialogue Deed α).StartsOr fails ↔ fails e := by
  constructor
  · intro h
    rcases h [] (.error e) (.fail e) with ⟨x, hx, -⟩ | ⟨e', he', hfails⟩
    · cases hx
    · cases he'
      exact hfails
  · intro h log r hends
    cases hends
    exact .inr ⟨e, rfl, h⟩

lemma startsOr_ask_iff {q : Deed} {next : Asking.Answer q → Dialogue Deed α} :
    (ask q next).StartsOr fails ↔ q.starts = true ∨ ∀ a, (next a).StartsOr fails := by
  constructor
  · intro h
    refine or_iff_not_imp_left.mpr fun hq a log r hends => ?_
    rcases h _ r (.ask hends) with ⟨x, hx, hstarts⟩ | hfails
    · rcases List.mem_cons.mp hx with rfl | hx
      · exact absurd hstarts hq
      · exact .inl ⟨x, hx, hstarts⟩
    · exact .inr hfails
  · rintro h log r hends
    cases hends with
    | @ask _ _ a log _ tail =>
      rcases h with hq | hnext
      · exact .inl ⟨⟨q, a⟩, List.mem_cons_self, hq⟩
      · rcases hnext a log r tail with ⟨x, hx, hstarts⟩ | hfails
        · exact .inl ⟨x, List.mem_cons_of_mem _ hx, hstarts⟩
        · exact .inr hfails

lemma startsOr_writeScript_iff {start finish content : Text} {next : Text → Dialogue Deed α} :
    (ask (.writeScript start finish content) next).StartsOr fails ↔
      ∀ path, (next path).StartsOr fails :=
  startsOr_ask_iff.trans (or_iff_right Bool.false_ne_true)

/-- The removal of a script at the end makes no difference to what is started before. -/
lemma startsOr_endingWith_iff (d : Dialogue Deed α) (path : Text) :
    (d.endingWith (.ask (.removeScript path) fun _ => .done ())).StartsOr fails ↔
      d.StartsOr fails := by
  induction d with
  | done a =>
    refine iff_of_false (fun h => ?_) (not_startsOr_done a)
    rcases startsOr_ask_iff.mp h with hstarts | hdone
    · cases hstarts
    · exact not_startsOr_done a (hdone ())
  | fail e =>
    refine startsOr_ask_iff.trans ⟨?_, fun h => .inr fun _ => h⟩
    rintro (hstarts | hfail)
    · cases hstarts
    · exact hfail ()
  | ask q next ih =>
    rw [endingWith, startsOr_ask_iff, startsOr_ask_iff]
    simp only [ih]

/-- A process that is started once something is known for it. Only what has to be known can fail. -/
lemma startsOr_known_iff {d : Dialogue Deed α} {x : Except Failure β}
    (failing : ∀ e, x = .error e → d = .fail e) (starting : ∀ b, x = .ok b → d.StartsOr fails) :
    d.StartsOr fails ↔ ∀ e, x = .error e → fails e := by
  cases x with
  | error e =>
    rw [failing e rfl, startsOr_fail_iff]
    simp
  | ok b => exact iff_of_true (starting b rfl) nofun

end Dialogue

namespace Execution

variable {s : Surroundings} {c : Command} {inputs : Inputs} {directory : Path} {o : ExecOptions}
  {extra : List Text} {interactive : Bool} {fails : Failure → Prop}

/-- What can be wrong with the command line of a script. -/
inductive LineFault (s : Surroundings) (c : Command) (directory : Path) (o : ExecOptions) :
    Failure → Prop
  | language (unknown : c.language.interpreter? = none) :
      LineFault s c directory o (.unsupportedLanguage c.name c.language)
  | search {program : Text} (known : c.language.interpreter? = some program)
      (astray : Astray s directory o) : LineFault s c directory o .nameTooLong

/-- What can keep a command from being started. -/
inductive Hindrance (s : Surroundings) (c : Command) (directory : Path) (o : ExecOptions) :
    Failure → Prop
  | slash (inside : '/' ∈ c.name) : Hindrance s c directory o .fileMissing
  | line {e : Failure} (outside : '/' ∉ c.name) (fault : LineFault s c directory o e) :
      Hindrance s c directory o e

lemma byteCount_suffix_le (l : Language) : Text.byteCount l.suffix ≤ 3 := by
  cases l <;> decide +kernel

/-- With a short name of its command the name of a script is not too long. -/
lemma byteCount_script_le (short : Text.byteCount c.name ≤ 200) :
    Text.byteCount ("nixon-" ++ c.name ++ ['-'] ++ List.replicate 8 'x' ++ c.language.suffix) ≤
      218 := by
  have hstart : Text.byteCount "nixon-" = 6 := by decide +kernel
  have hdash : Text.byteCount ['-'] = 1 := by decide +kernel
  have hrandom : Text.byteCount (List.replicate 8 'x') = 8 := by decide +kernel
  have hsuffix := byteCount_suffix_le c.language
  simp only [Text.byteCount_append]
  omega

/-- A short name without a null character can stand in that of a script exactly if there is no slash
in it. -/
lemma nameFault?_eq (clear : '\x00' ∉ c.name) (short : Text.byteCount c.name ≤ 200) :
    nameFault? ("nixon-" ++ c.name ++ ['-']) c.language.suffix =
      if '/' ∈ c.name then some .fileMissing else none := by
  have hnull : ("nixon-" ++ c.name ++ ['-']).contains '\x00' = false := by simpa using clear
  have hslash : ("nixon-" ++ c.name ++ ['-']).contains '/' = decide ('/' ∈ c.name) := by simp
  have hsize := byteCount_script_le short
  unfold nameFault?
  generalize "nixon-" ++ c.name ++ ['-'] ++ List.replicate 8 'x' ++ c.language.suffix = whole
    at hsize ⊢
  have hpath : Path.isLongText (scriptDirectory ++ whole) = false := by
    have hdirectory : Text.byteCount scriptDirectory = 5 := by decide +kernel
    rw [Path.isLongText, Text.byteCount_append, decide_eq_false_iff_not, Path.longest]
    omega
  have hname : Path.isLongName (whole.takeWhile (· != '/')) = false := by
    have hle := Text.byteCount_takeWhile_le (· != '/') whole
    rw [Path.isLongName, decide_eq_false_iff_not, Path.longestName]
    omega
  simp only [hnull, hpath, hname, hslash, Bool.false_eq_true, if_false, decide_eq_true_eq]

section Script

variable {α : Type} {kept : Bool} {use : Text → Dialogue Deed α}

/-- Nothing is done for a command with a slash in its name. -/
lemma withScript_slash (clear : '\x00' ∉ c.name) (short : Text.byteCount c.name ≤ 200)
    (inside : '/' ∈ c.name) : withScript c kept use = .fail .fileMissing := by
  rw [withScript, nameFault?_eq clear short, if_pos inside]

/-- A script whose use starts a process unless there is a fault in its line. -/
lemma startsOr_withScript_iff (clear : '\x00' ∉ c.name) (short : Text.byteCount c.name ≤ 200)
    (h : ∀ script, (use script).StartsOr fails ↔ ∀ e, LineFault s c directory o e → fails e) :
    (withScript c kept use).StartsOr fails ↔ ∀ e, Hindrance s c directory o e → fails e := by
  by_cases hslash : '/' ∈ c.name
  · rw [withScript_slash clear short hslash, Dialogue.startsOr_fail_iff]
    refine ⟨fun hfails e he => ?_, fun hall => hall _ (.slash hslash)⟩
    cases he with
    | slash => exact hfails
    | line outside => exact absurd hslash outside
  · have huse : (withScript c kept use).StartsOr fails ↔ ∀ script, (use script).StartsOr fails := by
      rw [withScript, nameFault?_eq clear short, if_neg hslash]
      dsimp only
      rw [Dialogue.startsOr_writeScript_iff]
      cases kept with
      | true => rfl
      | false =>
        exact forall_congr' fun script => Dialogue.startsOr_endingWith_iff (use script) script
    rw [huse]
    refine ⟨fun hscript e he => ?_, fun hall script => ?_⟩
    · cases he with
      | slash inside => exact absurd inside hslash
      -- Any path will do, since what is wrong with the line does not depend on it.
      | line _ fault => exact (h []).mp (hscript []) e fault
    · exact (h script).mpr fun e fault => hall e (.line hslash fault)

end Script

/-- The line of a script is put into its environment unless there is a fault in it, whatever words
are added to it before. -/
lemma line_error_iff (there : s.isDirectory directory = .ok true) (words : List Text → List Text)
    (script : Text) {e : Failure} :
    ((scriptLine c script).bind fun line => wrapEnvironment s directory o (words line)) =
        .error e ↔ LineFault s c directory o e := by
  rw [bind_error_iff, scriptLine]
  cases hprogram : c.language.interpreter? with
  | none =>
    constructor
    · rintro (he | ⟨_, h, -⟩)
      · cases he
        exact .language hprogram
      · cases h
    · rintro (_ | ⟨known, -⟩)
      · exact .inl rfl
      · cases hprogram.symm.trans known
  | some program =>
    constructor
    · rintro (he | ⟨line, -, hwrapped⟩)
      · cases he
      · obtain ⟨rfl, astray⟩ := (wrapEnvironment_error_iff there).mp hwrapped
        exact .search hprogram astray
    · rintro (unknown | ⟨-, astray⟩)
      · cases hprogram.symm.trans unknown
      · exact .inr ⟨_, rfl, (wrapEnvironment_error_iff there).mpr ⟨rfl, astray⟩⟩

lemma wrapTerminal_ok (background interactive : Bool) (argv : List Text)
    (readable : ∀ t, o.terminal = some t → ∃ words, Shell.split t = .ok words) :
    ∃ wrapped, wrapTerminal background interactive o argv = .ok wrapped := by
  cases background with
  | false =>
    obtain ⟨front, -, hfront⟩ := wrapTerminal_front interactive argv readable
    exact ⟨front ++ argv, hfront⟩
  | true =>
    refine ⟨argv, ?_⟩
    unfold wrapTerminal
    cases o.terminal <;> simp

/-- A terminal whose own line can be read brings no other faults. -/
lemma commandLine_error_iff (there : s.isDirectory directory = .ok true)
    (readable : ∀ t, o.terminal = some t → ∃ words, Shell.split t = .ok words) (script : Text)
    {e : Failure} :
    commandLine s c inputs directory o extra interactive script = .error e ↔
      LineFault s c directory o e := by
  have hline : commandLine s c inputs directory o extra interactive script =
      ((scriptLine c script).bind fun line =>
        wrapEnvironment s directory o (line ++ inputs.arguments ++ extra)).bind
          (wrapTerminal c.background interactive o) := by
    rw [commandLine]
    cases scriptLine c script <;> rfl
  rw [hline, bind_error_iff, line_error_iff there (· ++ inputs.arguments ++ extra)]
  refine or_iff_left ?_
  rintro ⟨wrapped, -, hterminal⟩
  obtain ⟨argv, hargv⟩ := wrapTerminal_ok c.background interactive wrapped readable
  cases hargv.symm.trans hterminal

lemma startsOr_evaluate_iff (clear : '\x00' ∉ c.name) (short : Text.byteCount c.name ≤ 200)
    (there : s.isDirectory directory = .ok true) :
    (evaluate s c inputs directory o).StartsOr fails ↔
      ∀ e, Hindrance s c directory o e → fails e := by
  refine startsOr_withScript_iff clear short fun script => ?_
  have hline (e : Failure) : ((scriptLine c script).bind fun line =>
      wrapEnvironment s directory o (line ++ inputs.arguments)) = .error e ↔
        LineFault s c directory o e :=
    line_error_iff there (· ++ inputs.arguments) script
  simp only [← hline]
  refine Dialogue.startsOr_known_iff (fun e he => ?_) fun argv hargv => ?_
  · change (scriptLine c script >>= fun line => _) = _ at he
    rw [he]
  · change (scriptLine c script >>= fun line => _) = _ at hargv
    rw [hargv]
    exact Dialogue.startsOr_ask_iff.mpr (.inl rfl)

lemma startsOr_run_iff (clear : '\x00' ∉ c.name) (short : Text.byteCount c.name ≤ 200)
    (there : s.isDirectory directory = .ok true)
    (readable : ∀ t, o.terminal = some t → ∃ words, Shell.split t = .ok words) :
    (run s c inputs directory o extra interactive).StartsOr fails ↔
      ∀ e, Hindrance s c directory o e → fails e := by
  refine startsOr_withScript_iff clear short fun script => ?_
  have hline (e : Failure) : commandLine s c inputs directory o extra interactive script =
      .error e ↔ LineFault s c directory o e :=
    commandLine_error_iff there readable script
  simp only [← hline]
  refine Dialogue.startsOr_known_iff (fun e he => ?_) fun argv hargv => ?_
  · rw [he]
  · rw [hargv]
    dsimp only
    split <;> exact Dialogue.startsOr_ask_iff.mpr (.inl rfl)

/-- All that can keep a command from being started is a mistake exactly if there is no slash in its
name, and its environment is either found or not looked for. -/
lemma hindrance_mistaken_iff :
    (∀ e, Hindrance s c directory o e → e.kind = .mistake) ↔
      '/' ∉ c.name ∧ (Astray s directory o → c.language.interpreter? = none) := by
  constructor
  · intro h
    have houtside (inside : '/' ∈ c.name) : False := nomatch h _ (.slash inside)
    refine ⟨houtside, fun astray => Option.eq_none_iff_forall_ne_some.mpr fun program known => ?_⟩
    exact nomatch h _ (.line houtside (.search known astray))
  · rintro ⟨outside, hsearch⟩ e (inside | ⟨-, fault⟩)
    · exact absurd inside outside
    · cases fault with
      | language => rfl
      | search known astray => cases known.symm.trans (hsearch astray)

/-- A command with a short name and a directory that is there is started, or fails by a mistake that
the user is told about, exactly if no slash stands in its name and the search for its environment
does not come to a path that is too long. This holds for both ways to run it, and nothing else can
happen to it before it is started. -/
theorem starts_or_mistaken (s : Surroundings) {c : Command} (inputs : Inputs) {directory : Path}
    {o : ExecOptions} (extra : List Text) (interactive : Bool) (clear : '\x00' ∉ c.name)
    (short : Text.byteCount c.name ≤ 200) (there : s.isDirectory directory = .ok true)
    (readable : ∀ t, o.terminal = some t → ∃ words, Shell.split t = .ok words) :
    let evaluation := evaluate s c inputs directory o
    let execution := run s c inputs directory o extra interactive
    let free := '/' ∉ c.name ∧ (Astray s directory o → c.language.interpreter? = none)
    (evaluation.StartsOr (·.kind = .mistake) ↔ free) ∧
    (execution.StartsOr (·.kind = .mistake) ↔ free) ∧
    evaluation.StartsOr (Hindrance s c directory o) ∧
    execution.StartsOr (Hindrance s c directory o) := by
  intro evaluation execution free
  have hevaluate (fails : Failure → Prop) :
      evaluation.StartsOr fails ↔ ∀ e, Hindrance s c directory o e → fails e :=
    startsOr_evaluate_iff clear short there
  have hrun (fails : Failure → Prop) :
      execution.StartsOr fails ↔ ∀ e, Hindrance s c directory o e → fails e :=
    startsOr_run_iff clear short there readable
  refine ⟨?_, ?_, (hevaluate _).mpr fun _ => id, (hrun _).mpr fun _ => id⟩
  · exact (hevaluate _).trans hindrance_mistaken_iff
  · exact (hrun _).trans hindrance_mistaken_iff

/-- A command with an odd name. -/
def measuring : Command :=
  { name := "größe;$(rm)*'\"\\..", language := .python, source := "print(1)\n" }

theorem starts_or_mistaken_measuring :
    let directory : Path := ⟨1, ["p", "src"]⟩
    '\x00' ∉ measuring.name ∧ Text.byteCount measuring.name ≤ 200 ∧
    fitted.isDirectory directory = .ok true ∧
    (∀ t, outside.terminal = some t → ∃ words, Shell.split t = .ok words) ∧
    (evaluate fitted measuring {} directory outside).StartsOr (·.kind = .mistake) ∧
    (run fitted measuring {} directory outside ["$x"] false).StartsOr (·.kind = .mistake) := by
  intro directory
  have clear : '\x00' ∉ measuring.name := by decide
  have short : Text.byteCount measuring.name ≤ 200 := by decide +kernel
  have there : fitted.isDirectory directory = .ok true := by decide +kernel
  have readable (t : Text) (ht : outside.terminal = some t) :
      ∃ words, Shell.split t = .ok words := by
    cases ht
    exact ⟨["st", "-T", "my term"], by decide⟩
  have hfound : wrapEnvironment fitted directory outside [] =
      .ok ["nix-shell", "/p/shell.nix", "--run", ""] := by decide +kernel
  have found : ¬ Astray fitted directory outside := fun astray =>
    nomatch hfound.symm.trans ((wrapEnvironment_error_iff there).mpr ⟨rfl, astray⟩)
  have free : '/' ∉ measuring.name ∧
      (Astray fitted directory outside → measuring.language.interpreter? = none) :=
    ⟨by decide, fun astray => absurd astray found⟩
  obtain ⟨hevaluate, hrun, -⟩ :=
    starts_or_mistaken fitted (c := measuring) {} ["$x"] false clear short there readable
  exact ⟨clear, short, there, readable, hevaluate.mpr free, hrun.mpr free⟩

/-- A document with a command whose name has a slash in it. -/
def slashed : Text := Text.unlines ["# `build/all`", "```bash", "make", "```"]

/-- The command in it can be read, but neither evaluated nor run. -/
theorem starts_slashed : ∃ c,
    Catalog.parse "c.md" slashed = .ok ⟨none, [c], "c.md"⟩ ∧
    '\x00' ∉ c.name ∧ Text.byteCount c.name ≤ 200 ∧
    let directory : Path := ⟨1, ["p", "src"]⟩
    fitted.isDirectory directory = .ok true ∧
    evaluate fitted c {} directory {} = .fail .fileMissing ∧
    run fitted c {} directory {} [] true = .fail .fileMissing ∧
    ¬ (evaluate fitted c {} directory {}).StartsOr (·.kind = .mistake) ∧
    ¬ (run fitted c {} directory {} [] true).StartsOr (·.kind = .mistake) := by
  let c : Command :=
    { name := "build/all", language := .bash, source := "make\n"
      location := some ⟨"c.md", 1, 4, 1⟩ }
  have clear : '\x00' ∉ c.name := by decide
  have short : Text.byteCount c.name ≤ 200 := by decide +kernel
  have inside : '/' ∈ c.name := by decide
  have hevaluate : evaluate fitted c {} ⟨1, ["p", "src"]⟩ {} = .fail .fileMissing :=
    withScript_slash clear short inside
  have hrun : run fitted c {} ⟨1, ["p", "src"]⟩ {} [] true = .fail .fileMissing :=
    withScript_slash clear short inside
  refine ⟨c, by decide +kernel, clear, short, by decide +kernel, hevaluate, hrun, ?_, ?_⟩
  · rw [hevaluate, Dialogue.startsOr_fail_iff]
    decide
  · rw [hrun, Dialogue.startsOr_fail_iff]
    decide

end Execution
end Runbook
