import Mathlib.Data.List.Basic
import Runbook.Proofs.Resolution.Nesting
import Runbook.Proofs.Session.Errand

/-! When an invocation runs a command: at most once, as the last thing it does, and with the inputs
that the command was resolved to. No command is run by the phases before, and where something is
only shown none is evaluated either. -/
namespace Runbook
open CommandLine Resolution

namespace Request

/-- A command is run. -/
def runs : Request → Bool
  | .run .. => true
  | _ => false

/-- A command is evaluated. -/
def evaluates : Request → Bool
  | .about (.output ..) => true
  | _ => false

/-- No command is started. -/
def Idle (r : Request) : Prop := r.runs = false ∧ r.evaluates = false

end Request

/-! ### What the phases ask for -/

lemma Dialogue.Meets.runless {α : Type} {d : Dialogue Request α} {gives : α → Prop}
    (h : d.Meets Request.Idle gives) : d.Meets (fun r => r.runs = false) gives :=
  h.mono (fun _ hr => hr.1) fun _ ha => ha

/-- A selection is asked for. -/
def Resolution.Question.selects : Question → Prop
  | .output .. => False
  | .selection .. => True

lemma meets_reported (level : Level) (notes : List Note) :
    (reported level notes).Meets Request.Idle fun _ => True := by
  induction notes with
  | nil => trivial
  | cons n notes ih => exact ⟨⟨rfl, rfl⟩, fun _ => ih⟩

lemma meets_withNotes {α : Type} (level : Level) (x : Noted α) :
    (withNotes level x).Meets Request.Idle fun _ => True :=
  (meets_reported level x.notes).bind fun _ _ => Dialogue.meets_ofExcept _

namespace Choice

lemma meets_one (o : SelectionOptions) (kind : Text) (query : Option Text) (cs : List Candidate) :
    (one o kind query cs).Meets Question.selects fun _ => True := by
  have hselection (o' : SelectionOptions) :
      (selection o' cs).Meets Question.selects fun _ => True :=
    ⟨trivial, fun _ => Dialogue.meets_ofExcept _⟩
  refine (hselection _).bind fun s _ => ?_
  cases s with
  | chosen values => cases values <;> trivial
  | empty => trivial
  | cancelled => trivial

lemma meets_known {α : Type} (x : Option α) :
    (known x).Meets Question.selects fun _ => True := by
  cases x <;> trivial

lemma meets_command (o : SelectionOptions) (p : Project) (cs : List Command)
    (query : Option Text) : (command o p cs query).Meets Question.selects fun _ => True := by
  unfold command
  split
  · trivial
  · unfold offeredCommand
    dsimp only
    split
    · trivial
    · exact (meets_one o _ _ _).bind fun name _ => meets_known _

lemma meets_project (o : SelectionOptions) (s : Surroundings) (types : List ProjectType)
    (ps : List Project) (query : Option Text) :
    (project o s types ps query).Meets Question.selects fun _ => True := by
  unfold project
  split
  · trivial
  · trivial
  · unfold listedProject
    dsimp only
    split
    · trivial
    · exact (meets_one o _ _ _).bind fun path _ => meets_known _

end Choice

namespace Session
variable (s : Session)

lemma meets_put (q : Question) : (s.put q).Meets (fun r => r.runs = false) fun _ => True := by
  cases q with
  | output c inputs wantedBy =>
    refine (meets_reported _ _).runless.bind fun _ _ => ?_
    exact ⟨rfl, fun _ => trivial⟩
  | selection o cs => exact ⟨rfl, fun _ => trivial⟩

lemma meets_put_selecting {q : Question} (h : q.selects) :
    (s.put q).Meets Request.Idle fun _ => True := by
  cases q with
  | output c inputs wantedBy => exact h.elim
  | selection o cs => exact ⟨⟨rfl, rfl⟩, fun _ => trivial⟩

lemma meets_consult_selecting {α : Type} {d : Course α}
    (h : d.Meets Question.selects fun _ => True) :
    (s.consult d).Meets Request.Idle fun _ => True :=
  h.rephrase fun _ hq => s.meets_put_selecting hq

lemma meets_consult {α : Type} (d : Course α) :
    (s.consult d).Meets (fun r => r.runs = false) fun _ => True :=
  d.meets_true.rephrase fun q _ => s.meets_put q

end Session

/-- What a sub-command may come to. -/
def CommandLine.Subcommand.Allows (sub : Subcommand) : Intent → Prop
  | .print _ => True
  | .edit _ => sub.showsOnly = false
  | .execute _ _ extra => sub.showsOnly = false ∧ extra = sub.extra

namespace Session
variable (s : Session)

lemma meets_intentIn (p : Project) (r : RunCommand) :
    (s.intentIn p r).Meets Request.Idle (Subcommand.run r).Allows := by
  unfold intentIn
  split
  · trivial
  · next hlist =>
    have hlist : r.list = false := Bool.eq_false_iff.mpr hlist
    refine (s.meets_consult_selecting (Choice.meets_command ..)).bind fun c _ => ?_
    split
    · trivial
    · next hselect =>
      have hselect : r.select = false := Bool.eq_false_iff.mpr hselect
      have hshows : (Subcommand.run r).showsOnly = false := by
        simp [Subcommand.showsOnly, hlist, hselect]
      split
      · split
        · trivial
        · exact hshows
      · exact ⟨hshows, rfl⟩

/-- A sub-command starts no command before its intent is known, and comes to nothing else than it
may. -/
theorem meets_intent (sub : Subcommand) : (s.intent sub).Meets Request.Idle sub.Allows := by
  cases sub with
  | run r =>
    refine (Dialogue.meets_ofExcept _).bind fun p _ => ?_
    exact (meets_reported _ _).bind fun _ _ => s.meets_intentIn p r
  | project r =>
    refine (meets_withNotes _ _).bind fun ps _ => ?_
    split
    · trivial
    · next hlist =>
      have hlist : r.list = false := Bool.eq_false_iff.mpr hlist
      refine (s.meets_consult_selecting (Choice.meets_project ..)).bind fun p _ => ?_
      split
      · trivial
      · next hselect =>
        have hselect : r.select = false := Bool.eq_false_iff.mpr hselect
        have hshows : (Subcommand.project r).showsOnly = false := by
          simp [Subcommand.showsOnly, hlist, hselect]
        refine (s.meets_intentIn p _).mono (fun _ h => h) fun intent h => ?_
        cases intent with
        | print text => trivial
        | edit location => exact hshows
        | execute p c extra => exact ⟨hshows, h.2⟩
  | eval e =>
    refine (Dialogue.meets_ofExcept _).bind fun p _ => ?_
    refine (Dialogue.meets_ofExcept _).bind fun c _ => ?_
    exact ⟨rfl, rfl⟩

lemma meets_prepare (intent : Intent) :
    (s.prepare intent).Meets (fun r => r.runs = false) fun _ => True := by
  cases intent with
  | print text => trivial
  | edit location => trivial
  | execute p c extra => exact ⟨rfl, fun _ => (s.meets_consult _).bind fun _ _ => trivial⟩

end Session

namespace CommandLine.Invocation
variable (i : Invocation) (s : Surroundings) (interactive : Bool) (sub : Subcommand)

/-- Nothing is run while the last deed is prepared. -/
lemma meets_prepare :
    (i.prepare s interactive sub).Meets (fun r => r.runs = false) fun _ => True := by
  refine (meets_withNotes _ _).runless.bind fun config _ => ?_
  refine ⟨rfl, fun _ => ?_⟩
  refine (Session.meets_intent _ sub).runless.bind fun intent _ => ?_
  exact Session.meets_prepare _ intent

/-- Where something is only shown, it is what is prepared, and no command is started for it. -/
lemma meets_prepare_showing (shows : sub.showsOnly = true) :
    (i.prepare s interactive sub).Meets Request.Idle fun e => ∃ text, e = .print text := by
  refine (meets_withNotes _ _).bind fun config _ => ?_
  refine ⟨⟨rfl, rfl⟩, fun _ => ?_⟩
  refine (Session.meets_intent _ sub).bind fun intent allowed => ?_
  cases intent with
  | print text => exact ⟨text, rfl⟩
  | edit location => exact absurd shows (by simp [show sub.showsOnly = false from allowed])
  | execute p c extra => exact absurd shows (by simp [allowed.1])

/-! ### What a run is preceded by -/

/-- A run with all that it comes from: the configuration is loaded, the project and the command are
chosen, and the inputs are what the command is resolved to, in this order. -/
inductive Readied : List (Exchanged Request) → Request → Prop
  | resolved {config : Config} {p : Project} {c : Command} {inputs : Inputs}
      {loading choosing resolving : List (Exchanged Request)}
      (loaded : (i.loading s).Ends loading (.ok config))
      (chosen : ((Session.started s interactive config).intent sub).Ends choosing
        (.ok (.execute p c sub.extra)))
      (resolved : ((Session.started s interactive config).consult
        (((Session.started s interactive config).context p).resolve [] c)).Ends resolving
        (.ok inputs)) :
      Readied
        (loading ++ ⟨backendRequest interactive config, ()⟩ :: (choosing ++
          ⟨.evaluateIn p.path (Session.started s interactive config).execOptions, ()⟩ :: resolving))
        (.run c inputs p.path (Session.started s interactive config).execOptions sub.extra
          interactive)

variable {i s interactive sub}

lemma readied_of_ends {log : List (Exchanged Request)} {e : Errand}
    (h : (i.prepare s interactive sub).Ends log (.ok e)) (hruns : e.request.runs = true) :
    i.Readied s interactive sub log e.request := by
  obtain ⟨config, loading, back, loaded, hback, rfl⟩ := h.of_bind_ok
  cases hback with
  | ask hback =>
    obtain ⟨intent, choosing, last, chosen, hlast, rfl⟩ := hback.of_bind_ok
    have allowed := ((Session.meets_intent _ sub).of_ends chosen).2 intent rfl
    cases intent with
    | print text =>
      cases hlast
      cases hruns
    | edit location =>
      cases hlast
      cases hruns
    | execute p c extra =>
      obtain rfl : extra = sub.extra := allowed.2
      cases hlast with
      | ask hlast =>
        obtain ⟨inputs, resolving, none, resolved, hnone, rfl⟩ := hlast.of_bind_ok
        cases hnone
        rw [List.append_nil]
        exact .resolved loaded chosen resolved

end CommandLine.Invocation

/-! ### What is done at the end -/

/-- The end that an exit status or a failure leads to. -/
def concluded : Except Failure Int → Except Failure Int
  | .ok code => .ok code
  | .error e => e.outcome

/-- What is told between the last deed and the end. -/
def closing : Except Failure Int → List (Exchanged Request)
  | .ok _ => []
  | .error e => e.reports

lemma run_carryOut (e : Errand) (answering : Answering Request) (past : List (Exchanged Request)) :
    ((e.carryOut.rescue told).run answering.reply).run past =
      (concluded (e.status (answering past e.request)),
        past ++ ⟨e.request, answering past e.request⟩ ::
          closing (e.status (answering past e.request))) := by
  have hask : (e.carryOut.run answering.reply).run past =
      (e.status (answering past e.request), past ++ [⟨e.request, answering past e.request⟩]) := by
    change ((Dialogue.ofExcept (e.status (answering past e.request))).run answering.reply).run
      (past ++ [⟨e.request, answering past e.request⟩]) = _
    cases e.status (answering past e.request) <;> rfl
  rw [Dialogue.run_reply_rescue, hask]
  cases e.status (answering past e.request) with
  | ok code => rfl
  | error e' =>
    change ((told e').run answering.reply).run _ = _
    rw [run_told]
    simp [concluded, closing]

namespace CommandLine.Invocation

/-- What becomes of an invocation is decided by what it has prepared. -/
theorem held_perform {i : Invocation} (s : Surroundings) (interactive : Bool) {sub : Subcommand}
    (named : i.subcommand = some sub) (answering : Answering Request) :
    (i.perform s interactive).held answering =
      match (i.prepare s interactive sub).held answering with
      | (.error e, log) => (e.outcome, log ++ e.reports)
      | (.ok e, log) =>
        (concluded (e.status (answering log e.request)),
          log ++ ⟨e.request, answering log e.request⟩ ::
            closing (e.status (answering log e.request))) := by
  rw [perform_eq i s interactive named]
  unfold Dialogue.held
  rw [Dialogue.run_reply_rescue, Dialogue.run_reply_bind]
  rcases ((i.prepare s interactive sub).run answering.reply).run [] with ⟨e | e, log⟩
  · exact run_told e answering log
  · have hend := run_carryOut e answering log
    rw [Dialogue.run_reply_rescue] at hend
    exact hend

lemma idle_of_mem_reports {e : Failure} {x : Exchanged Request} (h : x ∈ e.reports) :
    x.question.Idle := by
  unfold Failure.reports at h
  split at h
  · cases h
  · rw [List.mem_singleton.mp h]
    exact ⟨rfl, rfl⟩

lemma idle_of_mem_closing {r : Except Failure Int} {x : Exchanged Request} (h : x ∈ closing r) :
    x.question.Idle := by
  cases r with
  | ok code => cases h
  | error e => exact idle_of_mem_reports h

lemma countP_runs_eq_zero {log : List (Exchanged Request)}
    (h : ∀ x ∈ log, x.question.runs = false) : log.countP (·.question.runs) = 0 :=
  List.countP_eq_zero.mpr fun x hx => by simp [h x hx]

/-- A run in a log that ends with some errand is this errand. -/
lemma eq_run_of_split {e : Errand} {a : Asking.Answer e.request}
    {log front back : List (Exchanged Request)} {c : Command} {inputs : Inputs} {directory : Path}
    {options : ExecOptions} {extra : List Text} {terminal : Bool} {answer : Except Failure Int}
    (quiet : ∀ x ∈ log, x.question.runs = false)
    (split : log ++ ⟨e.request, a⟩ :: closing (e.status a) =
      front ++ ⟨.run c inputs directory options extra terminal, answer⟩ :: back) :
    front = log ∧ e = .run c inputs directory options extra terminal ∧ e.status a = answer ∧
      back = closing answer := by
  obtain ⟨hfront, hx, hback⟩ := (List.append_cons_inj_of_notMem
    (fun hy => by cases quiet _ hy) (fun hy => by cases (idle_of_mem_closing hy).1)).mp split
  cases e with
  | print text => cases hx
  | edit location => cases hx
  | run c' inputs' directory' options' extra' terminal' =>
    cases hx
    exact ⟨hfront.symm, rfl, rfl, hback.symm⟩

/-- A command is run at most once, and nothing is done after it; all that it takes comes from what
was loaded, chosen and resolved before, and its exit code is that of the program. When anything of
this fails no command is run, and the exit status is that of the kind of the failure. Where something
is only shown, no command is started at all. -/
theorem perform_runs_last (i : Invocation) (s : Surroundings) (interactive : Bool)
    {sub : Subcommand} (named : i.subcommand = some sub) (answering : Answering Request) :
    ∃ result log, (i.perform s interactive).held answering = (result, log) ∧
      log.countP (·.question.runs) ≤ 1 ∧
      (∀ front c inputs directory options extra terminal (answer : Except Failure Int) back,
        log = front ++ ⟨.run c inputs directory options extra terminal, answer⟩ :: back →
          i.Readied s interactive sub front (.run c inputs directory options extra terminal) ∧
          (∀ code, answer = .ok code → back = [] ∧ result = .ok code) ∧
          ∀ e, answer = .error e → back = e.reports ∧ result = e.outcome) ∧
      (∀ e, ((i.prepare s interactive sub).held answering).1 = .error e →
        (∀ x ∈ log, x.question.runs = false) ∧ result = e.outcome ∧
          log = ((i.prepare s interactive sub).held answering).2 ++ e.reports) ∧
      (sub.showsOnly = true → ∀ x ∈ log, x.question.Idle) := by
  have hends := ((i.prepare s interactive sub).held_ends answering).1
  have hperform := held_perform s interactive named answering
  rcases hprepare : (i.prepare s interactive sub).held answering with ⟨e | errand, log⟩
  · rw [hprepare] at hends hperform
    have hall : ∀ x ∈ log ++ e.reports, x.question.runs = false :=
      List.forall_mem_append.mpr
        ⟨((i.meets_prepare s interactive sub).of_ends hends).1,
          fun x hx => (idle_of_mem_reports hx).1⟩
    refine ⟨_, _, hperform, ?_, ?_, ?_, ?_⟩
    · rw [countP_runs_eq_zero hall]
      exact Nat.zero_le 1
    · intro front c inputs directory options extra terminal answer back hlog
      have hrun := hall _ (hlog ▸ List.mem_append_right front (List.mem_cons_self ..))
      cases hrun
    · rintro _ ⟨⟩
      exact ⟨hall, rfl, rfl⟩
    · intro shows
      refine List.forall_mem_append.mpr ⟨?_, fun x hx => idle_of_mem_reports hx⟩
      exact ((i.meets_prepare_showing s interactive sub shows).of_ends hends).1
  · rw [hprepare] at hends hperform
    have hlog := ((i.meets_prepare s interactive sub).of_ends hends).1
    refine ⟨_, _, hperform, ?_, ?_, ?_, ?_⟩
    · rw [List.countP_append, List.countP_cons, countP_runs_eq_zero hlog,
        countP_runs_eq_zero fun x hx => (idle_of_mem_closing hx).1]
      split <;> decide
    · intro front c inputs directory options extra terminal answer back hsplit
      obtain ⟨rfl, rfl, hanswer, rfl⟩ := eq_run_of_split hlog hsplit
      rw [hanswer]
      refine ⟨readied_of_ends hends rfl, fun code hcode => ?_, fun e he => ?_⟩
      · rw [hcode]
        exact ⟨rfl, rfl⟩
      · rw [he]
        exact ⟨rfl, rfl⟩
    · rintro e ⟨⟩
    · intro shows
      obtain ⟨hidle, hprint⟩ := (i.meets_prepare_showing s interactive sub shows).of_ends hends
      obtain ⟨text, rfl⟩ := hprint errand rfl
      exact List.forall_mem_append.mpr ⟨hidle, List.forall_mem_cons.mpr
        ⟨⟨rfl, rfl⟩, fun x hx => idle_of_mem_closing hx⟩⟩

end CommandLine.Invocation

/-- A directory with nothing in it and nothing around it. -/
def bare : Surroundings where
  files := .directory []
  directory := []
  home := "/home"

def evaluation : EvalCommand where
  source := "exit 3"

def sole : Invocation where
  subcommand := some (.eval evaluation)

/-- What is run exits with three; nothing else comes to anything. -/
def answerThree : Answering Request
  | _, .about (.output ..) => .ok []
  | _, .about (.selection ..) => .ok .empty
  | _, .run .. => .ok 3
  | _, .edit _ => .ok 0
  | _, .print _ => ()
  | _, .report _ => ()
  | _, .chooseWith _ => ()
  | _, .evaluateIn .. => ()

def solely : Request :=
  .run { name := [], source := "exit 3\n", language := .bash } {} { slashes := 1 } {} [] true

/-- What is done before, with two notes that are not shown. -/
def beforehand : List (Exchanged Request) :=
  [⟨.report [], ()⟩, ⟨.report [], ()⟩, ⟨.chooseWith .fzf, ()⟩,
    ⟨.evaluateIn { slashes := 1 } {}, ()⟩]

lemma eval_evaluation (s : Session) :
    s.eval evaluation =
      (Dialogue.ofExcept (Project.around s.surroundings s.types s.directory)).bind fun p =>
        .ask (.evaluateIn p.path s.execOptions) fun _ =>
          .ask (.run { name := [], source := "exit 3\n", language := .bash } {} p.path s.execOptions
            [] s.interactive) .ofExcept := by
  change (Dialogue.ofExcept _).bind (fun p => s.execute p _ []) = _
  congr 1
  funext p
  rw [Session.execute, Context.resolve_plain _ rfl]
  rfl

theorem perform_sole :
    sole.subcommand = some (.eval evaluation) ∧
      (sole.perform bare true).held answerThree = (.ok 3, beforehand ++ [⟨solely, .ok 3⟩]) ∧
      sole.Readied bare true (.eval evaluation) beforehand solely := by
  have hheld : (sole.perform bare true).held answerThree =
      (.ok 3, beforehand ++ [⟨solely, .ok 3⟩]) := by
    change (((sole.loading bare).bind fun config =>
      .ask (Invocation.backendRequest true config) fun _ =>
        (Session.started bare true config).eval evaluation).rescue told).held answerThree = _
    simp only [eval_evaluation]
    rfl
  obtain ⟨result, log, hsame, -, hrun, -⟩ :=
    Invocation.perform_runs_last sole bare true rfl answerThree
  have hlog : log = beforehand ++ [⟨solely, .ok 3⟩] :=
    congrArg Prod.snd (hsame.symm.trans hheld)
  exact ⟨rfl, hheld, (hrun _ _ _ _ _ _ _ _ _ hlog).1⟩

end Runbook
