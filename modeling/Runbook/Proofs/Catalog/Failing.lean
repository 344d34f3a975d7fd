import Mathlib.Tactic.Common
import Runbook.Proofs.Catalog.Content
import Runbook.Proofs.Json.Reading
import Runbook.Proofs.Markdown.Block
import Runbook.Proofs.Placeholder.Scanning

/-! How a document can fail to be a catalog. What is wrong with it is told with its path, except
that a numeral with more digits than are read fails as such, wherever it stands. -/
namespace Runbook
open Text

namespace Placeholder

lemma longRun_of_scan {s : Text} {digits : Nat} (h : scan s = .error (.longNumeral digits)) :
    LongRun s := within_of_scan h

lemma Stop.eq_longNumeral {e : Stop} {s : Text} {digits : Nat}
    (h : e.inText s = .longNumeral digits) : e = .longNumeral digits := by
  cases e with
  | fault => cases h
  | longNumeral => exact congrArg _ (Problem.longNumeral.inj h)

lemma longRun_of_splitName {s : Text} {digits : Nat}
    (h : splitName s = .error (.longNumeral digits)) : LongRun s := by
  unfold splitName at h
  dsimp only at h
  split at h
  · cases h
  · next e hscan =>
    obtain rfl := Stop.eq_longNumeral (Except.error.inj h)
    exact (longRun_of_scan hscan).of_part
      ((List.dropWhile_suffix _).trans (s.dropWhile_suffix isBlank)).isInfix

end Placeholder

namespace Catalog
open Markdown

/-- The digits in what an event brings with it are those of a text. -/
def Event.RunsIn (s : Text) : Event → Prop
  | .heading _ _ h => Text.RunsIn s h.name
  | .source _ _ words body => Text.RunsIn s (unwords words) ∧ Text.RunsIn s body
  | _ => True

lemma Event.runsIn_document {s : Text} {e : Event} (h : e ∈ ofNode (document s)) :
    e.RunsIn s := by
  have hhas := document_has (hereditary_runsIn s) (fun _ _ hrun => hrun) h
  cases e with
  | heading => exact hhas
  | source span language words body =>
    obtain ⟨hwords, ls, rfl, hls⟩ := hhas
    exact ⟨hwords, .unlines hls⟩
  | _ => trivial

/-! ### Failures -/

/-- The code of a document. -/
def sources (s : Text) : List Text :=
  (Event.ofNode (document s)).filterMap fun
    | .source _ _ _ body => some body
    | _ => none

/-- How a document can fail: with a fault at its path, or because some of it asks too much of a
reader of numerals, of JSON or of YAML. -/
inductive Fails (path s : Text) : Failure → Prop
  | fault {site : Site} {fault : CatalogFault} (here : site.path = path) :
      Fails path s (.catalog site fault)
  | longNumeral {digits : Nat} (long : LongRun s) : Fails path s (.longNumeral digits)
  | tooDeep {body : Text} (code : body ∈ sources s) (deep : Json.parse body = .error .tooDeep) :
      Fails path s .tooDeep
  | yaml {body : Text} {reader : Yaml.Reader} {problem : Yaml.Problem} (code : body ∈ sources s)
      (stops : (reader.read body).1 = .error problem) (formed : problem ≠ .malformed) :
      Fails path s (.yaml problem)

variable {path s : Text} {f : Failure}

lemma fails_of_decode {reader : Yaml.Reader} {language : Language} {body : Text}
    (code : body ∈ sources s) (hbody : RunsIn s body)
    (h : (decode reader language body).1 = .error (.inl f)) : Fails path s f := by
  have hjson (h : decodeJson body = .error (.inl f)) : Fails path s f := by
    unfold decodeJson at h
    split at h
    · cases h
    · split at h
      · cases h
      · cases h
      · next digits hlong =>
        cases h
        exact .longNumeral ((Json.longRun_of_parse hlong).of_runsIn hbody)
      · next hdeep =>
        cases h
        exact .tooDeep code hdeep
  cases language with
  | json => exact hjson h
  | none => exact hjson h
  | yaml =>
    change ofYaml (reader.read body).1 = _ at h
    cases hread : (reader.read body).1 with
    | ok v => rw [hread] at h; cases h
    | error problem =>
      rw [hread] at h
      cases problem with
      | malformed => cases h
      | _ =>
        cases h
        exact .yaml code hread nofun
  | _ => cases h

lemma fails_of_readSettings {reader : Yaml.Reader} {site : Site} {language : Language} {body : Text}
    (here : site.path = path) (code : body ∈ sources s) (hbody : RunsIn s body)
    (h : (readSettings reader site language body).1 = .error f) : Fails path s f := by
  change settingsOf site (decode reader language body).1 = _ at h
  unfold settingsOf at h
  split at h
  · next failure hdecode =>
    obtain rfl := Except.error.inj h
    exact fails_of_decode code hbody hdecode
  · cases h
    exact .fault here
  · split at h
    · cases h
    · cases h
      exact .fault here
  · cases h
    exact .fault here

lemma fails_of_command {o : Opening} {types : Tags} {description : Option Text}
    {language : Language} {words : List Text} {source : Text} (hname : RunsIn s o.heading.name)
    (hwords : RunsIn s (unwords words))
    (h : o.command path types description language words source = .error f) : Fails path s f := by
  unfold Opening.command at h
  dsimp only at h
  split at h
  · next e he =>
    cases e with
    | fault cause position =>
      cases h
      exact .fault rfl
    | longNumeral digits =>
      cases h
      exact .longNumeral ((Placeholder.longRun_of_splitName he).of_runsIn hname)
  · split at h
    · next e he =>
      cases e with
      | fault cause rest =>
        cases h
        exact .fault rfl
      | longNumeral digits =>
        cases h
        exact .longNumeral ((Placeholder.longRun_of_scan he).of_runsIn hwords)
    · split at h
      · cases h
        exact .fault rfl
      · cases h

/-! ### Events one after another -/

namespace Progress
variable {p q : Progress} {e : Event}

/-- The digits in the name of a command that has no code yet are those of a text. -/
def RunsIn (s : Text) (p : Progress) : Prop :=
  match p.awaiting with
  | .source o _ _ => Text.RunsIn s o.heading.name
  | _ => True

/-- Reading goes on with such digits only, or it fails in one of these ways. -/
def Outcome (path s : Text) : Except Failure Progress → Prop
  | .ok q => q.RunsIn s
  | .error f => Fails path s f

lemma outcome_anything (h : q.awaiting = .anything) : Outcome path s (.ok q) := by
  change q.RunsIn s
  rw [RunsIn, h]
  trivial

/-- Settings are read and added, or fail. -/
lemma addSettings_fails {site : Site} {settings : Settings} (here : site.path = path) :
    Outcome path s (p.addSettings site settings) := by
  unfold addSettings
  split
  · exact Fails.fault here
  · exact outcome_anything rfl

lemma readSettings_fails {site place : Site} {language : Language} {body : Text}
    (here : site.path = path) (there : place.path = path) (code : body ∈ sources s)
    (hbody : Text.RunsIn s body) :
    Outcome path s (match readSettings p.reader site language body with
      | (.ok settings, reader) => { p with reader }.addSettings place settings
      | (.error e, _) => .error e) := by
  cases h : readSettings p.reader site language body with
  | mk result reader =>
    cases result with
    | ok settings => exact addSettings_fails there
    | error e => exact fails_of_readSettings here code hbody (congrArg Prod.fst h)

lemma continue_fails (he : e ∈ Event.ofNode (document s)) (hp : p.awaiting = .anything) :
    Outcome path s (p.continue_ path e) := by
  have hruns := Event.runsIn_document he
  cases e with
  | finish span => exact outcome_anything (by rw [endRange_awaiting, hp])
  | paragraph span text => exact outcome_anything hp
  | source span language words body =>
    have code : body ∈ sources s := List.mem_filterMap.mpr ⟨_, he, rfl⟩
    rw [continue_]
    split
    · exact readSettings_fails rfl rfl code hruns.2
    · exact outcome_anything hp
  | heading span level heading =>
    have hend : (p.endRange path span).awaiting = .anything := by rw [endRange_awaiting, hp]
    rw [continue_]
    dsimp only
    split
    · trivial
    · split
      · exact hruns
      · exact outcome_anything hend

/-- The step: an event of the document is read, or fails in one of these ways. -/
lemma step_fails (he : e ∈ Event.ofNode (document s)) (hp : p.RunsIn s) :
    Outcome path s (p.step path e) := by
  have hruns := Event.runsIn_document he
  have code {span : Option Span} {language : Language} {words : List Text} {body : Text}
      (h : e = .source span language words body) : body ∈ sources s :=
    List.mem_filterMap.mpr ⟨_, he, by rw [h]⟩
  unfold step
  split
  · next hawaiting => exact continue_fails he hawaiting
  · next o span language words body hawaiting =>
    exact readSettings_fails rfl rfl (code rfl) hruns.2
  · exact .fault rfl
  · next o types description span text hawaiting =>
    rw [RunsIn, hawaiting] at hp
    exact hp
  · next o types description span language words body hawaiting =>
    rw [RunsIn, hawaiting] at hp
    split
    · exact outcome_anything rfl
    · next failure h => exact fails_of_command hp hruns.1 h
  · exact .fault rfl

lemma run_fails {es : List Event} (hes : ∀ e ∈ es, e ∈ Event.ofNode (document s)) (hp : p.RunsIn s)
    (h : es.foldlM (step path) p = .error f) : Fails path s f := by
  induction es generalizing p with
  | nil => cases h
  | cons e es ih =>
    obtain ⟨he, hes⟩ := List.forall_mem_cons.mp hes
    have hstep : Outcome path s (p.step path e) := step_fails he hp
    rw [List.foldlM_cons] at h
    cases hq : p.step path e with
    | error failure =>
      rw [hq] at h hstep
      cases h
      exact hstep
    | ok q =>
      rw [hq] at h hstep
      exact ih hes hstep h

lemma catalog_fails (h : p.catalog path = .error f) : Fails path s f := by
  unfold catalog at h
  cases hawaiting : p.awaiting with
  | anything => rw [hawaiting] at h; cases h
  | settings o =>
    rw [hawaiting] at h
    cases h
    exact .fault rfl
  | source o types description =>
    rw [hawaiting] at h
    cases h
    exact .fault rfl

end Progress

lemma fails_of_parseAfter {reader : Yaml.Reader} (h : (parseAfter reader path s).1 = .error f) :
    Fails path s f := by
  rw [parseAfter, ofEventsAfter_eq_bind] at h
  cases hp : (Event.ofNode (document s)).foldlM (Progress.step path) { reader } with
  | error failure =>
    rw [hp] at h
    cases h
    have hstart : Progress.RunsIn s { reader } := trivial
    exact Progress.run_fails (fun _ he => he) hstart hp
  | ok p =>
    rw [hp] at h
    exact Progress.catalog_fails h

/-- A document is a catalog or fails, with a message that starts with its path. Three things are not
told like that: a numeral with more digits than are read, which stands as a run of digits in the
document, JSON that is too deep, and YAML that is well formed but comes to nothing. -/
theorem parseAfter_fails (reader : Yaml.Reader) (path s : Text) :
    (∃ catalog, (parseAfter reader path s).1 = .ok catalog) ∨
    (∃ site fault, (parseAfter reader path s).1 = .error (.catalog site fault) ∧
      site.path = path ∧ path <+: (Failure.catalog site fault).message) ∨
    (∃ digits, (parseAfter reader path s).1 = .error (.longNumeral digits) ∧ LongRun s) ∨
    (∃ body ∈ sources s, (parseAfter reader path s).1 = .error .tooDeep ∧
      Json.parse body = .error .tooDeep) ∨
    ∃ body ∈ sources s, ∃ (other : Yaml.Reader) (problem : Yaml.Problem),
      (parseAfter reader path s).1 = .error (.yaml problem) ∧
      (other.read body).1 = .error problem ∧ problem ≠ .malformed := by
  cases h : (parseAfter reader path s).1 with
  | ok catalog => exact .inl ⟨catalog, rfl⟩
  | error f =>
    right
    cases fails_of_parseAfter h with
    | @fault site fault here =>
      have hshow : path <+: site.show := here ▸ List.prefix_append site.path _
      exact .inl ⟨site, fault, rfl, here, hshow.trans (List.prefix_append _ (' ' :: fault.message))⟩
    | @longNumeral digits long => exact .inr (.inl ⟨digits, rfl, long⟩)
    | @tooDeep body code deep => exact .inr (.inr (.inl ⟨body, code, rfl, deep⟩))
    | @yaml body other problem code stops formed =>
      exact .inr (.inr (.inr ⟨body, code, other, problem, rfl, stops, formed⟩))

/-! ### A numeral that is too long -/

/-- Settings that are a number. -/
def numbered (digits : Text) : Text :=
  unlines ["```json config".toList, '1' :: digits, "```".toList]

lemma blocks_numbered {v : Text} (hv : v.all Char.isDigit = true) :
    blocks (numbered v) = [⟨1, 3, .code "json config" ('1' :: v ++ ['\n'])⟩] := by
  have hblank : v.all (!isBlank ·) = true := all_mono (fun _ hc => not_isBlank_of (by decide) hc) hv
  have hline : ('1' :: v).all (!isLineBreak ·) = true := by
    rw [List.all_cons, all_mono (fun c hc => by simp_all [isBlank]) hblank]
    rfl
  have hlines : lines (numbered v) = ["```json config".toList, '1' :: v, "```".toList] :=
    lines_unlines (List.forall_mem_cons.mpr
      ⟨by decide, List.forall_mem_cons.mpr ⟨hline, by decide⟩⟩)
  let f : Fence := ⟨0, '`', 3, "json config"⟩
  have hbegin : Pending.begin 1 ("```" ++ "json config") = ([], .fenced 1 f []) :=
    begin_ticks 1 (by decide) (by decide)
  have hmargin : margin? ('1' :: v) = some (0, '1' :: v) :=
    margin?_clear (clear_cons.mpr (by decide))
  have hinside : ∀ l ∈ [('1' :: v : Text)], f.closes l = false := by
    refine List.forall_mem_singleton.mpr ?_
    rw [Fence.closes, hmargin]
    rfl
  have hclose : f.closes "```" = true := by decide
  have hcode := readLines_fenced rfl hinside hclose 1 1 [] []
  have hbody : unlines ([] ++ ['1' :: v]) = '1' :: v ++ ['\n'] := by simp [unlines]
  rw [hbody] at hcode
  rw [blocks, hlines]
  change (Pending.begin 1 ("```" ++ "json config")).1 ++
    readLines 1 (Pending.begin 1 ("```" ++ "json config")).2 ['1' :: v, "```"] = _
  rw [hbegin]
  exact hcode

/-- Such settings are not refused as settings, if the number has too many digits. -/
lemma parseAfter_numbered (reader : Yaml.Reader) (path : Text) {v : Text}
    (hv : v.all Char.isDigit = true) (hlong : numeralLimit ≤ v.length) :
    (parseAfter reader path (numbered v)).1 = .error (.longNumeral (v.length + 1)) := by
  have hdecode : decodeJson ('1' :: v ++ ['\n']) = .error (.inl (.longNumeral (v.length + 1))) := by
    rw [decodeJson, Json.parse_long hv hlong]
    rfl
  have hread (site : Site) : readSettings reader site .json ('1' :: v ++ ['\n']) =
      (.error (.longNumeral (v.length + 1)), reader) := by
    rw [readSettings, decode, hdecode]
    rfl
  let e : Event := .source (some ⟨1, 3⟩) .json ["config"] ('1' :: v ++ ['\n'])
  have hevents : (blocks (numbered v)).flatMap Event.ofBlock = [e] := by
    rw [blocks_numbered hv]
    rfl
  have hstep : Progress.step path { reader } e = .error (.longNumeral (v.length + 1)) := by
    rw [Progress.step, Progress.continue_, if_pos (by decide), hread]
    rfl
  rw [parseAfter, ofEventsAfter_eq_bind, Event.ofNode_document, hevents, List.singleton_append,
    List.foldlM_cons, hstep]
  rfl

/-- With one digit too many a document is neither a catalog nor told of with its path. -/
theorem parseAfter_overlong :
    let v := List.replicate numeralLimit '0'
    (parseAfter {} "c.md" (numbered v)).1 = .error (.longNumeral (numeralLimit + 1)) ∧
      ¬ "c.md".toList <+: (Failure.longNumeral (numeralLimit + 1)).message := by
  refine ⟨?_, by decide⟩
  have hzeros : (List.replicate numeralLimit '0').all Char.isDigit = true := by
    rw [List.all_replicate]
    rfl
  have hlength : (List.replicate numeralLimit '0').length = numeralLimit := List.length_replicate
  have h := parseAfter_numbered {} "c.md" hzeros hlength.ge
  rwa [hlength] at h

end Catalog
end Runbook
