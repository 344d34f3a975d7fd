import Mathlib.Data.List.Sort
import Runbook.Catalog.Extraction
import Runbook.Proofs.Catalog.Layout
import Runbook.Proofs.Catalog.Scope

/-! Catalogs that are written are read back: section by section, the commands so far and the open
headings are those that the sections stand for. -/
namespace Runbook.Catalog
open Text

namespace Section
variable (s : Section)

lemma header_config : s.header.hasFlag "config" = false := by
  rw [Heading.hasFlag, header]
  split <;> rfl

lemma header_command : s.header.hasFlag "command" = s.body.isSome := by
  rw [Heading.hasFlag, header]
  cases s.body <;> rfl

lemma header_background : s.header.hasFlag "bg" = false := by
  rw [Heading.hasFlag, header]
  split <;> rfl

lemma header_types : s.header.valuesOf "type" = s.types := by
  rw [Heading.valuesOf, header, List.filterMap_map]
  exact (congrFun List.filterMap_eq_map s.types).trans (List.map_id _)

/-- The heading that waits for the code block of a section. -/
def opening (n : Nat) : Opening := ⟨some ⟨n + 1, n + 1⟩, s.level, s.header⟩

/-- A name is one word without placeholders. -/
lemma splitName_name : Placeholder.splitName s.name = .ok (s.name, []) := by
  have htrim : trimStart s.name = s.name := dropWhile_clear (clear_of_all s.name_not_blank)
  have htake := takeWhile_append_clear s.name_not_blank (clear_nil _)
  have hdrop := dropWhile_append_clear s.name_not_blank (clear_nil _)
  rw [List.append_nil] at htake hdrop
  rw [Placeholder.splitName, htrim]
  simp only [htake, hdrop]
  rw [Placeholder.scan]

end Section

/-- After the lines of some sections nothing is awaited; where the next line ends the range of the
last command, these are the commands and the open headings. -/
structure Reached (path : Text) (n : Nat) (before : List Section) (done : List Command)
    (p : Progress) : Prop where
  awaiting : p.awaiting = .anything
  closed : ∀ last : Int, p.endRange path (some ⟨n + 1, last⟩) =
    { scope := Section.scope before, ended := done }

namespace Reached
variable {path : Text} {n : Nat} {before : List Section} {done : List Command} {p : Progress}

/-- The heading of a section opens it, and a command heading awaits its code block. -/
lemma heading (h : Reached path n before done p) (s : Section) :
    p.step path (.heading (some ⟨n + 1, n + 1⟩) s.level s.header) = .ok
      { scope := Section.scope (before ++ [s]), ended := done
        awaiting :=
          if s.body.isSome then .source (s.opening n) (Section.scope (before ++ [s])).types none
          else .anything } := by
  have hstep (e : Event) : p.step path e = p.continue_ path e := by
    unfold Progress.step
    rw [h.awaiting]
  rw [hstep]
  simp only [Progress.continue_, h.closed, s.header_config, s.header_command, s.header_types,
    Section.enter_scope]
  cases s.body <;> rfl

/-- The command of a section, before its range has ended. -/
lemma command_eq (n : Nat) (before : List Section) (s : Section) (b : Body) :
    (s.opening n).command path (Section.scope (before ++ [s])).types none (.ofTag b.word) []
      (unlines b.source) = .ok { s.command path (n + 1) before b with location := none } := by
  have hname : Placeholder.splitName (s.opening n).heading.name = .ok (s.name, []) :=
    s.splitName_name
  have hscan : Placeholder.scan (unwords []) = .ok [] := by
    rw [unwords, joinWith, Placeholder.scan]
  have hback : (s.opening n).heading.hasFlag "bg" = false := s.header_background
  have hhidden : isHiddenName s.name = (s.name.head? = some '_' : Bool) := beq_eq_decide _ _
  rw [Opening.command, hname]
  simp only [hscan, hback, hhidden, Section.types_scope]
  rfl

/-- The code block that is awaited makes the command the last one. -/
lemma source (n : Nat) (before : List Section) (done : List Command) (s : Section) (b : Body)
    (span : Option Markdown.Span) :
    Progress.step path
      { scope := Section.scope (before ++ [s]), ended := done
        awaiting := .source (s.opening n) (Section.scope (before ++ [s])).types none }
      (.source span (.ofTag b.word) [] (unlines b.source)) = .ok
      { scope := Section.scope (before ++ [s]), ended := done
        current :=
          some ({ s.command path (n + 1) before b with location := none }, s.opening n) } := by
  unfold Progress.step
  simp only [command_eq]

/-- One more section is read. -/
lemma next (h : Reached path n before done p) (s : Section) :
    ∃ q, (s.events n).foldlM (Progress.step path) p = .ok q ∧
      Reached path (n + s.lines.length) (before ++ [s])
        (done ++ (s.body.map (s.command path (n + 1) before)).toList) q := by
  have hheading := h.heading s
  rw [Section.events]
  cases hbody : s.body with
  | none =>
    rw [hbody] at hheading
    refine ⟨{ scope := Section.scope (before ++ [s]), ended := done }, ?_, rfl, fun _ => ?_⟩
    · rw [List.foldlM_cons, hheading]
      rfl
    · rw [Option.map_none, Option.toList_none, List.append_nil]
      rfl
  | some b =>
    rw [hbody, Option.isSome_some, if_pos rfl] at hheading
    refine ⟨{ scope := Section.scope (before ++ [s]), ended := done
              current := some ({ s.command path (n + 1) before b with location := none },
                s.opening n) }, ?_, rfl, fun _ => ?_⟩
    · rw [List.foldlM_cons, hheading]
      change (Progress.step path _ _).bind _ = _
      rw [source]
      rfl
    · have hlast : (↑(n + s.lines.length) + 1 - 1 : Int) = ↑(n + 1) + ↑s.lines.length - 1 := by
        omega
      rw [Progress.endRange]
      simp only [lineOf, Option.map_some, Option.getD_some, hlast]
      rfl

end Reached

/-- All sections are read, one after another. -/
theorem Reached.run {path : Text} {n : Nat} {before : List Section} {done : List Command}
    {p : Progress} (h : Reached path n before done p) (ss : List Section) :
    ∃ q, (eventsAfter n ss).foldlM (Progress.step path) p = .ok q ∧
      Reached path (n + (ss.flatMap Section.lines).length) (before ++ ss)
        (done ++ Section.commands path (n + 1) before ss) q := by
  induction ss generalizing n before done p with
  | nil =>
    refine ⟨p, rfl, ?_⟩
    simpa [Section.commands] using h
  | cons s ss ih =>
    obtain ⟨q, hq, hreached⟩ := h.next s
    obtain ⟨r, hr, hreached'⟩ := ih hreached
    refine ⟨r, ?_, ?_⟩
    · rw [eventsAfter, List.foldlM_append, hq]
      exact hr
    · rw [Section.commands, List.flatMap_cons, List.length_append, ← Nat.add_assoc,
        List.append_cons before, ← List.append_assoc done, Nat.add_right_comm n 1]
      exact hreached'

/-- The end of the document ends the range of the last command. -/
lemma Reached.finish {path : Text} {n : Nat} {before : List Section} {done : List Command}
    {p : Progress} (h : Reached path n before done p) (last : Int) :
    p.step path (.finish (some ⟨n + 1, last⟩)) =
      .ok { scope := Section.scope before, ended := done } := by
  unfold Progress.step
  rw [h.awaiting]
  exact congrArg _ (h.closed last)

/-- A catalog that is written as sections is read as the commands of its sections, in their order
and with no settings. -/
theorem parse_render (path : Text) (ss : List Section) :
    parse path (Section.render ss) =
      .ok { settings := none, commands := Section.commands path 1 [] ss, path := path } := by
  cases ss with
  | nil => rfl
  | cons s ss =>
    have hstart : Reached path 0 [] [] {} := ⟨rfl, fun _ => rfl⟩
    obtain ⟨q, hq, hreached⟩ := hstart.run (s :: ss)
    set size := ((s :: ss).flatMap Section.lines).length with hsize
    have hpos : 1 ≤ size := by
      rw [hsize, List.flatMap_cons, Section.lines, List.length_append, List.length_cons]
      omega
    have hmax : max (↑size) 1 = (↑(0 + size) : Int) := by omega
    have hall : (eventsAfter 0 (s :: ss) ++ [Event.after (some ⟨1, max size 1⟩)]).foldlM
        (Progress.step path) {} = .ok
          { scope := Section.scope ([] ++ s :: ss)
            ended := Section.commands path 1 [] (s :: ss) } := by
      rw [List.foldlM_append, hq, hmax]
      change (q.step path (.finish (some ⟨↑(0 + size) + 1, ↑(0 + size) + 1⟩))).bind pure = _
      rw [hreached.finish]
      rfl
    rw [parse_eq_parseAfter, parseAfter, events_render, ofEventsAfter_eq_bind, hall]
    change Except.ok (Catalog.mk none (Section.commands path 1 [] (s :: ss) ++ []) path) = _
    rw [List.append_nil]

/-- The form in which sections are written. -/
example : Section.render [
    { level := 2, positive := by decide, small := by decide
      name := "tag", named := by decide, nameChars := by decide
      types := ["git", "a b"], typeChars := by decide
      body := some
        { word := "sh", wordChars := by decide
          source := ["# not a heading", "~~~"], unbroken := by decide, unclosed := by decide } }] =
    "## `tag` \x7btype=\"git\" type=\"a b\"\x7d\n```sh\n# not a heading\n~~~\n```\n".toList := by
  decide

end Runbook.Catalog
