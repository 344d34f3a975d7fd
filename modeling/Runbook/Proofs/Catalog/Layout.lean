import Mathlib.Tactic.Common
import Runbook.Proofs.Catalog.Title
import Runbook.Proofs.Markdown.Fenced

/-! The lines of sections fall into one heading each, and a code block after it for commands; these
are the events of the document. -/
namespace Runbook.Catalog
open Markdown Text

/-! ### Lines -/

/-- What closes a fence of three backticks are the lines that the source of a command is free of. -/
theorem closes_iff {word l : Text} :
    (⟨0, '`', 3, word⟩ : Fence).closes l = true ↔ ClosesTicks l :=
  Fence.closes_iff rfl (by decide : 1 ≤ 3)

instance : DecidablePred ClosesTicks := fun l =>
  decidable_of_iff ((⟨0, '`', 3, []⟩ : Fence).closes l = true) closes_iff

lemma Body.word_not_blank (b : Body) : b.word.all (!isBlank ·) = true :=
  all_mono (fun _ hc => (Bool.and_eq_true_iff.mp hc).1) b.wordChars

lemma Body.word_no_tick (b : Body) : b.word.all (· != '`') = true :=
  all_mono (fun _ hc => (Bool.and_eq_true_iff.mp hc).2) b.wordChars

lemma Body.lines_unbroken (b : Body) : ∀ l ∈ b.lines, l.all (!isLineBreak ·) = true := by
  have hword : b.word.all (!isLineBreak ·) = true :=
    all_mono (fun c hc => by simp_all [isBlank]) b.word_not_blank
  have hopening : ("```" ++ b.word).all (!isLineBreak ·) = true := by
    rw [List.all_append, hword]
    decide
  refine List.forall_mem_cons.mpr ⟨hopening, fun l hl => ?_⟩
  rcases List.mem_append.mp hl with hl | hl
  · exact b.unbroken l hl
  · obtain rfl := List.mem_singleton.mp hl
    decide

namespace Section
variable (s : Section)

/-- A title ends with a name, a code span or a block. -/
lemma exists_last :
    ∃ front c, s.title = front ++ [c] ∧ (isTitleChar c = true ∨ c ∈ ['`', '\x7d']) := by
  rcases s.attributes_ends with hnil | ⟨inner, hinner⟩
  · rw [title, hnil, List.append_nil]
    split
    · exact ⟨'`' :: s.name, '`', rfl, .inr (by decide)⟩
    · refine ⟨_, _, (List.dropLast_concat_getLast s.named).symm, .inl ?_⟩
      exact List.all_eq_true.mp s.nameChars _ (List.getLast_mem s.named)
  · rw [title, hinner]
    set front := if s.body.isSome then '`' :: s.name ++ ['`'] else s.name
    refine ⟨front ++ ' ' :: '\x7b' :: inner, '\x7d', ?_, .inr (by decide)⟩
    rw [List.append_assoc]
    rfl

lemma clear_title_end {p : Char → Bool} (hname : ∀ c, isTitleChar c = true → p c = false)
    (hsigns : ['`', '\x7d'].all (!p ·) = true) : Clear p s.title.reverse := by
  obtain ⟨front, c, htitle, hc⟩ := s.exists_last
  rw [htitle, List.reverse_append]
  refine clear_cons.mpr (hc.elim (hname c) fun hc => ?_)
  simpa using List.all_eq_true.mp hsigns c hc

lemma clear_title : Clear isBlank s.title := by
  rw [title]
  split
  · exact clear_cons.mpr (by decide)
  · exact s.clear_blank_title

lemma title_unbroken : s.title.all (!isLineBreak ·) = true := by
  have hname : s.name.all (!isLineBreak ·) = true :=
    all_mono (fun c hc => by simp_all [isBlank]) s.name_not_blank
  have hattributes : s.attributes.all (!isLineBreak ·) = true :=
    s.attributes_all (by decide) fun c hc => by simp_all [isTypeChar]
  rw [title, List.all_append, hattributes, Bool.and_true]
  split
  · rw [List.all_append, List.all_cons, hname]
    decide
  · exact hname

lemma heading_unbroken : s.heading.all (!isLineBreak ·) = true := by
  have hsigns : (List.replicate s.level '#').all (!isLineBreak ·) = true := by
    rw [List.all_replicate]
    split
    · rfl
    · decide
  rw [heading, List.all_append, List.all_cons, hsigns, s.title_unbroken]
  decide

/-- No line of a section has a line break in it. -/
lemma lines_unbroken : ∀ l ∈ s.lines, l.all (!isLineBreak ·) = true := by
  refine List.forall_mem_cons.mpr ⟨s.heading_unbroken, ?_⟩
  cases s.body with
  | none => exact List.forall_mem_nil _
  | some b => exact b.lines_unbroken

lemma begin_section (n : Nat) :
    Pending.begin n s.heading = ([⟨n, n, .heading s.level (Markdown.inline s.title)⟩], .idle) := by
  refine begin_heading n s.positive s.small s.clear_title ?_ ?_
  · exact s.clear_title_end (fun _ => titleChar_not_blank) (by decide)
  · exact s.clear_title_end (fun _ hc => by simpa using titleChar_ne hc (by decide)) (by decide)

/-- The blocks of a section whose lines come after n others. -/
def blocks (n : Nat) : List Block :=
  ⟨n + 1, n + 1, .heading s.level (Markdown.inline s.title)⟩ ::
    (s.body.map fun b =>
      [⟨n + 2, n + s.lines.length, .code b.word (unlines b.source)⟩]).getD []

/-- A section that begins where no block is open ends with none open. -/
theorem readLines_section (n : Nat) (rest : List Text) :
    readLines n .idle (s.lines ++ rest) =
      s.blocks n ++ readLines (n + s.lines.length) .idle rest := by
  have hbegin : Pending.idle.step (n + 1) s.heading = _ := s.begin_section (n + 1)
  rw [lines, blocks, lines, List.cons_append, readLines, hbegin]
  cases s.body with
  | none => rfl
  | some b =>
    have hopen : Pending.idle.step (n + 1 + 1) ("```" ++ b.word) = _ :=
      begin_ticks (n + 1 + 1) (trim_of_all b.word_not_blank) b.word_no_tick
    have hlines : b.lines ++ rest = ("```" ++ b.word) :: (b.source ++ "```".toList :: rest) := by
      simp [Body.lines]
    have hsource : ∀ l ∈ b.source, (⟨0, '`', 3, b.word⟩ : Fence).closes l = false := by
      intro l hl
      rw [Bool.eq_false_iff]
      exact fun h => b.unclosed l hl (closes_iff.mp h)
    have hclose : (⟨0, '`', 3, b.word⟩ : Fence).closes "```" = true := rfl
    have hlength : n + 1 + 1 + b.source.length + 1 = n + (b.lines.length + 1) := by
      simp only [Body.lines, List.length_append, List.length_cons, List.length_nil]
      omega
    simp only [Option.map_some, Option.getD_some, List.length_cons]
    rw [hlines, readLines, hopen, readLines_fenced rfl hsource hclose, hlength]
    rfl

/-! ### Events -/

/-- The events of a section whose lines come after n others. -/
def events (n : Nat) : List Event :=
  .heading (some ⟨n + 1, n + 1⟩) s.level s.header ::
    (s.body.map fun b => [Event.source (some ⟨n + 2, ↑(n + s.lines.length)⟩) (.ofTag b.word) []
      (unlines b.source)]).getD []

lemma infoWords_word {word : Text} (h : word.all (!isBlank ·) = true) :
    Event.infoWords word = (.ofTag word, []) := by
  rw [Event.infoWords, words_of_all h]
  cases word <;> rfl

lemma events_eq (n : Nat) :
    Event.ofNode.ofNodes ((s.blocks n).map Node.ofBlock) = s.events n := by
  have hheading (span : Option Span) :
      Event.ofNode (.mk (.heading s.level) span [] ((Markdown.inline s.title).map Node.ofInline)) =
        [.heading span s.level s.header] := by
    rw [Event.ofNode, s.headingOf_title]
  rw [blocks, events, List.map_cons, Event.ofNode.ofNodes, Node.ofBlock, hheading]
  cases s.body with
  | none => rfl
  | some b =>
    have hcode (span : Option Span) (text : Text) :
        Event.ofNode (.mk (.codeBlock b.word) span text []) =
          [.source span (.ofTag b.word) [] text] := by
      rw [Event.ofNode, infoWords_word b.word_not_blank]
    simp only [Option.map_some, Option.getD_some, List.map_cons, List.map_nil,
      Event.ofNode.ofNodes, Node.ofBlock, hcode]
    rfl

end Section

lemma ofNodes_append (ns ms : List Node) :
    Event.ofNode.ofNodes (ns ++ ms) = Event.ofNode.ofNodes ns ++ Event.ofNode.ofNodes ms := by
  induction ns with
  | nil => rfl
  | cons n ns ih => simp only [List.cons_append, Event.ofNode.ofNodes, ih, List.append_assoc]

/-- The events of sections whose lines come after n others. -/
def eventsAfter (n : Nat) : List Section → List Event
  | [] => []
  | s :: ss => s.events n ++ eventsAfter (n + s.lines.length) ss

lemma events_readLines (n : Nat) (ss : List Section) :
    Event.ofNode.ofNodes ((readLines n .idle (ss.flatMap Section.lines)).map Node.ofBlock) =
      eventsAfter n ss := by
  induction ss generalizing n with
  | nil => rfl
  | cons s ss ih =>
    rw [List.flatMap_cons, s.readLines_section, List.map_append, ofNodes_append, s.events_eq, ih]
    rfl

/-- The events of a document are those of its sections, and its end. -/
theorem events_render (ss : List Section) :
    Event.ofNode (document (Section.render ss)) =
      eventsAfter 0 ss ++
        [.after (some ⟨1, max (ss.flatMap Section.lines).length 1⟩)] := by
  have hlines : Text.lines (Section.render ss) = ss.flatMap Section.lines := by
    refine lines_unlines fun l hl => ?_
    obtain ⟨s, -, hl⟩ := List.mem_flatMap.mp hl
    exact s.lines_unbroken l hl
  rw [document, Markdown.blocks, hlines, Event.ofNode, events_readLines]

end Runbook.Catalog
