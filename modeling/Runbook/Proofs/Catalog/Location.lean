import Mathlib.Data.List.Forall2
import Runbook.Proofs.Catalog.Attribution
import Runbook.Proofs.Markdown.Extent

/-! Where commands stand in a document: each from its heading on, up to the next heading. -/
namespace Runbook.Catalog
open Markdown Text

/-! ### The events of blocks -/

def Event.ofBlock (b : Block) : List Event := Event.ofNode (.ofBlock b)

/-- The event at the end of a document with so many lines. -/
def Event.atEnd (count : Nat) : Event := after (some ⟨1, max count 1⟩)

lemma Event.ofNode_document (s : Text) :
    ofNode (document s) = (blocks s).flatMap ofBlock ++ [atEnd (lines s).length] := by
  have hnodes (bs : List Block) : ofNode.ofNodes (bs.map .ofBlock) = bs.flatMap ofBlock := by
    induction bs with
    | nil => rfl
    | cons b bs ih =>
      rw [List.map_cons, ofNode.ofNodes, ih]
      rfl
  rw [document, ofNode, hnodes]
  rfl

/-- The heading of a command, where a block is one. -/
def commandOpening? (b : Block) : Option Opening :=
  (Event.ofBlock b).findSome? Event.commandHeading?

lemma commandOpening?_eq {b : Block} {o : Opening} (h : commandOpening? b = some o) :
    ∃ (level : Nat) (title : List Inline), b.content = .heading level title ∧
      o.level = level ∧ o.span = some ⟨b.first, b.last⟩ := by
  obtain ⟨first, last, content⟩ := b
  cases content with
  | heading level title =>
    obtain ⟨e, he, ho⟩ := List.exists_of_findSome?_eq_some h
    obtain rfl := List.mem_singleton.mp he
    rw [Event.commandHeading?] at ho
    split at ho
    · obtain rfl := Option.some.inj ho
      exact ⟨level, title, rfl, rfl, rfl⟩
    · cases ho
  | paragraph => cases h
  | code => cases h
  | verbatim => cases h

/-- A block that is the heading of a command, with the blocks around it. -/
structure CommandBlock where
  before : List Block
  heading : Block
  opening : Opening
  after : List Block

/-- The command headings among blocks that come after others. -/
def commandBlocks (before : List Block) : List Block → List CommandBlock
  | [] => []
  | b :: bs =>
    ((commandOpening? b).map fun o => ⟨before, b, o, bs⟩).toList ++ commandBlocks (before ++ [b]) bs

/-- The same heading among the events of a document with so many lines. -/
def CommandBlock.toHeading (count : Nat) (x : CommandBlock) : CommandHeading :=
  ⟨x.before.flatMap Event.ofBlock, x.opening, x.after.flatMap Event.ofBlock ++ [.atEnd count]⟩

lemma commandHeadings_ofBlock (before : List Event) (b : Block) (es : List Event) :
    commandHeadings before (Event.ofBlock b ++ es) =
      ((commandOpening? b).map fun o => ⟨before, o, es⟩).toList ++
        commandHeadings (before ++ Event.ofBlock b) es := by
  obtain ⟨first, last, content⟩ := b
  cases content with
  | heading level title =>
    change _ = (Option.map _ (List.findSome? Event.commandHeading? [_])).toList ++ _
    rw [List.findSome?_singleton]
    rfl
  | paragraph => rfl
  | code => rfl
  | verbatim =>
    change commandHeadings before es = commandHeadings (before ++ []) es
    rw [List.append_nil]

lemma commandHeadings_blocks (before bs : List Block) (count : Nat) :
    commandHeadings (before.flatMap Event.ofBlock)
        (bs.flatMap Event.ofBlock ++ [.atEnd count]) =
      (commandBlocks before bs).map (CommandBlock.toHeading count) := by
  induction bs generalizing before with
  | nil => rfl
  | cons b bs ih =>
    -- What comes before the rest has to be of the form that the induction is on.
    have hbefore : before.flatMap Event.ofBlock ++ Event.ofBlock b =
        (before ++ [b]).flatMap Event.ofBlock := by simp
    rw [List.flatMap_cons, List.append_assoc, commandHeadings_ofBlock, hbefore, ih, commandBlocks,
      List.map_append]
    cases commandOpening? b <;> rfl

lemma mem_commandBlocks {before bs : List Block} {x : CommandBlock}
    (h : x ∈ commandBlocks before bs) :
    before ++ bs = x.before ++ x.heading :: x.after ∧ x.heading ∈ bs ∧
      commandOpening? x.heading = some x.opening := by
  induction bs generalizing before with
  | nil => cases h
  | cons b bs ih =>
    rcases List.mem_append.mp h with h | h
    · obtain ⟨o, ho, rfl⟩ : ∃ o, commandOpening? b = some o ∧ ⟨before, b, o, bs⟩ = x := by
        simpa using h
      exact ⟨rfl, List.mem_cons_self, ho⟩
    · obtain ⟨hplace, hmem, ho⟩ := ih h
      rw [List.append_cons]
      exact ⟨hplace, List.mem_cons_of_mem b hmem, ho⟩

/-- Each command heading comes after those before it. -/
lemma pairwise_commandBlocks (before bs : List Block) :
    (commandBlocks before bs).Pairwise fun x y => y.heading ∈ x.after := by
  induction bs generalizing before with
  | nil => exact .nil
  | cons b bs ih =>
    refine List.pairwise_append.mpr ⟨?_, ih _, fun x hx y hy => ?_⟩
    · cases commandOpening? b
      · exact .nil
      · exact List.pairwise_singleton _ _
    · obtain ⟨o, -, rfl⟩ : ∃ o, commandOpening? b = some o ∧ ⟨before, b, o, bs⟩ = x := by
        simpa using hx
      exact (mem_commandBlocks hy).2.1

/-! ### The last line -/

/-- The line before the next heading, or the last of so many lines if there is none. -/
def lastLine (count : Nat) (bs : List Block) : Int :=
  match bs.find? Block.isHeading with
  | some next => next.first - 1
  | none => count

lemma exists_boundary {count : Nat} (hcount : 1 ≤ count) (bs : List Block) :
    ∃ next, boundary? (bs.flatMap Event.ofBlock ++ [.atEnd count]) = some next ∧
      (lineOf next).getD 0 - 1 = lastLine count bs := by
  induction bs with
  | nil =>
    refine ⟨_, rfl, ?_⟩
    simp only [lineOf, lastLine, Option.map_some, Option.getD_some, List.find?_nil]
    omega
  | cons b bs ih =>
    obtain ⟨first, last, content⟩ := b
    cases content with
    | heading => exact ⟨_, rfl, rfl⟩
    | paragraph => exact ih
    | code => exact ih
    | verbatim => exact ih

/-- Where a command stands that has this heading. -/
def CommandBlock.place (path : Text) (count : Nat) (x : CommandBlock) : Location :=
  ⟨path, x.heading.first, lastLine count x.after, x.opening.level⟩

lemma lastLine_cons {b : Block} (h : b.isHeading = false) (count : Nat) (bs : List Block) :
    lastLine count (b :: bs) = lastLine count bs := by
  rw [lastLine, List.find?_cons_of_neg (by simp [h])]
  rfl

/-- The range goes at least as far as the line before the blocks. -/
lemma le_lastLine {lo count : Nat} {bs : List Block} (h : Within (lo + 1) (count + 1) bs) :
    (lo : Int) ≤ lastLine count bs := by
  unfold lastLine
  split
  · next next hnext =>
    have := (h.bounds (List.mem_of_find?_eq_some hnext)).1
    omega
  · have := h.le
    omega

/-- The range ends before every heading that comes. -/
lemma lastLine_lt {lo hi count : Nat} {bs : List Block} (h : Within lo hi bs) {b : Block}
    (hb : b ∈ bs) (heading : b.isHeading = true) : lastLine count bs < b.first := by
  -- The first block decides: it is the next heading, or it makes no difference.
  induction bs generalizing lo with
  | nil => cases hb
  | cons c cs ih =>
    obtain ⟨-, hc, hrest⟩ := h
    cases hheading : c.isHeading with
    | false =>
      rw [lastLine_cons hheading]
      refine ih hrest ((List.mem_cons.mp hb).resolve_left ?_)
      rintro rfl
      rw [heading] at hheading
      cases hheading
    | true =>
      rw [lastLine, List.find?_cons_of_pos hheading]
      rcases List.mem_cons.mp hb with rfl | hcs
      · exact Int.sub_one_lt_of_le (Int.le_refl _)
      · have := (hrest.bounds hcs).1
        dsimp only
        omega

/-! ### The code block -/

/-- The first code block is of this text, and no heading is before it. -/
inductive ReachesCode (text : Text) : List Block → Prop
  | here {first last : Nat} {info : Text} {bs : List Block} :
      ReachesCode text (⟨first, last, .code info text⟩ :: bs)
  | skip {b : Block} {bs : List Block} (noHeading : b.isHeading = false) (noCode : b.isCode = false)
      (later : ReachesCode text bs) : ReachesCode text (b :: bs)

lemma reachesCode {bs : List Block} {count : Nat} {ps : List Paragraph} {b : CodeBlock}
    {es : List Event}
    (h : bs.flatMap Event.ofBlock ++ [.atEnd count] = ps.map Paragraph.event ++ b.event :: es) :
    ReachesCode b.text bs := by
  induction bs generalizing ps with
  | nil => cases ps <;> cases h
  | cons c cs ih =>
    obtain ⟨first, last, content⟩ := c
    cases content with
    | heading => cases ps <;> cases h
    | paragraph =>
      cases ps with
      | nil => cases h
      | cons p ps => exact .skip rfl rfl (ih (List.cons.inj h).2)
    | code info body =>
      cases ps with
      | nil =>
        obtain rfl := (Event.source.inj (List.cons.inj h).1).2.2.2
        exact .here
      | cons p ps => cases h
    | verbatim => exact .skip rfl rfl (ih h)

/-- The first code block stands before the next heading. -/
lemma ReachesCode.bounds {text : Text} {bs : List Block} (h : ReachesCode text bs)
    {lo count : Nat} (hbs : Within lo (count + 1) bs) :
    ∃ code info, bs.find? Block.isCode = some code ∧ code.content = .code info text ∧
      lo ≤ code.first ∧ code.first ≤ code.last ∧ code.last ≤ lastLine count bs := by
  induction h generalizing lo with
  | @here first last info bs =>
    obtain ⟨hlo, hcode, hrest⟩ := hbs
    refine ⟨_, info, List.find?_cons_of_pos rfl, rfl, hlo, hcode, ?_⟩
    rw [lastLine_cons rfl]
    exact le_lastLine hrest
  | @skip b bs noHeading noCode later ih =>
    obtain ⟨hlo, hb, hrest⟩ := hbs
    obtain ⟨code, info, hfind, hcontent, hfirst, hcode, hlast⟩ := ih hrest
    refine ⟨code, info, ?_, hcontent, by omega, hcode, ?_⟩
    · rw [List.find?_cons_of_neg (by simp [noCode]), hfind]
    · rw [lastLine_cons noHeading]
      exact hlast

/-! ### Commands -/

/-- A command has its range from the boundary after its heading, and its source from the code block
that comes after paragraphs. -/
structure CommandHeading.Locates (path : Text) (x : CommandHeading) (c : Command) : Prop where
  location : c.location = (boundary? x.after).map fun next =>
    ⟨path, (lineOf x.opening.span).getD (-1), (lineOf next).getD 0 - 1, x.opening.level⟩
  body : ∃ (paragraphs : List Paragraph) (block : CodeBlock) (more : List Event),
    x.after = paragraphs.map Paragraph.event ++ block.event :: more ∧ c.source = block.text

lemma Placed.Gives.locates {path : Text} {x : Placed} {c : Command} (h : x.Gives path c) :
    x.heading.Locates path c := by
  obtain ⟨made, hmade, rfl⟩ := h
  obtain ⟨name, inHeading, placeholders, hname, rfl⟩ := Opening.command_ok hmade
  constructor
  · rw [heading, x.entry.boundary?_body, Opening.locate]
    cases boundary? x.after <;> rfl
  · refine ⟨x.entry.paragraphs, x.entry.block, x.after, ?_, ?_⟩
    · rw [heading, CommandParts.body, List.append_assoc]
      rfl
    · rw [Opening.locate]
      split <;> rfl

lemma CommandHeading.Locates.place {path : Text} {count : Nat} {x : CommandBlock} {c : Command}
    (h : (x.toHeading count).Locates path c) (hcount : 1 ≤ count)
    (hopening : commandOpening? x.heading = some x.opening) :
    c.location = some (x.place path count) := by
  obtain ⟨next, hnext, hlast⟩ := exists_boundary hcount x.after
  obtain ⟨level, title, -, -, hspan⟩ := commandOpening?_eq hopening
  have hafter : boundary? (x.toHeading count).after = some next := hnext
  have hfirst : (lineOf (x.toHeading count).opening.span).getD (-1) = x.heading.first := by
    change (lineOf x.opening.span).getD (-1) = x.heading.first
    rw [hspan]
    rfl
  rw [h.location, hafter, Option.map_some, hlast, hfirst]
  rfl

/-- A command stands on the lines from the first of its heading to the one before the next heading,
or to the last one, and its code block is among them. -/
structure CommandBlock.Locates (path : Text) (ls : List Text) (x : CommandBlock) (c : Command) :
    Prop where
  heading : HeadingLines ls x.heading
  location : ∃ (level : Nat) (title : List Inline), x.heading.content = .heading level title ∧
    c.location = some ⟨path, x.heading.first, lastLine ls.length x.after, level⟩
  bounds : 1 ≤ x.heading.first ∧ x.heading.first ≤ lastLine ls.length x.after
  code : ∃ (code : Block) (info : Text), x.after.find? Block.isCode = some code ∧
    code.content = .code info c.source ∧ x.heading.last < code.first ∧ code.first ≤ code.last ∧
      code.last ≤ lastLine ls.length x.after

section Document
variable {path text : Text} {x y : CommandBlock} {c : Command}

lemma within_of_mem (hx : x ∈ commandBlocks [] (blocks text)) :
    1 ≤ x.heading.first ∧ x.heading.first ≤ x.heading.last ∧
      Within (x.heading.last + 1) ((lines text).length + 1) x.after := by
  have hbs := blocks_within text
  rw [← List.nil_append (blocks text), (mem_commandBlocks hx).1] at hbs
  exact hbs.after

lemma isHeading_of_mem (hx : x ∈ commandBlocks [] (blocks text)) : x.heading.isHeading = true := by
  obtain ⟨level, title, hcontent, -, -⟩ := commandOpening?_eq (mem_commandBlocks hx).2.2
  rw [Block.isHeading, hcontent]

lemma place_of_mem (hx : x ∈ commandBlocks [] (blocks text))
    (h : (x.toHeading (lines text).length).Locates path c) :
    c.location = some (x.place path (lines text).length) := by
  obtain ⟨hfirst, hlast, hafter⟩ := within_of_mem hx
  have := hafter.le
  exact h.place (by omega) (mem_commandBlocks hx).2.2

lemma locates_of_mem (hx : x ∈ commandBlocks [] (blocks text))
    (h : (x.toHeading (lines text).length).Locates path c) : x.Locates path (lines text) c := by
  obtain ⟨hfirst, hlast, hafter⟩ := within_of_mem hx
  obtain ⟨level, title, hcontent, hlevel, -⟩ := commandOpening?_eq (mem_commandBlocks hx).2.2
  refine ⟨blocks_headingLines (mem_commandBlocks hx).2.1 (isHeading_of_mem hx), ?_, ?_, ?_⟩
  · refine ⟨level, title, hcontent, ?_⟩
    rw [place_of_mem hx h, CommandBlock.place, hlevel]
  · have := le_lastLine hafter
    exact ⟨hfirst, by omega⟩
  · obtain ⟨paragraphs, block, more, hevents, hsource⟩ := h.body
    rw [hsource]
    exact (reachesCode hevents).bounds hafter

/-- The range of a command ends before the heading of a later one. -/
lemma place_lt (hx : x ∈ commandBlocks [] (blocks text))
    (hy : y ∈ commandBlocks [] (blocks text)) (hafter : y.heading ∈ x.after) (count : Nat) :
    (x.place path count).last < (y.place path count).first :=
  lastLine_lt (within_of_mem hx).2.2 hafter (isHeading_of_mem hy)

end Document

/-- The commands of a document that is read are those of its command headings, one by one, each in
its place. No two of them share a line, and the earlier one stands before the later one. -/
theorem parseAfter_locations (reader : Yaml.Reader) (path text : Text) {catalog : Catalog}
    (h : (parseAfter reader path text).1 = .ok catalog) :
    List.Forall₂ (CommandBlock.Locates path (lines text)) (commandBlocks [] (blocks text))
        catalog.commands ∧
      catalog.commands.Pairwise fun c d =>
        ∀ l ∈ c.location, ∀ m ∈ d.location, l.last < m.first := by
  obtain ⟨⟨entries, hevents⟩, hread⟩ := entries_of_ofEventsAfter h
  set xs := commandBlocks [] (blocks text)
  set count := (lines text).length
  have hlocates : List.Forall₂
      (fun x c => x ∈ xs ∧ (CommandBlock.toHeading count x).Locates path c)
      xs catalog.commands := by
    have hheadings := commandHeadings_blocks [] (blocks text) count
    rw [← Event.ofNode_document, hevents] at hheadings
    refine (List.forall₂_and_left _ _).mpr ⟨fun _ hx => hx, ?_⟩
    rw [← List.forall₂_map_left_iff, ← hheadings, commandHeadings_flatMap,
      List.forall₂_map_left_iff]
    exact (hread entries hevents).1.imp fun _ _ => Placed.Gives.locates
  refine ⟨hlocates.imp fun x c hx => locates_of_mem hx.1 hx.2, ?_⟩
  -- The order is that of the headings, since the places are theirs.
  have hplaces : catalog.commands.map Command.location =
      xs.map fun x => some (x.place path count) := by
    rw [← List.forall₂_eq_eq_eq, List.forall₂_map_left_iff, List.forall₂_map_right_iff]
    exact (hlocates.imp fun x c hx => place_of_mem hx.1 hx.2).flip
  have hpairs : (catalog.commands.map Command.location).Pairwise
      fun l m => ∀ l' ∈ l, ∀ m' ∈ m, l'.last < m'.first := by
    rw [hplaces, List.pairwise_map]
    refine (pairwise_commandBlocks [] (blocks text)).imp_of_mem ?_
    intro x y hx hy hafter l hl m hm
    obtain rfl := Option.some.inj hl
    obtain rfl := Option.some.inj hm
    exact place_lt hx hy hafter count
  exact List.pairwise_map.mp hpairs

/-- A title of two lines, a heading for settings between commands, and a fence without an end. -/
def manual : Text :=
  unlines ["Say", "`hello`", "---", "Greets.", "~~~sh", "echo hello", "~~~",
    "# Settings \x7b.config\x7d", "~~~", "~~~", "# `bye`", "~~~", "echo bye"]

def manualCatalog : Catalog where
  settings := some {}
  commands :=
    [{ name := "Say", language := .bash, source := "echo hello\n", description := some "Greets."
       location := some ⟨"notes.md", 1, 7, 2⟩ },
      { name := "bye", source := "echo bye\n", location := some ⟨"notes.md", 11, 13, 1⟩ }]
  path := "notes.md"

theorem parseAfter_manual :
    (parseAfter {} "notes.md" manual).1 = .ok manualCatalog ∧
      List.Forall₂ (CommandBlock.Locates "notes.md" (lines manual))
        (commandBlocks [] (blocks manual)) manualCatalog.commands ∧
      manualCatalog.commands.Pairwise fun c d =>
        ∀ l ∈ c.location, ∀ m ∈ d.location, l.last < m.first := by
  have read : (parseAfter {} "notes.md" manual).1 = .ok manualCatalog := by decide +kernel
  exact ⟨read, parseAfter_locations {} "notes.md" manual read⟩

end Runbook.Catalog
