import Mathlib.Tactic.Common
import Runbook.Proofs.Catalog.Layout
import Runbook.Proofs.Catalog.Location
import Runbook.Proofs.Placeholder.Canonical

/-! The placeholders of a command stand in its heading or after the language of its code block. The
command is the same; with placeholders in both places there is none. -/
namespace Runbook.Catalog
open Markdown Text

lemma code_not_blank (c : Char) (h : Placeholder.isCodeChar c = true) : (!isBlank c) = true :=
  (Bool.and_eq_true_iff.mp h).1

section Placeholders
variable {p : Placeholder} {ps : List Placeholder} {word : Text}

/-- The braces of a placeholder are that of its opener and the closing one. -/
lemma guarded_render (h : p.Plain) : Guarded p.render := by
  have plain {s : Text} (hs : s.all Placeholder.isPlainChar = true) :
      s.all (· != '\x7b') = true :=
    all_mono (fun c hc => by simp_all [Placeholder.isPlainChar]) hs
  have hopener : Guarded p.target.opener := by
    have hsign : Guarded ['=', '\x7b'] := .opener (by decide) .nil
    cases ht : p.target with
    | input => exact .opener (by decide) .nil
    | argument => exact .opener (by decide) .nil
    | environment v =>
      have hv := all_mono (fun c hc => Placeholder.isPlainChar_of (by decide +kernel) hc)
        (h.environment v ht).2
      exact (Guarded.of_all (plain hv)).append hsign
  have hlinks : (p.modifiers.flatMap fun m => " | ".toList ++ m.render).all (· != '\x7b') =
      true := by
    rw [List.all_flatMap, List.all_eq_true]
    intro m hm
    rw [List.all_append, (h.spaced_modifier hm).all (q := (· != '\x7b')) ?_ (by decide)]
    · decide
    · intro c hc
      simp_all [Placeholder.isPlainChar]
  have hrest : ['\x7d'].all (· != '\x7b') = true := by decide
  rw [Placeholder.render]
  exact ((hopener.append (.of_all (plain h.nameChars))).append (.of_all hlinks)).append
    (.of_all hrest)

/-- A word and placeholders after it. -/
def followed (word : Text) (ps : List Placeholder) : Text :=
  unwords (word :: ps.map Placeholder.render)

lemma followed_eq (word : Text) (ps : List Placeholder) :
    followed word ps = word ++ ps.flatMap (' ' :: ·.render) := by
  rw [followed, unwords_cons, List.flatMap_map]

lemma spaced_followed (hne : word ≠ []) (hword : word.all Placeholder.isCodeChar = true)
    (hps : ∀ p ∈ ps, p.Plain) : Spaced Placeholder.isCodeChar (followed word ps) := by
  rw [followed, unwords_cons]
  refine (Spaced.word hne hword).flatMap fun t ht => ?_
  obtain ⟨p, hp, rfl⟩ := List.mem_map.mp ht
  exact (hps p hp).spaced

lemma guarded_followed (hword : word.all (· != '\x7b') = true) (hps : ∀ p ∈ ps, p.Plain) :
    Guarded (followed word ps) := by
  have hall : Guarded (ps.flatMap (' ' :: ·.render)) := by
    induction ps with
    | nil => exact .nil
    | cons p ps ih =>
      obtain ⟨hp, hps⟩ := List.forall_mem_cons.mp hps
      exact (Guarded.other (by decide) (guarded_render hp)).append (ih hps)
  rw [followed_eq]
  exact (Guarded.of_all hword).append hall

/-- The first word is followed by the words of the placeholders. -/
lemma words_followed (hne : word ≠ []) (hword : word.all (!isBlank ·) = true)
    (hps : ∀ p ∈ ps, p.Plain) : ∃ ws, words (followed word ps) = word :: ws ∧
      unwords ws = unwords (ps.map Placeholder.render) := by
  cases ps with
  | nil =>
    refine ⟨[], ?_, rfl⟩
    rw [followed_eq, List.flatMap_nil, List.append_nil, words_of_all hword,
      if_neg (by simpa using hne)]
  | cons p ps =>
    obtain ⟨hp, hps⟩ := List.forall_mem_cons.mp hps
    have hspaced : Spaced Placeholder.isCodeChar (unwords ((p :: ps).map Placeholder.render)) := by
      rw [List.map_cons, unwords_cons]
      refine hp.spaced.flatMap fun t ht => ?_
      obtain ⟨q, hq, rfl⟩ := List.mem_map.mp ht
      exact (hps q hq).spaced
    refine ⟨words (unwords ((p :: ps).map Placeholder.render)), ?_,
      hspaced.unwords_words code_not_blank⟩
    rw [← words_append hne hword (show isBlank ' ' = true by decide)]
    simp [followed, unwords, joinWith]

/-- The first word is a name, with the placeholders that are found after it. -/
lemma splitName_followed (hne : word ≠ []) (hword : word.all (!isBlank ·) = true)
    (ps : List Placeholder) : Placeholder.splitName (followed word ps) =
      ((Placeholder.scan (ps.flatMap (' ' :: ·.render))).mapError
        (·.inText (ps.flatMap (' ' :: ·.render)))).map (word, ·) := by
  have hafter : Clear (!isBlank ·) (ps.flatMap (' ' :: ·.render)) := by
    cases ps with
    | nil => exact clear_nil _
    | cons p ps => exact clear_cons.mpr (by decide)
  have hclear : Clear isBlank (word ++ ps.flatMap (' ' :: ·.render)) :=
    (clear_of_all hword).append_of_ne_nil hne _
  rw [Placeholder.splitName, followed_eq, trimStart, dropWhile_clear hclear]
  simp only [takeWhile_append_clear hword hafter, dropWhile_append_clear hword hafter]
  cases Placeholder.scan (ps.flatMap (' ' :: ·.render)) <;> rfl

end Placeholders

/-! ### Documents -/

/-- A command as it is written: its name and the lines of its source. -/
structure Snippet where
  name : Text
  named : name ≠ []
  nameChars : name.all isTitleChar = true
  source : List Text
  unbroken : ∀ l ∈ source, l.all (!isLineBreak ·) = true
  unclosed : ∀ l ∈ source, ¬ ClosesTicks l

namespace Snippet
variable (x : Snippet) (ps qs : List Placeholder)

/-- The lines of the command, with placeholders in the heading and others after the language. -/
def lines : List Text :=
  ("# `" ++ followed x.name ps ++ ['`']) :: ("```" ++ followed "bash" qs) ::
    (x.source ++ ["```".toList])

def document : Text := unlines (x.lines ps qs)

/-- The command, with all its placeholders. -/
def command (path : Text) : Command where
  name := x.name
  language := .bash
  source := unlines x.source
  placeholders := ps
  hidden := isHiddenName x.name
  location := some ⟨path, 1, x.source.length + 3, 1⟩

def opening : Opening := ⟨some ⟨1, 1⟩, 1, { name := followed x.name ps, flags := ["command"] }⟩

lemma name_not_blank : x.name.all (!isBlank ·) = true :=
  all_mono (fun c hc => by simp [titleChar_not_blank hc]) x.nameChars

variable {x ps qs}

lemma code_name : x.name.all Placeholder.isCodeChar = true :=
  all_mono (fun c hc => by
    simp [Placeholder.isCodeChar, titleChar_not_blank hc, titleChar_ne hc (d := '`') (by decide)])
    x.nameChars

lemma spaced_heading (hps : ∀ p ∈ ps, p.Plain) :
    Spaced Placeholder.isCodeChar (followed x.name ps) :=
  spaced_followed x.named x.code_name hps

lemma spaced_info (hqs : ∀ q ∈ qs, q.Plain) : Spaced Placeholder.isCodeChar (followed "bash" qs) :=
  spaced_followed (by decide) (by decide +kernel) hqs

/-- No line of the command has a line break in it. -/
lemma lines_unbroken (hps : ∀ p ∈ ps, p.Plain) (hqs : ∀ q ∈ qs, q.Plain) :
    ∀ l ∈ x.lines ps qs, l.all (!isLineBreak ·) = true := by
  have inside {s : Text} (hs : Spaced Placeholder.isCodeChar s) : s.all (!isLineBreak ·) = true :=
    hs.all (fun c hc => by simp_all [Placeholder.isCodeChar, isBlank]) (by decide)
  have hheading : ("# `" ++ followed x.name ps ++ ['`']).all (!isLineBreak ·) = true := by
    rw [List.all_append, List.all_append, inside (spaced_heading hps)]
    decide
  have hinfo : ("```" ++ followed "bash" qs).all (!isLineBreak ·) = true := by
    rw [List.all_append, inside (spaced_info hqs)]
    decide
  refine List.forall_mem_cons.mpr ⟨hheading, List.forall_mem_cons.mpr ⟨hinfo, fun l hl => ?_⟩⟩
  rcases List.mem_append.mp hl with hl | hl
  · exact x.unbroken l hl
  · obtain rfl := List.mem_singleton.mp hl
    decide

/-- The heading is a code span and nothing else. -/
lemma inline_heading (hps : ∀ p ∈ ps, p.Plain) :
    Markdown.inline ('`' :: followed x.name ps ++ ['`']) = [.code (followed x.name ps)] := by
  have hspaced := spaced_heading (x := x) hps
  have htick : (followed x.name ps).all (· != '`') = true :=
    hspaced.all (fun c hc => (Bool.and_eq_true_iff.mp hc).2) (by decide)
  have hfeed : '\n' ∉ followed x.name ps := by
    intro hmem
    have hall : (followed x.name ps).all (!isLineBreak ·) = true :=
      hspaced.all (fun c hc => by simp_all [Placeholder.isCodeChar, isBlank]) (by decide)
    exact absurd (List.all_eq_true.mp hall _ hmem) (by decide)
  have hspace : (followed x.name ps).head? ≠ some ' ' := by
    intro hhead
    exact absurd (hspaced.clear code_not_blank ' ' hhead) (by decide)
  have hempty : Markdown.inline [] = [] := by
    rw [Markdown.inline, Inline.pieces, Inline.ofPieces]
  rw [inline_span hspaced.ne_nil htick (clear_nil _), Inline.spanContent_eq hfeed hspace, hempty]

/-- The code span ends with a name or a brace. -/
lemma getLast?_heading (x : Snippet) (ps : List Placeholder) :
    (followed x.name ps).getLast? ≠ some '&' := by
  intro hlast
  rw [followed_eq] at hlast
  rcases ps.eq_nil_or_concat' with rfl | ⟨ps, p, rfl⟩
  · rw [List.flatMap_nil, List.append_nil] at hlast
    exact titleChar_ne (List.all_eq_true.mp x.nameChars _ (List.mem_of_getLast? hlast))
      (d := '&') (by decide) rfl
  · obtain ⟨front, hfront⟩ : ∃ front, p.render = front ++ ['\x7d'] := ⟨_, rfl⟩
    have hend : x.name ++ (ps ++ [p]).flatMap (' ' :: ·.render) =
        x.name ++ (ps.flatMap (' ' :: ·.render) ++ ' ' :: front) ++ ['\x7d'] := by
      simp [hfront]
    rw [hend, List.getLast?_concat] at hlast
    cases hlast

/-- The heading is read as that of a command, with the code span as its name. -/
lemma headingOf_heading (hps : ∀ p ∈ ps, p.Plain) :
    Event.headingOf ((Markdown.inline ('`' :: followed x.name ps ++ ['`'])).map Node.ofInline) =
      { name := followed x.name ps, flags := ["command".toList] } := by
  have hspaced := spaced_heading (x := x) hps
  have htrim : trim (followed x.name ps) = followed x.name ps := hspaced.trim_eq code_not_blank
  have hblank : isBlankText (followed x.name ps) = false :=
    isBlankText_of_clear hspaced.ne_nil (hspaced.clear code_not_blank)
  have hplain : Node.plainText [Node.ofInline (.code (followed x.name ps))] =
      followed x.name ps := by
    change unwords ((if isBlankText _ then [] else [trim _]) ++ [] ++ []) = _
    rw [hblank, htrim]
    rfl
  have hbraces : (x.name).all (· != '\x7b') = true :=
    all_mono (fun c hc => by simpa using titleChar_ne hc (by decide)) x.nameChars
  have hparse : Heading.parse (followed x.name ps) = ⟨followed x.name ps, [], []⟩ :=
    Heading.parse_guarded (guarded_followed hbraces hps)
  have hspan : Event.codeSpan? [Node.ofInline (.code (followed x.name ps))] =
    some (followed x.name ps) := rfl
  rw [inline_heading hps, List.map_singleton, Event.headingOf, hplain, hparse, hspan]
  simp only [htrim, if_neg (getLast?_heading x ps)]
  rfl

lemma blocks_document (hps : ∀ p ∈ ps, p.Plain) (hqs : ∀ q ∈ qs, q.Plain) :
    blocks (x.document ps qs) =
      [⟨1, 1, .heading 1 (Markdown.inline ('`' :: followed x.name ps ++ ['`']))⟩,
        ⟨2, x.source.length + 3, .code (followed "bash" qs) (unlines x.source)⟩] := by
  have hlines : Text.lines (x.document ps qs) = x.lines ps qs :=
    lines_unlines (lines_unbroken hps hqs)
  have hinfo := spaced_info hqs
  have htick : (followed "bash" qs).all (· != '`') = true :=
    hinfo.all (fun c hc => (Bool.and_eq_true_iff.mp hc).2) (by decide)
  set title := '`' :: followed x.name ps ++ ['`'] with htitle
  have hback {p : Char → Bool} (hp : p '`' = false) : Clear p title.reverse := by
    rw [htitle, List.cons_append, List.reverse_cons, List.reverse_append]
    exact clear_cons.mpr hp
  have hheading : Pending.begin 1 (List.replicate 1 '#' ++ ' ' :: title) =
      ([⟨1, 1, .heading 1 (Markdown.inline title)⟩], .idle) :=
    begin_heading 1 (by decide) (by decide) (clear_cons.mpr (by decide)) (hback (by decide))
      (hback (by decide))
  have hfirst : Pending.idle.step (0 + 1) ("# `" ++ followed x.name ps ++ ['`']) = _ := hheading
  have hopen : Pending.idle.step (0 + 1 + 1) ("```" ++ followed "bash" qs) = _ :=
    begin_ticks (0 + 1 + 1) (hinfo.trim_eq code_not_blank) htick
  have hsource : ∀ l ∈ x.source, (⟨0, '`', 3, followed "bash" qs⟩ : Fence).closes l = false := by
    intro l hl
    rw [Bool.eq_false_iff]
    exact fun h => x.unclosed l hl (closes_iff.mp h)
  have hclose : (⟨0, '`', 3, followed "bash" qs⟩ : Fence).closes "```" = true := rfl
  have hlast : 0 + 1 + 1 + x.source.length + 1 = x.source.length + 3 := by omega
  rw [blocks, hlines, lines, readLines, hfirst, readLines, hopen,
    readLines_fenced rfl hsource hclose, hlast]
  rfl

/-- The events of the document: a heading of a command and its code block. -/
lemma events_document (hps : ∀ p ∈ ps, p.Plain) (hqs : ∀ q ∈ qs, q.Plain) :
    ∃ words : List Text, unwords words = unwords (qs.map Placeholder.render) ∧
      Event.ofNode (Markdown.document (x.document ps qs)) =
        [(x.opening ps).event,
          .source (some ⟨2, x.source.length + 3⟩) .bash words (unlines x.source),
          .atEnd (x.source.length + 3)] := by
  have hword : ("bash" : Text).all (!isBlank ·) = true := by decide
  obtain ⟨ws, hwords, hws⟩ := words_followed (by decide) hword hqs
  have hinfo : Event.infoWords (followed "bash" qs) = (.bash, ws) := by
    have hbash : Language.ofTag "bash" = .bash := by decide +kernel
    rw [Event.infoWords, hwords]
    exact congrArg (·, ws) hbash
  have hcount : (Text.lines (x.document ps qs)).length = x.source.length + 3 := by
    rw [document, lines_unlines (lines_unbroken hps hqs)]
    simp [lines]
  refine ⟨ws, hws, ?_⟩
  rw [Event.ofNode_document, blocks_document hps hqs, hcount]
  change [Event.heading (some ⟨1, 1⟩) 1 (Event.headingOf _),
    Event.source (some ⟨2, _⟩) (Event.infoWords _).1 (Event.infoWords _).2 _, _] = _
  rw [headingOf_heading hps, hinfo]
  rfl

/-- The heading awaits the code block, and the end of the document is the end of the command. -/
lemma run_document (reader : Yaml.Reader) (path : Text) (words : List Text) :
    [(x.opening ps).event, .source (some ⟨2, x.source.length + 3⟩) .bash words (unlines x.source),
        .atEnd (x.source.length + 3)].foldlM (Progress.step path) { reader } =
      ((x.opening ps).command path ∅ none .bash words (unlines x.source)).map fun c =>
        { scope := Scope.after [] (x.opening ps).event, reader
          ended := [{ c with location := some ⟨path, 1, x.source.length + 3, 1⟩ }] } := by
  set o := x.opening ps
  let b : CodeBlock := ⟨some ⟨2, x.source.length + 3⟩, .bash, words, unlines x.source⟩
  let p : Progress := { scope := Scope.after [] o.event, awaiting := .source o ∅ none, reader }
  have hheading : ({ reader } : Progress).step path o.event = .ok p := by
    rw [Progress.step_anything rfl, Progress.continue_commandHeading rfl]
    rfl
  have hsource : p.step path b.event =
      (o.command path ∅ none .bash words (unlines x.source)).map fun c =>
        { p with current := some (c, o), awaiting := .anything } := Progress.step_source rfl b
  rw [List.foldlM_cons, hheading]
  change List.foldlM (Progress.step path) p [b.event, _] = _
  rw [List.foldlM_cons, hsource]
  cases o.command path ∅ none .bash words (unlines x.source) with
  | error e => rfl
  | ok c =>
    have hlast : max ((x.source.length + 3 : Nat) : Int) 1 + 1 - 1 = x.source.length + 3 := by
      omega
    rw [← hlast]
    rfl

/-- The document is read as the one command that its heading and its code block make. -/
lemma parseAfter_document (reader : Yaml.Reader) (path : Text) (hps : ∀ p ∈ ps, p.Plain)
    (hqs : ∀ q ∈ qs, q.Plain) :
    ∃ words : List Text, unwords words = unwords (qs.map Placeholder.render) ∧
      (parseAfter reader path (x.document ps qs)).1 =
        ((x.opening ps).command path ∅ none .bash words (unlines x.source)).map fun c =>
          ⟨none, [{ c with location := some ⟨path, 1, x.source.length + 3, 1⟩ }], path⟩ := by
  obtain ⟨ws, hws, hevents⟩ := events_document (x := x) hps hqs
  refine ⟨ws, hws, ?_⟩
  rw [parseAfter, ofEventsAfter_eq_bind, hevents, run_document]
  cases (x.opening ps).command path ∅ none .bash ws (unlines x.source) <;> rfl

/-- What the heading and the code block make, if all placeholders can be read. -/
lemma command_opening (path : Text) {words : List Text}
    (hwords : unwords words = unwords (qs.map Placeholder.render))
    (hps : ∀ p ∈ ps, p.Readable) (hqs : ∀ q ∈ qs, q.Readable) :
    (x.opening ps).command path ∅ none .bash words (unlines x.source) =
      if ps ≠ [] ∧ qs ≠ [] then .error (.catalog ⟨path, some 1⟩ (.placeholdersTwice x.name))
      else .ok { x.command (ps ++ qs) path with location := none } := by
  have hname : Placeholder.splitName (x.opening ps).heading.name = .ok (x.name, ps) := by
    rw [opening, splitName_followed x.named x.name_not_blank, Placeholder.scan_flatMap hps]
    rfl
  have hscan : Placeholder.scan (unwords words) = .ok qs := by
    rw [hwords, Placeholder.scan_unwords hqs]
  have hback : (x.opening ps).heading.hasFlag "bg" = false := rfl
  rw [Opening.command, hname]
  simp only [hscan, hback]
  cases ps with
  | nil => rfl
  | cons p ps =>
    cases qs with
    | nil => simp [command]
    | cons q qs => rfl

/-- A numeral that is too long in the heading ends the reading. -/
lemma parseAfter_longNumeral (x : Snippet) (reader : Yaml.Reader) (path : Text)
    (hps : ∀ p ∈ ps, p.Plain) (hqs : ∀ q ∈ qs, q.Plain) {digits : Nat}
    (h : Placeholder.scan (ps.flatMap (' ' :: ·.render)) = .error (.longNumeral digits)) :
    (parseAfter reader path (x.document ps qs)).1 = .error (.longNumeral digits) := by
  obtain ⟨words, -, hread⟩ := parseAfter_document (x := x) reader path hps hqs
  have hname : Placeholder.splitName (x.opening ps).heading.name =
      .error (.longNumeral digits) := by
    rw [opening, splitName_followed x.named x.name_not_blank, h]
    rfl
  rw [hread, Opening.command, hname]
  rfl

/-- A command has the same meaning with its placeholders in either place. With placeholders in both
places it is refused. -/
theorem parseAfter_placement (x : Snippet) (reader : Yaml.Reader) (path : Text)
    {ps : List Placeholder} (hne : ps ≠ []) (hps : ∀ p ∈ ps, p.Readable) :
    (parseAfter reader path (x.document ps [])).1 = .ok ⟨none, [x.command ps path], path⟩ ∧
      (parseAfter reader path (x.document [] ps)).1 = .ok ⟨none, [x.command ps path], path⟩ ∧
      ∀ qs : List Placeholder, qs ≠ [] → (∀ q ∈ qs, q.Readable) →
        (parseAfter reader path (x.document ps qs)).1 =
          .error (.catalog ⟨path, some 1⟩ (.placeholdersTwice x.name)) := by
  have read {ps qs : List Placeholder} (hps : ∀ p ∈ ps, p.Readable)
      (hqs : ∀ q ∈ qs, q.Readable) : (parseAfter reader path (x.document ps qs)).1 =
        if ps ≠ [] ∧ qs ≠ [] then .error (.catalog ⟨path, some 1⟩ (.placeholdersTwice x.name))
        else .ok ⟨none, [x.command (ps ++ qs) path], path⟩ := by
    obtain ⟨words, hwords, hread⟩ := parseAfter_document (x := x) reader path
      (fun p hp => (hps p hp).toPlain) fun q hq => (hqs q hq).toPlain
    rw [hread, command_opening path hwords hps hqs]
    split <;> rfl
  have hnone : ∀ p ∈ ([] : List Placeholder), p.Readable := List.forall_mem_nil _
  refine ⟨?_, ?_, fun qs hqs hall => ?_⟩
  · rw [read hps hnone, if_neg (by simp), List.append_nil]
  · rw [read hnone hps, if_neg (by simp), List.nil_append]
  · rw [read hps hall, if_pos ⟨hne, hqs⟩]

def send : Snippet where
  name := "send"
  named := by decide
  nameChars := by decide
  source := ["cat > $1"]
  unbroken := by decide
  unclosed := by decide

def fileAndHosts : List Placeholder :=
  [{ target := .input, name := "files", format := .fields [1, 3], filter := some "x"
     multiple := true },
    { target := .environment "HOST", name := "hosts", format := .columns true [2]
      takesAll := true }]

lemma readable_fileAndHosts : ∀ p ∈ fileAndHosts, p.Readable := by
  refine List.forall_mem_cons.mpr ⟨?_, List.forall_mem_singleton.mpr ?_⟩
  · exact
      { nameChars := by decide +kernel, environment := nofun, fields := by decide
        filter := by decide, named := by decide, short := by decide }
  · exact
      { nameChars := by decide +kernel
        environment := fun v hv => Target.environment.inj hv ▸ by decide
        fields := by decide, filter := nofun, named := by decide, short := by decide }

theorem parseAfter_send :
    fileAndHosts ≠ [] ∧ (∀ p ∈ fileAndHosts, p.Readable) ∧
      (parseAfter {} "c.md" (send.document fileAndHosts [])).1 =
        .ok ⟨none, [send.command fileAndHosts "c.md"], "c.md"⟩ ∧
      (parseAfter {} "c.md" (send.document [] fileAndHosts)).1 =
        .ok ⟨none, [send.command fileAndHosts "c.md"], "c.md"⟩ ∧
      (parseAfter {} "c.md" (send.document fileAndHosts fileAndHosts)).1 =
        .error (.catalog ⟨"c.md", some 1⟩ (.placeholdersTwice "send")) := by
  have hne : fileAndHosts ≠ [] := List.cons_ne_nil _ _
  obtain ⟨hheading, hsource, hboth⟩ :=
    parseAfter_placement send {} "c.md" hne readable_fileAndHosts
  exact ⟨hne, readable_fileAndHosts, hheading, hsource,
    hboth fileAndHosts hne readable_fileAndHosts⟩

example : send.document [] fileAndHosts =
    ("# `send`\n```bash <\x7bfiles | fields 1,3 | filter \"x\" | multi\x7d ".toList ++
      "HOST=\x7bhosts | cols+h 2 | list\x7d\ncat > $1\n```\n".toList) := by
  decide +kernel

/-- An empty name and a number with one digit too many can be written, but not read. -/
theorem parseAfter_unreadable :
    (⟨.input, [], .lines, none, false, false⟩ : Placeholder).Plain ∧
      (parseAfter {} "c.md" (send.document [⟨.input, [], .lines, none, false, false⟩] [])).1 =
        .error (.catalog ⟨"c.md", some 1⟩ (.placeholder "send <\x7b\x7d" .nameExpected 3)) ∧
      (Placeholder.field (10 ^ numeralLimit)).Plain ∧
      (parseAfter {} "c.md" (send.document [Placeholder.field (10 ^ numeralLimit)] [])).1 =
        .error (.longNumeral (numeralLimit + 1)) := by
  have hnameless : (⟨.input, [], .lines, none, false, false⟩ : Placeholder).Plain :=
    { nameChars := rfl, environment := nofun, fields := nofun, filter := nofun }
  have hfield : (Placeholder.field (10 ^ numeralLimit)).Plain :=
    { nameChars := by decide +kernel, environment := nofun, filter := nofun
      fields := fun h => List.cons_ne_nil _ _ (Format.fields.inj h) }
  have hlength : (ofNat (10 ^ numeralLimit)).length = numeralLimit + 1 :=
    length_ofNat_pow (by decide)
  have hread := Placeholder.read?_field (n := 10 ^ numeralLimit) (by omega) []
  refine ⟨hnameless, by decide +kernel, hfield, ?_⟩
  refine parseAfter_longNumeral send {} "c.md" (List.forall_mem_singleton.mpr hfield)
    (List.forall_mem_nil _) ?_
  rw [List.flatMap_cons, List.flatMap_nil, List.cons_append, Placeholder.scan_space,
    Placeholder.scan_of_error hread, hlength]

end Snippet

end Runbook.Catalog
