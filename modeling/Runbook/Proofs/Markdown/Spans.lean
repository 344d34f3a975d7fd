import Mathlib.Data.List.Chain
import Mathlib.Data.List.Forall2
import Mathlib.Data.List.TakeWhile
import Mathlib.Tactic.Common
import Runbook.Proofs.Markdown.Inline

/-! Inline content is a cut of the text. Literal text and code spans with the runs of backticks
around them are put together to the text again; a run that can open a code span does so, from left to
right, and is closed by the next run of its length. -/
namespace Runbook.Markdown
open Text

/-- A part of a text: literal text, or what stands between two runs of n backticks. -/
inductive Segment where
  | text (s : Text)
  | span (n : Nat) (raw : Text)

namespace Segment

/-- The part as it stands in the text. -/
def source : Segment → Text
  | text s => s
  | span n raw => List.replicate n '`' ++ (raw ++ List.replicate n '`')

/-- Several parts, one after another. -/
def sources (gs : List Segment) : Text := gs.flatMap source

end Segment

/-- A run of n backticks between two texts that do not go on with it. -/
structure MaximalRun (before : Text) (n : Nat) (after : Text) : Prop where
  positive : 0 < n
  front : before.getLast? ≠ some '`'
  back : after.head? ≠ some '`'

/-- The text has a run of exactly n backticks. -/
def HasRun (n : Nat) (s : Text) : Prop :=
  ∃ before after, s = before ++ (List.replicate n '`' ++ after) ∧ MaximalRun before n after

/-- A text and what is left of it when one space is taken off at each end, which is done if it starts
and ends with a space and is not all white space. -/
inductive Unpadded : Text → Text → Prop
  | padded {inner : Text} (h : isBlankText (' ' :: (inner ++ [' '])) = false) :
      Unpadded (' ' :: (inner ++ [' '])) inner
  | plain {s : Text}
      (h : s.head? = some ' ' → s.getLast? = some ' ' → isBlankText s = true) : Unpadded s s

/-- The inline content that a part of a text is. -/
inductive Segment.Shows : Segment → Inline → Prop
  | text (s : Text) : Shows (.text s) (.text s)
  | code {n : Nat} {raw content : Text} (h : Unpadded (replaceChar '\n' ' ' raw) content) :
      Shows (.span n raw) (.code content)

def Inline.isText : Inline → Bool
  | .text _ => true
  | .code _ => false

namespace Inline
variable {n : Nat} {p : Piece} {ps qs : List Piece} {s : Text}

/-! ### Pieces and runs -/

def toText (ps : List Piece) : Text := ps.flatMap Piece.toText

@[simp] lemma toText_nil : toText [] = [] := rfl

@[simp] lemma toText_cons : toText (p :: ps) = p.toText ++ toText ps := List.flatMap_cons

@[simp] lemma toText_append : toText (ps ++ qs) = toText ps ++ toText qs := List.flatMap_append

@[simp] lemma toText_pieces (s : Text) : toText (pieces s) = s := flatMap_pieces s

/-- Pieces that a text can be cut into: no character is a backtick, and every run is whole. -/
inductive Proper : List Piece → Prop
  | nil : Proper []
  | other {c : Char} {ps : List Piece} (noTick : c ≠ '`') (rest : Proper ps) :
      Proper (.other c :: ps)
  | ticks {n : Nat} {ps : List Piece} (positive : 0 < n) (whole : ∀ m qs, ps ≠ .ticks m :: qs)
      (rest : Proper ps) : Proper (.ticks n :: ps)

lemma proper_pieces (s : Text) : Proper (pieces s) := by
  induction s with
  | nil => exact .nil
  | cons c s ih =>
    rw [pieces]
    split
    · split
      · next n ps hps =>
        rw [hps] at ih
        cases ih with
        | ticks positive whole rest => exact .ticks n.succ_pos whole rest
      · next hps => exact .ticks Nat.one_pos hps ih
    · next hc => exact .other hc ih

namespace Proper

lemma tail (h : Proper (p :: ps)) : Proper ps := by
  cases h <;> assumption

lemma of_append (h : Proper (ps ++ qs)) : Proper ps ∧ Proper qs := by
  induction ps with
  | nil => exact ⟨.nil, h⟩
  | cons p ps ih =>
    cases h with
    | other noTick rest => exact ⟨.other noTick (ih rest).1, (ih rest).2⟩
    | ticks positive whole rest =>
      refine ⟨.ticks positive (fun m rs hps => ?_) (ih rest).1, (ih rest).2⟩
      exact whole m (rs ++ qs) (by rw [hps]; rfl)

lemma clear (h : Proper ps) (whole : ∀ m qs, ps ≠ .ticks m :: qs) :
    Clear (· == '`') (toText ps) := by
  cases h with
  | nil => exact clear_nil _
  | other noTick rest =>
    rw [toText_cons]
    exact clear_cons.mpr (by simpa using noTick)
  | ticks => exact absurd rfl (whole _ _)

end Proper

lemma pieces_run (hn : 0 < n) (hs : Clear (· == '`') s) :
    pieces (List.replicate n '`' ++ s) = .ticks n :: pieces s := by
  obtain ⟨k, rfl⟩ := Nat.exists_eq_add_of_le' hn
  induction k with
  | zero => exact pieces_tick hs
  | succ k ih =>
    rw [List.replicate_succ, List.cons_append, pieces, if_pos rfl, ih (Nat.succ_pos k)]

/-- Proper pieces are those of their text. -/
lemma Proper.pieces_eq (h : Proper ps) : pieces (toText ps) = ps := by
  induction h with
  | nil => rfl
  | @other c ps noTick rest ih =>
    change pieces (c :: toText ps) = _
    rw [pieces, if_neg noTick, ih]
  | ticks positive whole rest ih =>
    rw [toText_cons]
    exact (pieces_run positive (rest.clear whole)).trans (congrArg _ ih)

/-- A run among proper pieces is a maximal one of their text. -/
lemma Proper.maximalRun (h : Proper (ps ++ .ticks n :: qs)) :
    MaximalRun (toText ps) n (toText qs) := by
  obtain ⟨-, hrun⟩ := h.of_append
  cases hrun with
  | ticks positive whole rest =>
    refine ⟨positive, ?_, ?_⟩
    · rcases List.eq_nil_or_concat ps with rfl | ⟨front, p, rfl⟩
      · simp
      · rw [List.concat_eq_append, List.append_assoc] at h
        have hlast : Proper (p :: .ticks n :: qs) := h.of_append.2
        cases hlast with
        | @other c _ noTick _ => simpa [Piece.toText] using noTick
        | ticks _ whole' _ => exact absurd rfl (whole' _ _)
    · intro hhead
      have hclear := rest.clear whole '`' hhead
      cases hclear

/-- A run can come after pieces that do not end with one. -/
lemma Proper.append_ticks (h : Proper ps) (hlast : (toText ps).getLast? ≠ some '`')
    (hrun : Proper (.ticks n :: qs)) : Proper (ps ++ .ticks n :: qs) := by
  -- What ends with a backtick still does so with more in front of it.
  have hrest {p : Piece} {ps : List Piece} (h : (toText (p :: ps)).getLast? ≠ some '`') :
      (toText ps).getLast? ≠ some '`' := by
    intro heq
    rw [toText_cons, List.getLast?_append, heq] at h
    exact h rfl
  induction h with
  | nil => exact hrun
  | other noTick rest ih => exact .other noTick (ih (hrest hlast))
  | @ticks m ps positive whole rest ih =>
    refine .ticks positive (fun k rs hrs => ?_) (ih (hrest hlast))
    cases ps with
    | nil => exact hlast (by simp [Piece.toText, List.getLast?_replicate, positive.ne'])
    | cons q ps => exact whole k ps (by rw [(List.cons.inj hrs).1])

lemma pieces_clear (h : Clear (· == '`') s) : ∀ m qs, pieces s ≠ .ticks m :: qs := by
  intro m qs hp
  cases s with
  | nil => cases hp
  | cons c s =>
    have hc : c ≠ '`' := by simpa using h
    rw [pieces, if_neg hc] at hp
    cases hp

/-- The pieces of a text around a maximal run of it. -/
theorem pieces_maximalRun {before after : Text} (h : MaximalRun before n after) :
    pieces (before ++ (List.replicate n '`' ++ after)) =
      pieces before ++ .ticks n :: pieces after := by
  have hafter : Clear (· == '`') after := by
    intro c hc
    have hne : c ≠ '`' := fun heq => h.back (heq ▸ hc)
    simpa using hne
  have hrun : Proper (.ticks n :: pieces after) :=
    .ticks h.positive (pieces_clear hafter) (proper_pieces after)
  have hlast : (toText (pieces before)).getLast? ≠ some '`' := by
    rw [toText_pieces]
    exact h.front
  have hall := ((proper_pieces before).append_ticks hlast hrun).pieces_eq
  rw [toText_append, toText_cons, toText_pieces, toText_pieces] at hall
  exact hall

theorem hasRun_iff : HasRun n s ↔ .ticks n ∈ pieces s := by
  constructor
  · rintro ⟨before, after, rfl, hrun⟩
    rw [pieces_maximalRun hrun]
    simp
  · intro hmem
    obtain ⟨front, back, hsplit⟩ := List.append_of_mem hmem
    have hproper := proper_pieces s
    rw [hsplit] at hproper
    refine ⟨toText front, toText back, ?_, hproper.maximalRun⟩
    rw [← toText_pieces s, hsplit, toText_append, toText_cons]
    rfl

/-! ### Code spans -/

lemma unpadded_spanContent (raw : Text) :
    Unpadded (replaceChar '\n' ' ' raw) (spanContent raw) := by
  unfold spanContent
  generalize replaceChar '\n' ' ' raw = s
  dsimp only
  split
  · next h =>
    obtain ⟨hlength, hhead, hlast, hblank⟩ := h
    obtain ⟨t, rfl⟩ := List.head?_eq_some_iff.mp hhead
    have ht : t ≠ [] := by
      rintro rfl
      simp at hlength
    obtain ⟨inner, last, rfl⟩ := (List.eq_nil_or_concat' t).resolve_left ht
    rw [← List.cons_append, List.getLast?_concat] at hlast
    obtain rfl := Option.some.inj hlast
    have hinner : ((' ' :: (inner ++ [' '])).drop 1).dropLast = inner := by simp
    rw [hinner]
    exact .padded (by simpa using hblank)
  · next h =>
    refine .plain fun hhead hlast => ?_
    by_contra hblank
    obtain ⟨t, rfl⟩ := List.head?_eq_some_iff.mp hhead
    cases t with
    | nil => exact hblank rfl
    | cons c t => exact h ⟨by simp, hhead, hlast, by simpa using hblank⟩

end Inline

/-! ### The parts of a text -/

namespace Segment
open Inline

/-- The pieces that a part consists of. -/
def pieces : Segment → List Piece
  | text s => Inline.pieces s
  | span n raw => .ticks n :: (Inline.pieces raw ++ [.ticks n])

lemma toText_pieces (g : Segment) : toText g.pieces = g.source := by
  cases g with
  | text s => exact Inline.toText_pieces s
  | span n raw =>
    rw [pieces, toText_cons, toText_append, Inline.toText_pieces, toText_cons, toText_nil,
      List.append_nil]
    rfl

lemma toText_flatMap_pieces (gs : List Segment) : toText (gs.flatMap pieces) = sources gs := by
  induction gs with
  | nil => rfl
  | cons g gs ih =>
    rw [List.flatMap_cons, toText_append, toText_pieces, ih]
    rfl

/-- No run of literal text comes again further on, and no run of its own length stands in a code
span. -/
inductive Leftmost : List Segment → Prop
  | nil : Leftmost []
  | text {s : Text} {gs : List Segment} (nonempty : s ≠ [])
      (apart : ∀ t rest, gs ≠ .text t :: rest)
      (alone : ∀ front n back, Inline.pieces s = front ++ .ticks n :: back →
        .ticks n ∉ back ++ gs.flatMap pieces) (rest : Leftmost gs) : Leftmost (.text s :: gs)
  | span {n : Nat} {raw : Text} {gs : List Segment} (closed : .ticks n ∉ Inline.pieces raw)
      (rest : Leftmost gs) : Leftmost (.span n raw :: gs)

lemma Leftmost.of_append {front gs : List Segment} (h : Leftmost (front ++ gs)) : Leftmost gs := by
  induction front with
  | nil => exact h
  | cons g front ih => cases h <;> exact ih ‹_›

/-- The inline content of pieces with one more in front of them, which is no run that comes again. -/
lemma exists_prepend {p : Piece} {ps : List Piece} {gs : List Segment} {content : List Inline}
    (hproper : Proper (p :: ps)) (alone : ∀ n, p = .ticks n → .ticks n ∉ ps) (hgs : Leftmost gs)
    (hps : gs.flatMap pieces = ps) (shows : List.Forall₂ Shows gs content) :
    ∃ gs', Leftmost gs' ∧ gs'.flatMap pieces = p :: ps ∧
      List.Forall₂ Shows gs' (prepend p.toText content) := by
  have hne : p.toText ≠ [] := by
    cases hproper with
    | other => exact List.cons_ne_nil _ _
    | ticks positive => simp [Piece.toText, positive.ne']
  -- The piece makes literal text of its own, unless literal text follows.
  have hone : Inline.pieces p.toText = [p] := by
    have halone : Proper [p] := (show Proper ([p] ++ ps) from hproper).of_append.1
    have heq := halone.pieces_eq
    rwa [toText_cons, toText_nil, List.append_nil] at heq
  have fresh (apart : ∀ t rest, gs ≠ .text t :: rest) : ∃ gs', Leftmost gs' ∧
      gs'.flatMap pieces = p :: ps ∧ List.Forall₂ Shows gs' (.text p.toText :: content) := by
    refine ⟨.text p.toText :: gs, .text hne apart (fun front n back hsplit => ?_) hgs, ?_,
      .cons (.text _) shows⟩
    · rw [hone] at hsplit
      rcases List.singleton_eq_append_iff.mp hsplit with ⟨-, hp⟩ | ⟨-, hnil⟩
      · obtain ⟨rfl, rfl⟩ := List.cons.inj hp
        rw [List.nil_append, hps]
        exact alone n rfl
      · cases hnil
    · rw [List.flatMap_cons, pieces, hone, hps]
      rfl
  cases hgs with
  | nil =>
    cases shows
    refine fresh fun t rest heq => ?_
    cases heq
  | span =>
    cases shows with
    | cons hshow _ =>
      cases hshow
      refine fresh fun t rest heq => ?_
      cases heq
  | @text t gs nonempty apart alone' rest =>
    cases shows with
    | cons hshow hrest =>
      cases hshow
      rw [List.flatMap_cons, pieces] at hps
      have hboth : Inline.pieces (p.toText ++ t) = p :: Inline.pieces t := by
        rw [← hps, ← List.cons_append] at hproper
        have heq := hproper.of_append.1.pieces_eq
        rwa [toText_cons, Inline.toText_pieces] at heq
      refine ⟨.text (p.toText ++ t) :: gs, .text ?_ apart (fun front n back hsplit => ?_) rest, ?_,
        .cons (.text _) hrest⟩
      · exact List.append_ne_nil_of_left_ne_nil hne t
      · rw [hboth] at hsplit
        cases front with
        | nil =>
          obtain ⟨hp, rfl⟩ := List.cons.inj hsplit
          rw [hps]
          exact alone n hp
        | cons q front => exact alone' front n back (List.cons.inj hsplit).2
      · rw [List.flatMap_cons, pieces, hboth, List.cons_append, hps]

/-- Proper pieces fall into parts that show their inline content. -/
theorem exists_parts {ps : List Piece} (h : Proper ps) :
    ∃ gs, Leftmost gs ∧ gs.flatMap pieces = ps ∧ List.Forall₂ Shows gs (ofPieces ps) := by
  fun_induction ofPieces ps with
  | case1 => exact ⟨[], .nil, rfl, .nil⟩
  | case2 c ps ih =>
    obtain ⟨gs, hgs, hps, shows⟩ := ih h.tail
    exact exists_prepend h nofun hgs hps shows
  | case3 n ps hnone ih =>
    obtain ⟨gs, hgs, hps, shows⟩ := ih h.tail
    refine exists_prepend h (fun m hm hmem => ?_) hgs hps shows
    obtain rfl := Piece.ticks.inj hm
    have hne := List.dropWhile_eq_nil_iff.mp hnone _ hmem
    simp at hne
  | case4 n ps inside d rest hdrop hlt ih =>
    have hd : d = .ticks n := by
      have hhead := List.head?_dropWhile_not (fun q => decide (q ≠ .ticks n)) ps
      rw [hdrop] at hhead
      simpa using hhead
    have hsplit : ps = inside ++ .ticks n :: rest := by
      rw [← hd, ← hdrop]
      exact (List.takeWhile_append_dropWhile ..).symm
    have hclosed : .ticks n ∉ inside := by
      intro hmem
      have hne := List.mem_takeWhile_imp hmem
      simp at hne
    rw [hsplit] at h
    obtain ⟨hinside, hrest⟩ := h.tail.of_append
    obtain ⟨gs, hgs, hps, shows⟩ := ih hrest.tail
    refine ⟨.span n (toText inside) :: gs, .span ?_ hgs, ?_, .cons ?_ shows⟩
    · rwa [hinside.pieces_eq]
    · rw [List.flatMap_cons, pieces, hinside.pieces_eq, hps, hsplit]
      simp
    · exact .code (unpadded_spanContent _)

/-- Literal text is not empty, and no other literal text follows it. -/
lemma Leftmost.content {gs : List Segment} (h : Leftmost gs) {content : List Inline}
    (shows : List.Forall₂ Shows gs content) :
    (∀ t, .text t ∈ content → t ≠ []) ∧
      content.IsChain fun a b => a.isText = true → b.isText = false := by
  induction h generalizing content with
  | nil =>
    cases shows
    exact ⟨by simp, .nil⟩
  | @span n raw gs closed rest ih =>
    cases shows with
    | cons hshow hrest =>
      cases hshow
      obtain ⟨hnonempty, hchain⟩ := ih hrest
      exact ⟨by simpa using hnonempty, hchain.cons fun b _ hcode => nomatch hcode⟩
  | @text t gs nonempty apart alone rest ih =>
    cases shows with
    | cons hshow hrest =>
      cases hshow
      obtain ⟨hnonempty, hchain⟩ := ih hrest
      refine ⟨?_, hchain.cons fun b hb _ => ?_⟩
      · simpa [nonempty] using hnonempty
      · cases hrest with
        | nil => cases hb
        | cons hnext _ =>
          obtain rfl := Option.some.inj hb
          cases hnext with
          | text u => exact absurd rfl (apart u _)
          | code => rfl

/-! ### Parts and runs -/

/-- The runs around a code span are maximal in the text. -/
lemma maximalRun_span {front back : List Segment} {n : Nat} {raw : Text}
    (h : Proper ((front ++ .span n raw :: back).flatMap pieces)) :
    MaximalRun (sources front) n (raw ++ (List.replicate n '`' ++ sources back)) ∧
      MaximalRun (sources front ++ (List.replicate n '`' ++ raw)) n (sources back) := by
  have hopen : (front ++ .span n raw :: back).flatMap pieces =
      front.flatMap pieces ++ .ticks n :: (Inline.pieces raw ++ .ticks n :: back.flatMap pieces) := by
    simp [pieces]
  have hclose : (front ++ .span n raw :: back).flatMap pieces =
      (front.flatMap pieces ++ .ticks n :: Inline.pieces raw) ++
        .ticks n :: back.flatMap pieces := by
    simp [pieces]
  have hfirst := (hopen ▸ h).maximalRun
  have hsecond := (hclose ▸ h).maximalRun
  simp only [toText_append, toText_cons, toText_flatMap_pieces, Inline.toText_pieces,
    Piece.toText] at hfirst hsecond
  exact ⟨hfirst, hsecond⟩

/-- A run that is literal text does not come again in what follows it. -/
lemma Leftmost.not_hasRun {front back : List Segment} {before after : Text} {n : Nat}
    (h : Leftmost (front ++ .text (before ++ (List.replicate n '`' ++ after)) :: back))
    (hproper : Proper ((front ++ .text (before ++ (List.replicate n '`' ++ after)) :: back).flatMap
      pieces))
    (hrun : MaximalRun before n after) : ¬ HasRun n (after ++ sources back) := by
  have hpieces := pieces_maximalRun hrun
  have hnot : .ticks n ∉ Inline.pieces after ++ back.flatMap pieces := by
    cases h.of_append with
    | text nonempty apart alone rest => exact alone _ n _ hpieces
  rw [List.flatMap_append, List.flatMap_cons, pieces, hpieces] at hproper
  have hrest : Proper (Inline.pieces after ++ back.flatMap pieces) := by
    have hsplit := hproper.of_append.2
    rw [List.append_assoc] at hsplit
    exact hsplit.of_append.2.tail
  have hlater := hrest.pieces_eq
  rw [toText_append, Inline.toText_pieces, toText_flatMap_pieces] at hlater
  rwa [hasRun_iff, hlater]

end Segment

lemma MaximalRun.inner {front before after back : Text} {n : Nat}
    (h : MaximalRun (front ++ before) n (after ++ back)) : MaximalRun before n after where
  positive := h.positive
  front heq := h.front (by rw [List.getLast?_append, heq]; rfl)
  back heq := h.back (by rw [List.head?_append, heq]; rfl)

open Inline Segment in
/-- Every text is cut into literal text and code spans, which show its inline content and lose
nothing. A code span stands between two maximal runs of one length, and no run of that length stands
in it; a maximal run that stays literal does not come again further on. Literal text is never empty,
and there are never two of them side by side. -/
theorem inline_parts (s : Text) :
    ∃ gs : List Segment, List.Forall₂ Shows gs (inline s) ∧ s = sources gs ∧
      (∀ front n raw back, gs = front ++ .span n raw :: back →
        raw ≠ [] ∧ ¬ HasRun n raw ∧
        MaximalRun (sources front) n (raw ++ (List.replicate n '`' ++ sources back)) ∧
        MaximalRun (sources front ++ (List.replicate n '`' ++ raw)) n (sources back)) ∧
      (∀ front before n after back,
        gs = front ++ .text (before ++ (List.replicate n '`' ++ after)) :: back →
        MaximalRun (sources front ++ before) n (after ++ sources back) →
        ¬ HasRun n (after ++ sources back)) ∧
      (∀ t, .text t ∈ inline s → t ≠ []) ∧
      (inline s).IsChain fun a b => a.isText = true → b.isText = false := by
  obtain ⟨gs, hgs, hps, shows⟩ := exists_parts (proper_pieces s)
  have hproper : Proper (gs.flatMap Segment.pieces) := hps ▸ proper_pieces s
  refine ⟨gs, shows, ?_, ?_, ?_, hgs.content shows⟩
  · rw [← toText_flatMap_pieces, hps, Inline.toText_pieces]
  · rintro front n raw back rfl
    have hraw : .ticks n ∉ Inline.pieces raw := by
      cases hgs.of_append with
      | span closed rest => exact closed
    obtain ⟨hopen, hclose⟩ := maximalRun_span hproper
    refine ⟨?_, mt hasRun_iff.mp hraw, hopen, hclose⟩
    rintro rfl
    exact hopen.back (by simp [List.head?_append, List.head?_replicate, hopen.positive.ne'])
  · rintro front before n after back rfl hrun
    exact hgs.not_hasRun hproper hrun.inner

/-- Runs of one and two backticks and a single one that finds no partner. -/
example : inline "a ``b` c `` `d" = [.text "a ", .code "b` c ", .text " `d"] := by decide +kernel

end Runbook.Markdown
