import Mathlib.Tactic.Common
import Runbook.Markdown.Block

/-! Where blocks stand in a document: one after another, none beyond the last line, and headings
with the lines of their titles. -/
namespace Runbook.Markdown
open Text

/-! ### All that one line can do -/

namespace Pending

/-- A line where no block is open: the blocks that it completes, and what is open then. -/
inductive Begins (n : Nat) (l : Text) : List Block → Pending → Prop
  | blank (blank : isBlankText l = true) : Begins n l [] idle
  | fence {f : Fence} (opens : Fence.opening? l = some f) : Begins n l [] (fenced n f [])
  | numbered {level : Nat} {title : Text} (shape : numbered? l = some (level, title)) :
      Begins n l [⟨n, n, .heading level (inline title)⟩] idle
  | rule (rule : isRule l = true) : Begins n l [⟨n, n, .verbatim l⟩] idle
  | code (deep : isIndented l = true) : Begins n l [] (indented n [unindent l] [])
  | container (opens : opensContainer l = true) : Begins n l [] (verbatim n [l])
  | text : Begins n l [] (paragraph n [l])

lemma begins (n : Nat) (l : Text) : Begins n l (begin n l).1 (begin n l).2 := by
  unfold begin
  split
  · next h => exact .blank h
  · split
    · next h => exact .fence h
    · split
      · next h => exact .numbered h
      · split
        · next h => exact .rule h
        · split
          · next h => exact .code h
          · split
            · next h => exact .container h
            · exact .text

/-- A line after n others, while a block is open. -/
inductive Advances (n : Nat) (l : Text) : Pending → List Block → Pending → Prop
  | restart {p q : Pending} {bs : List Block} (begins : Begins (n + 1) l bs q) :
      Advances n l p (p.close n ++ bs) q
  | underline {first level : Nat} {ls : List Text} (shape : underline? l = some level) :
      Advances n l (paragraph first ls)
        [⟨first, n + 1, .heading level (inline (paragraphText ls))⟩] idle
  | text {first : Nat} {ls : List Text} :
      Advances n l (paragraph first ls) [] (paragraph first (ls ++ [l]))
  | closed {first : Nat} {f : Fence} {body : List Text} (closes : f.closes l = true) :
      Advances n l (fenced first f body) [⟨first, n + 1, .code f.info (unlines body)⟩] idle
  | fenced {first : Nat} {f : Fence} {body : List Text} (inside : f.closes l = false) :
      Advances n l (fenced first f body) [] (fenced first f (body ++ [f.unindent l]))
  | code {first : Nat} {body blanks : List Text} (deep : isIndented l = true) :
      Advances n l (indented first body blanks) []
        (indented first (body ++ blanks ++ [unindent l]) [])
  | blank {first : Nat} {body blanks : List Text} (blank : isBlankText l = true) :
      Advances n l (indented first body blanks) [] (indented first body (blanks ++ [[]]))
  | verbatim {first : Nat} {ls : List Text} :
      Advances n l (verbatim first ls) [] (verbatim first (ls ++ [l]))

lemma advances (p : Pending) (n : Nat) (l : Text) :
    Advances n l p (p.step (n + 1) l).1 (p.step (n + 1) l).2 := by
  have restarts (p : Pending) :
      Advances n l p (step.restart (n + 1) l p).1 (step.restart (n + 1) l p).2 :=
    .restart (begins (n + 1) l)
  cases p with
  | idle => exact restarts idle
  | paragraph first ls =>
    rw [step]
    split
    · exact restarts _
    · split
      · next h => exact .underline h
      · split
        · exact restarts _
        · exact .text
  | fenced first f body =>
    rw [step]
    split
    · next h => exact .closed h
    · next h => exact .fenced (by simpa using h)
  | indented first body blanks =>
    rw [step]
    split
    · next h => exact .code h
    · split
      · next h => exact .blank h
      · exact restarts _
  | verbatim first ls =>
    rw [step]
    split
    · exact restarts _
    · exact .verbatim

/-! ### Where blocks stand -/

/-- The line with which the next block begins, where the open one counts. -/
def start (n : Nat) : Pending → Nat
  | idle => n + 1
  | paragraph first _ => first
  | fenced first _ _ => first
  | indented first _ _ => first
  | verbatim first _ => first

/-- What is open has begun in the lines read, and a paragraph consists of the last of them. -/
def Fits (past : List Text) : Pending → Prop
  | idle => True
  | paragraph first ls => ls ≠ [] ∧ ∃ before, past = before ++ ls ∧ first = before.length + 1
  | fenced first _ _ => 1 ≤ first ∧ first ≤ past.length
  | indented first _ blanks => 1 ≤ first ∧ first + blanks.length ≤ past.length
  | verbatim first _ => 1 ≤ first ∧ first ≤ past.length

end Pending

/-- Blocks that stand one after another, from some line on and before another. -/
def Within (lo hi : Nat) : List Block → Prop
  | [] => lo ≤ hi
  | b :: bs => lo ≤ b.first ∧ b.first ≤ b.last ∧ Within (b.last + 1) hi bs

namespace Within
variable {lo mid hi : Nat} {bs cs : List Block} {b : Block}

lemma le (h : Within lo hi bs) : lo ≤ hi := by
  induction bs generalizing lo with
  | nil => exact h
  | cons b bs ih =>
    obtain ⟨hlo, hb, hrest⟩ := h
    have := ih hrest
    omega

lemma mono (h : Within mid hi bs) (hlo : lo ≤ mid) : Within lo hi bs := by
  cases bs with
  | nil => exact Nat.le_trans hlo h
  | cons b bs => exact ⟨Nat.le_trans hlo h.1, h.2⟩

lemma append (h : Within lo mid bs) (h' : Within mid hi cs) : Within lo hi (bs ++ cs) := by
  induction bs generalizing lo with
  | nil => exact h'.mono h
  | cons b bs ih => exact ⟨h.1, h.2.1, ih h.2.2⟩

lemma bounds (h : Within lo hi bs) (hb : b ∈ bs) :
    lo ≤ b.first ∧ b.first ≤ b.last ∧ b.last < hi := by
  induction bs generalizing lo with
  | nil => cases hb
  | cons c cs ih =>
    obtain ⟨hlo, hc, hrest⟩ := h
    rcases List.mem_cons.mp hb with rfl | hb
    · exact ⟨hlo, hc, hrest.le⟩
    · obtain ⟨hfirst, hlast, hhi⟩ := ih hrest hb
      exact ⟨by omega, hlast, hhi⟩

/-- What is after a block stands after its last line. -/
lemma after (h : Within lo hi (bs ++ b :: cs)) :
    lo ≤ b.first ∧ b.first ≤ b.last ∧ Within (b.last + 1) hi cs := by
  induction bs generalizing lo with
  | nil => exact h
  | cons c bs ih =>
    obtain ⟨hlo, hc, hrest⟩ := h
    obtain ⟨hfirst, hlast, hcs⟩ := ih hrest
    exact ⟨by omega, hlast, hcs⟩

end Within

namespace Pending
variable {past : List Text} {p q : Pending} {bs : List Block} {l : Text}

lemma Fits.close (h : p.Fits past) :
    Within (p.start past.length) (past.length + 1) (p.close past.length) := by
  cases p with
  | idle => exact Nat.le_refl _
  | paragraph first ls =>
    obtain ⟨hne, before, rfl, rfl⟩ := h
    have := List.length_pos_iff.mpr hne
    exact ⟨Nat.le_refl _, by simp; omega, Nat.le_refl _⟩
  | fenced first f body => exact ⟨Nat.le_refl _, h.2, Nat.le_refl _⟩
  | indented first body blanks =>
    -- The blanks are not part of the block, and its first line is not among them.
    have hlast : first ≤ past.length - blanks.length := by have := h.2; omega
    exact ⟨Nat.le_refl _, hlast, Nat.succ_le_succ (Nat.sub_le _ _)⟩
  | verbatim first ls => exact ⟨Nat.le_refl _, h.2, Nat.le_refl _⟩

lemma Begins.within (h : Begins (past.length + 1) l bs q) :
    Within (past.length + 1) (q.start (past.length + 1)) bs ∧ q.Fits (past ++ [l]) := by
  cases h with
  | blank => exact ⟨Nat.le_succ _, trivial⟩
  | fence => exact ⟨Nat.le_refl _, by simp [Fits]⟩
  | numbered => exact ⟨⟨Nat.le_refl _, Nat.le_refl _, Nat.le_refl _⟩, trivial⟩
  | rule => exact ⟨⟨Nat.le_refl _, Nat.le_refl _, Nat.le_refl _⟩, trivial⟩
  | code => exact ⟨Nat.le_refl _, by simp [Fits]⟩
  | container => exact ⟨Nat.le_refl _, by simp [Fits]⟩
  | text => exact ⟨Nat.le_refl _, by simp [Fits]⟩

/-- The step: the blocks that one line completes stand before what is open then. -/
lemma Advances.within (h : Advances past.length l p bs q) (hp : p.Fits past) :
    Within (p.start past.length) (q.start (past.length + 1)) bs ∧ q.Fits (past ++ [l]) := by
  cases h with
  | restart begins =>
    -- The open block ends with the line before this one.
    obtain ⟨hwithin, hfits⟩ := begins.within
    exact ⟨hp.close.append hwithin, hfits⟩
  | underline =>
    obtain ⟨hne, before, rfl, rfl⟩ := hp
    exact ⟨⟨Nat.le_refl _, by simp, Nat.le_refl _⟩, trivial⟩
  | @text first ls =>
    obtain ⟨hne, before, rfl, rfl⟩ := hp
    exact ⟨Nat.le_refl _, by simp, before, by simp, rfl⟩
  | closed => exact ⟨⟨Nat.le_refl _, Nat.le_succ_of_le hp.2, Nat.le_refl _⟩, trivial⟩
  | fenced => exact ⟨Nat.le_refl _, hp.1, by simpa using Nat.le_succ_of_le hp.2⟩
  | @code first body blanks =>
    have hle : first ≤ past.length := Nat.le_trans (Nat.le_add_right _ _) hp.2
    exact ⟨Nat.le_refl _, hp.1, by simpa using Nat.le_succ_of_le hle⟩
  | blank =>
    refine ⟨Nat.le_refl _, hp.1, ?_⟩
    have := hp.2
    simp only [List.length_append, List.length_singleton]
    omega
  | verbatim => exact ⟨Nat.le_refl _, hp.1, by simpa using Nat.le_succ_of_le hp.2⟩

end Pending

/-- The blocks of further lines stand one after another, from the open block on. -/
theorem readLines_within {past : List Text} {p : Pending} (h : p.Fits past) (ls : List Text) :
    Within (p.start past.length) (past.length + ls.length + 1) (readLines past.length p ls) := by
  induction ls generalizing past p with
  | nil => exact h.close
  | cons l ls ih =>
    obtain ⟨hwithin, hfits⟩ := (p.advances past.length l).within h
    have hrest := ih hfits
    rw [List.length_append, List.length_singleton] at hrest
    rw [readLines, List.length_cons, Nat.add_comm ls.length, ← Nat.add_assoc]
    exact hwithin.append hrest

/-- All blocks of a document stand within its lines. -/
theorem blocks_within (s : Text) : Within 1 ((lines s).length + 1) (blocks s) := by
  have h := @readLines_within [] .idle trivial (lines s)
  rw [List.length_nil, Nat.zero_add] at h
  exact h

/-! ### Headings -/

def Block.isHeading (b : Block) : Bool :=
  match b.content with
  | .heading .. => true
  | _ => false

def Block.isCode (b : Block) : Bool :=
  match b.content with
  | .code .. => true
  | _ => false

/-- The lines of a heading: one line with number signs, or the lines of a title with an underline
below them. -/
inductive HeadingLines (ls : List Text) : Block → Prop
  | numbered {before after : List Text} {l title : Text} {level : Nat}
      (place : ls = before ++ l :: after) (shape : numbered? l = some (level, title)) :
      HeadingLines ls ⟨before.length + 1, before.length + 1, .heading level (inline title)⟩
  | underlined {before titles after : List Text} {l : Text} {level : Nat} (titled : titles ≠ [])
      (place : ls = before ++ (titles ++ l :: after)) (shape : underline? l = some level) :
      HeadingLines ls ⟨before.length + 1, before.length + titles.length + 1,
        .heading level (inline (paragraphText titles))⟩

namespace Pending
variable {past : List Text} {p q : Pending} {bs : List Block} {l : Text} {b : Block}

lemma no_heading_in_close (p : Pending) (n : Nat) : ∀ b ∈ p.close n, b.isHeading = false := by
  cases p <;> simp [close, Block.isHeading]

lemma Begins.headingLines (h : Begins (past.length + 1) l bs q) (hb : b ∈ bs)
    (heading : b.isHeading = true) (rest : List Text) : HeadingLines (past ++ l :: rest) b := by
  cases h with
  | numbered shape =>
    obtain rfl := List.mem_singleton.mp hb
    exact .numbered rfl shape
  | rule =>
    obtain rfl := List.mem_singleton.mp hb
    cases heading
  | _ => cases hb

lemma Advances.headingLines (h : Advances past.length l p bs q) (hp : p.Fits past) (hb : b ∈ bs)
    (heading : b.isHeading = true) (rest : List Text) : HeadingLines (past ++ l :: rest) b := by
  cases h with
  | restart begins =>
    rcases List.mem_append.mp hb with hb | hb
    · rw [no_heading_in_close p _ b hb] at heading
      cases heading
    · exact begins.headingLines hb heading rest
  | @underline first level ls shape =>
    obtain ⟨hne, before, rfl, rfl⟩ := hp
    obtain rfl := List.mem_singleton.mp hb
    rw [List.length_append, List.append_assoc]
    exact .underlined hne rfl shape
  | closed =>
    obtain rfl := List.mem_singleton.mp hb
    cases heading
  | _ => cases hb

end Pending

lemma readLines_headingLines {past : List Text} {p : Pending} (h : p.Fits past) (ls : List Text)
    {b : Block} (hb : b ∈ readLines past.length p ls) (heading : b.isHeading = true) :
    HeadingLines (past ++ ls) b := by
  induction ls generalizing past p with
  | nil =>
    rw [Pending.no_heading_in_close p _ b hb] at heading
    cases heading
  | cons l ls ih =>
    have hstep := p.advances past.length l
    rw [readLines] at hb
    rcases List.mem_append.mp hb with hb | hb
    · exact hstep.headingLines h hb heading ls
    · have hfits := (hstep.within h).2
      have hlength : past.length + 1 = (past ++ [l]).length := by simp
      rw [hlength] at hb hfits
      rw [List.append_cons]
      exact ih hfits hb

/-- Every heading of a document has the lines of a heading. -/
theorem blocks_headingLines {s : Text} {b : Block} (hb : b ∈ blocks s)
    (heading : b.isHeading = true) : HeadingLines (lines s) b :=
  @readLines_headingLines [] .idle trivial (lines s) b hb heading

end Runbook.Markdown
