import Mathlib.Tactic.Common
import Runbook.Markdown.Node
import Runbook.Proofs.Markdown.Append
import Runbook.Proofs.Text.Parts

/-! What blocks hold is made of parts of the lines of the document. -/
namespace Runbook.Markdown
open Text

variable {D : Text → Prop}

/-! ### Blocks -/

/-- A title and an info string have a property, and so have the lines of code. -/
def Content.Has (D : Text → Prop) : Content → Prop
  | .heading _ title => ∃ t, title = inline t ∧ D t
  | .code info body => D info ∧ ∃ ls, body = unlines ls ∧ ∀ l ∈ ls, D l
  | .paragraph _ => True
  | .verbatim _ => True

lemma infix_withoutClosing (t : Text) : withoutClosing t <:+: t := by
  have hdrop (p : Char → Bool) (s : Text) : dropEndWhile p s <:+: s :=
    (prefix_dropEndWhile p s).isInfix
  unfold withoutClosing
  dsimp only
  split
  · exact List.infix_refl t
  · split
    · exact List.nil_infix
    · split
      · exact (hdrop _ _).trans (hdrop _ t)
      · exact List.infix_refl t

lemma margin?_suffix {l rest : Text} {indent : Nat} (h : margin? l = some (indent, rest)) :
    rest <:+ l := by
  obtain ⟨-, rfl⟩ := eq_of_margin? h
  exact List.suffix_append _ rest

lemma infix_of_numbered? {l title : Text} {level : Nat} (h : numbered? l = some (level, title)) :
    title <:+: l := by
  unfold numbered? at h
  split at h
  · next indent rest hmargin =>
    dsimp only at h
    split at h
    · split at h
      · obtain ⟨-, rfl⟩ := Prod.mk.inj (Option.some.inj h)
        exact List.nil_infix
      · next c after hafter =>
        split at h
        · obtain ⟨-, rfl⟩ := Prod.mk.inj (Option.some.inj h)
          have hrest : c :: after <:+ l :=
            hafter ▸ (rest.dropWhile_suffix (· == '#')).trans (margin?_suffix hmargin)
          rw [hafter]
          exact (infix_withoutClosing _).trans ((infix_trim _).trans hrest.isInfix)
        · cases h
    · cases h
  · cases h

lemma infix_of_opening? {l : Text} {f : Fence} (h : Fence.opening? l = some f) : f.info <:+: l := by
  unfold Fence.opening? at h
  split at h
  · next indent mark rest hmargin =>
    dsimp only at h
    split at h
    · obtain rfl := Option.some.inj h
      have hrest : rest <:+ l := (List.suffix_cons mark rest).trans (margin?_suffix hmargin)
      exact (infix_trim _).trans ((rest.dropWhile_suffix _).trans hrest).isInfix
    · cases h
  · cases h

lemma unindent_suffix (l : Text) : unindent l <:+ l := by
  unfold unindent
  split <;> exact List.drop_suffix _ l

lemma paragraphText_has (hD : Hereditary D) {ls : List Text} (h : ∀ l ∈ ls, D l) :
    D (paragraphText ls) := by
  refine hD.unwords fun w hw => ?_
  obtain ⟨l, hl, rfl⟩ := List.mem_map.mp hw
  exact hD.part (infix_trim l) (h l hl)

namespace Pending

/-- The same for the lines that an open block holds. -/
def Has (D : Text → Prop) : Pending → Prop
  | idle => True
  | paragraph _ ls => ∀ l ∈ ls, D l
  | fenced _ f body => D f.info ∧ ∀ l ∈ body, D l
  | indented _ body blanks => (∀ l ∈ body, D l) ∧ ∀ l ∈ blanks, D l
  | verbatim _ _ => True

variable {p q : Pending} {bs : List Block} {l : Text} {n : Nat}

lemma Has.close (h : p.Has D) (hD : Hereditary D) (n : Nat) : ∀ b ∈ p.close n, b.content.Has D := by
  cases p with
  | idle => simp [Pending.close]
  | paragraph first ls => simp [Pending.close, Content.Has]
  | fenced first f body =>
    rintro b hb
    obtain rfl := List.mem_singleton.mp hb
    exact ⟨h.1, body, rfl, h.2⟩
  | indented first body blanks =>
    rintro b hb
    obtain rfl := List.mem_singleton.mp hb
    exact ⟨hD.empty, body, rfl, h.1⟩
  | verbatim first ls => simp [Pending.close, Content.Has]

lemma Begins.has (h : Begins n l bs q) (hD : Hereditary D) (hl : D l) :
    (∀ b ∈ bs, b.content.Has D) ∧ q.Has D := by
  cases h with
  | blank => exact ⟨by simp, trivial⟩
  | fence opens => exact ⟨by simp, hD.part (infix_of_opening? opens) hl, by simp⟩
  | numbered shape =>
    refine ⟨fun b hb => ?_, trivial⟩
    obtain rfl := List.mem_singleton.mp hb
    exact ⟨_, rfl, hD.part (infix_of_numbered? shape) hl⟩
  | rule => exact ⟨by simp [Content.Has], trivial⟩
  | code =>
    refine ⟨by simp, ?_, by simp⟩
    simpa using hD.part (unindent_suffix l).isInfix hl
  | container => exact ⟨by simp, trivial⟩
  | text => exact ⟨by simp, by simpa [Pending.Has] using hl⟩

/-- The step: what one line completes, and what is open then, is made of lines that have the
property. -/
lemma Advances.has (h : Advances n l p bs q) (hD : Hereditary D) (hl : D l) (hp : p.Has D) :
    (∀ b ∈ bs, b.content.Has D) ∧ q.Has D := by
  cases h with
  | restart begins =>
    obtain ⟨hbs, hq⟩ := begins.has hD hl
    exact ⟨List.forall_mem_append.mpr ⟨hp.close hD n, hbs⟩, hq⟩
  | underline =>
    refine ⟨fun b hb => ?_, trivial⟩
    obtain rfl := List.mem_singleton.mp hb
    exact ⟨_, rfl, paragraphText_has hD hp⟩
  | text => exact ⟨by simp, List.forall_mem_append.mpr ⟨hp, by simpa using hl⟩⟩
  | closed =>
    refine ⟨fun b hb => ?_, trivial⟩
    obtain rfl := List.mem_singleton.mp hb
    exact ⟨hp.1, _, rfl, hp.2⟩
  | @fenced first f body =>
    refine ⟨by simp, hp.1, List.forall_mem_append.mpr ⟨hp.2, ?_⟩⟩
    simpa [Fence.unindent] using hD.part (List.drop_suffix _ l).isInfix hl
  | @code first body blanks =>
    have hline : ∀ m ∈ [unindent l], D m := by
      simpa using hD.part (unindent_suffix l).isInfix hl
    exact ⟨by simp, List.forall_mem_append.mpr ⟨List.forall_mem_append.mpr hp, hline⟩, by simp⟩
  | blank =>
    exact ⟨by simp, hp.1, List.forall_mem_append.mpr ⟨hp.2, by simpa using hD.empty⟩⟩
  | verbatim => exact ⟨by simp, trivial⟩

end Pending

lemma readLines_has (hD : Hereditary D) {ls : List Text} (hls : ∀ l ∈ ls, D l) {p : Pending}
    (hp : p.Has D) (n : Nat) : ∀ b ∈ readLines n p ls, b.content.Has D := by
  induction ls generalizing n p with
  | nil => exact hp.close hD n
  | cons l ls ih =>
    obtain ⟨hl, hls⟩ := List.forall_mem_cons.mp hls
    obtain ⟨hbs, hq⟩ := (p.advances n l).has hD hl hp
    exact List.forall_mem_append.mpr ⟨hbs, ih hls hq (n + 1)⟩

/-- Whatever the document and the parts of it have, the blocks have. -/
theorem blocks_has (hD : Hereditary D) {s : Text} (hs : D s) : ∀ b ∈ blocks s, b.content.Has D :=
  readLines_has hD (fun _ hl => hD.part (infix_of_mem_lines hl) hs) (p := .idle) trivial 0

/-! ### Inline content -/

namespace Inline

/-- The text of inline content has a property. -/
def Has (D : Text → Prop) : Inline → Prop
  | text s => D s
  | code s => D s

lemma spanContent_has (hD : Hereditary D) {s : Text} (hs : D s) : D (spanContent s) := by
  have hunbroken := hD.unbroken hs
  unfold spanContent
  dsimp only
  split
  · exact hD.part ((List.dropLast_prefix _).isInfix.trans (List.drop_suffix 1 _).isInfix) hunbroken
  · exact hunbroken

/-- Inline content that is made of a text: what it begins with begins the text, and all of it has
the property. -/
def Made (D : Text → Prop) (s : Text) (is : List Inline) : Prop :=
  (∀ t rest, is = text t :: rest → t <+: s) ∧ ∀ i ∈ is, i.Has D

lemma Made.prepend {front s : Text} {is : List Inline} (h : Made D s is) (hD : Hereditary D)
    (hs : D (front ++ s)) : Made D (front ++ s) (prepend front is) := by
  have hfront : D front := hD.part (List.prefix_append front s).isInfix hs
  unfold Inline.prepend
  split
  · next t rest =>
    have ht : front ++ t <+: front ++ s :=
      (List.prefix_append_right_inj front).mpr (h.1 t rest rfl)
    refine ⟨fun u us hu => ?_, List.forall_mem_cons.mpr ⟨hD.part ht.isInfix hs, ?_⟩⟩
    · obtain ⟨hu, -⟩ := List.cons.inj hu
      exact Inline.text.inj hu ▸ ht
    · exact (List.forall_mem_cons.mp h.2).2
  · refine ⟨fun u us hu => ?_, List.forall_mem_cons.mpr ⟨hfront, h.2⟩⟩
    obtain ⟨hu, -⟩ := List.cons.inj hu
    exact Inline.text.inj hu ▸ List.prefix_append front s

lemma made_ofPieces (hD : Hereditary D) {ps : List Piece} (h : D (ps.flatMap Piece.toText)) :
    Made D (ps.flatMap Piece.toText) (ofPieces ps) := by
  fun_induction ofPieces ps with
  | case1 => exact ⟨by simp, by simp⟩
  | case2 c ps ih =>
    exact (ih (hD.part (List.suffix_append _ _).isInfix h)).prepend hD h
  | case3 n ps hnil ih =>
    exact (ih (hD.part (List.suffix_append _ _).isInfix h)).prepend hD h
  | case4 n ps inside d rest hd hlt ih =>
    have hinside : inside.flatMap Piece.toText <:+: ps.flatMap Piece.toText :=
      (List.takeWhile_prefix _).flatMap _ |>.isInfix
    have hrest : rest.flatMap Piece.toText <:+: ps.flatMap Piece.toText :=
      ((List.suffix_cons d rest).trans (hd ▸ ps.dropWhile_suffix _)).flatMap _ |>.isInfix
    have hps : D (ps.flatMap Piece.toText) := hD.part (List.suffix_append _ _).isInfix h
    have hcode : (code (spanContent (inside.flatMap Piece.toText))).Has D :=
      spanContent_has hD (hD.part hinside hps)
    refine ⟨fun t us hu => ?_, List.forall_mem_cons.mpr ⟨hcode, (ih (hD.part hrest hps)).2⟩⟩
    cases hu

end Inline

/-- What a text has, its inline content has. -/
theorem inline_has (hD : Hereditary D) {s : Text} (hs : D s) : ∀ i ∈ inline s, i.Has D := by
  rw [← Inline.flatMap_pieces s] at hs
  exact (Inline.made_ofPieces hD hs).2

lemma plainText_has (hD : Hereditary D) {is : List Inline} (h : ∀ i ∈ is, i.Has D) :
    D (Node.plainText (is.map .ofInline)) := by
  refine hD.unwords ?_
  induction is with
  | nil => simp [Node.texts.textsOf]
  | cons i is ih =>
    obtain ⟨hi, his⟩ := List.forall_mem_cons.mp h
    have htrimmed {t w : Text} (ht : D t)
        (hw : w ∈ (if isBlankText t then [] else [trim t]) ++ []) : D w := by
      rw [List.append_nil] at hw
      split at hw
      · cases hw
      · exact List.mem_singleton.mp hw ▸ hD.part (infix_trim t) ht
    refine List.forall_mem_append.mpr ⟨fun w hw => ?_, ih his⟩
    cases i with
    | text t => exact htrimmed hi hw
    | code t => exact htrimmed hi hw

end Runbook.Markdown
