import Mathlib.Data.List.Infix
import Mathlib.Tactic.Common
import Runbook.Proofs.Catalog.Attributes
import Runbook.Proofs.Placeholder.Notation
import Runbook.Proofs.Text.Parts

/-! Headings with a block of attributes: the name is what stands before the block, and its braces
are those of placeholders. What stands after the block is lost. -/
namespace Runbook
open Text

namespace Catalog

/-! ### Braces -/

/-- Each brace that opens stands after one of the signs that open a placeholder. -/
inductive Guarded : Text → Prop
  | nil : Guarded []
  | other {c : Char} {s : Text} (noBrace : c ≠ '\x7b') (rest : Guarded s) : Guarded (c :: s)
  | opener {c : Char} {s : Text} (sign : c = '$' ∨ c = '<' ∨ c = '=') (rest : Guarded s) :
      Guarded (c :: '\x7b' :: s)

lemma splitBlock?_cons {c : Char} {s : Text} (hc : c ≠ '\x7b') (hs : Clear (· == '\x7b') s) :
    Heading.splitBlock? (c :: s) =
      (Heading.splitBlock? s).map fun (before, after) => (c :: before, after) := by
  rw [Heading.splitBlock?]
  · rintro rfl
    exact hc rfl
  · rintro t rfl
    cases clear_cons.mp hs

namespace Guarded
variable {s t : Text}

lemma of_all (h : s.all (· != '\x7b') = true) : Guarded s := by
  induction s with
  | nil => exact .nil
  | cons c s ih =>
    obtain ⟨hc, hs⟩ := Bool.and_eq_true_iff.mp h
    exact .other (by simpa using hc) (ih hs)

lemma clear (h : Guarded s) : Clear (· == '\x7b') s := by
  cases h with
  | nil => exact clear_nil _
  | other noBrace => exact clear_cons.mpr (by simpa using noBrace)
  | opener sign => rcases sign with rfl | rfl | rfl <;> exact clear_cons.mpr (by decide)

lemma append (hs : Guarded s) (ht : Guarded t) : Guarded (s ++ t) := by
  induction hs with
  | nil => exact ht
  | other noBrace rest ih => exact .other noBrace ih
  | opener sign rest ih => exact .opener sign ih

lemma splitBlock?_opener {c : Char} (sign : c = '$' ∨ c = '<' ∨ c = '=') (s : Text) :
    Heading.splitBlock? (c :: '\x7b' :: s) =
      (Heading.splitBlock? s).map fun (before, after) => (c :: '\x7b' :: before, after) := by
  rcases sign with rfl | rfl | rfl
  all_goals
    rw [Heading.splitBlock?]
    · rfl
    · decide

/-- No block of attributes is found. -/
theorem splitBlock?_eq_none (h : Guarded s) : Heading.splitBlock? s = none := by
  induction h with
  | nil => rfl
  | other noBrace rest ih =>
    rw [splitBlock?_cons noBrace rest.clear, ih]
    rfl
  | opener sign rest ih =>
    rw [splitBlock?_opener sign, ih]
    rfl

/-- The next brace opens a block, unless it stands after one of the signs. -/
theorem splitBlock?_append (h : Guarded s)
    (unsigned : ∀ c ∈ s.getLast?, ¬ (c = '$' ∨ c = '<' ∨ c = '=')) (block : Text) :
    Heading.splitBlock? (s ++ '\x7b' :: block) = some (s, block) := by
  induction h with
  | nil => rfl
  | @other c s noBrace rest ih =>
    cases s with
    | nil =>
      have hc : (c == '$' || c == '<' || c == '=') = false := by
        simpa [not_or, and_assoc] using unsigned c rfl
      change Heading.splitBlock? (c :: '\x7b' :: block) = _
      rw [Heading.splitBlock?, hc]
      · rfl
      · exact noBrace
    | cons d s =>
      have hclear := rest.clear.append_of_ne_nil (List.cons_ne_nil d s) ('\x7b' :: block)
      rw [List.cons_append, splitBlock?_cons noBrace hclear, ih]
      · rfl
      · simpa [List.getLast?_cons_cons] using unsigned
  | @opener c s sign rest ih =>
    rw [List.cons_append, List.cons_append, splitBlock?_opener sign, ih]
    · rfl
    · cases s with
      | nil => simp
      | cons d s => simpa [List.getLast?_cons_cons] using unsigned

end Guarded

lemma sign_iff {c : Char} :
    (c == '$' || c == '<' || c == '=') = true ↔ c = '$' ∨ c = '<' ∨ c = '=' := by
  simp [or_assoc]

lemma guarded_of_splitBlock? {s : Text} (h : Heading.splitBlock? s = none) : Guarded s := by
  fun_induction Heading.splitBlock? s with
  | case1 => exact .nil
  | case2 => cases h
  | case3 c s hc sign ih => exact .opener (sign_iff.mp sign) (ih (Option.map_eq_none_iff.mp h))
  | case4 => cases h
  | case5 c s hc hs ih => exact .other hc (ih (Option.map_eq_none_iff.mp h))

/-- A block starts at the first brace that does not stand after a sign. -/
lemma splitBlock?_sound {s before block : Text} (h : Heading.splitBlock? s = some (before, block)) :
    Guarded before ∧ (∀ c ∈ before.getLast?, ¬ (c = '$' ∨ c = '<' ∨ c = '=')) ∧
      s = before ++ '\x7b' :: block := by
  fun_induction Heading.splitBlock? s generalizing before block with
  | case1 => cases h
  | case2 s =>
    obtain ⟨rfl, rfl⟩ := Prod.mk.inj (Option.some.inj h)
    exact ⟨.nil, by simp, rfl⟩
  | case3 c s hc sign ih =>
    obtain ⟨⟨front, back⟩, hsplit, heq⟩ := Option.map_eq_some_iff.mp h
    obtain ⟨rfl, rfl⟩ := Prod.mk.inj heq
    obtain ⟨hguarded, hlast, rfl⟩ := ih hsplit
    refine ⟨.opener (sign_iff.mp sign) hguarded, ?_, rfl⟩
    cases front with
    | nil => simp
    | cons d front => simpa [List.getLast?_cons_cons] using hlast
  | case4 c s hc sign =>
    obtain ⟨rfl, rfl⟩ := Prod.mk.inj (Option.some.inj h)
    refine ⟨.other hc .nil, fun d hd => ?_, rfl⟩
    obtain rfl : c = d := by simpa using hd
    exact fun hsign => sign (sign_iff.mpr hsign)
  | case5 c s hc hs ih =>
    obtain ⟨⟨front, back⟩, hsplit, heq⟩ := Option.map_eq_some_iff.mp h
    obtain ⟨rfl, rfl⟩ := Prod.mk.inj heq
    obtain ⟨hguarded, hlast, rfl⟩ := ih hsplit
    refine ⟨.other hc hguarded, ?_, rfl⟩
    cases front with
    | nil => exact absurd rfl (hs back)
    | cons d front => simpa [List.getLast?_cons_cons] using hlast

/-- Each brace that opens has one of the signs right before it. -/
theorem guarded_iff {s : Text} : Guarded s ↔ ∀ before after, s = before ++ '\x7b' :: after →
    ∃ c ∈ before.getLast?, c = '$' ∨ c = '<' ∨ c = '=' := by
  constructor
  · intro h
    induction h with
    | nil => simp
    | @other c s noBrace rest ih =>
      intro before after hs
      cases before with
      | nil => exact absurd (List.cons.inj hs).1 noBrace
      | cons d before =>
        obtain ⟨e, he, hsign⟩ := ih before after (List.cons.inj hs).2
        exact ⟨e, List.mem_getLast?_cons he, hsign⟩
    | @opener c s sign rest ih =>
      intro before after hs
      match before with
      | [] =>
        obtain rfl := (List.cons.inj hs).1
        simp at sign
      | [d] =>
        obtain rfl := (List.cons.inj hs).1
        exact ⟨c, rfl, sign⟩
      | d :: d' :: before =>
        obtain ⟨e, he, hsign⟩ := ih before after (List.cons.inj (List.cons.inj hs).2).2
        exact ⟨e, List.mem_getLast?_cons (List.mem_getLast?_cons he), hsign⟩
  · intro h
    rcases hsplit : Heading.splitBlock? s with _ | ⟨before, block⟩
    · exact guarded_of_splitBlock? hsplit
    · obtain ⟨-, hlast, hs⟩ := splitBlock?_sound hsplit
      obtain ⟨c, hc, hsign⟩ := h before block hs
      exact absurd hsign (hlast c hc)

end Catalog

/-! ### Placeholders -/

/-- An opener starts with no white space. -/
lemma Placeholder.Opener.clear_render {o : Placeholder.Opener} (h : o.WellFormed) (t : Text) :
    Clear isBlank (o.render ++ t) := by
  cases o with
  | input => exact clear_cons.mpr (by decide)
  | argument => exact clear_cons.mpr (by decide)
  | environment given =>
    have hgiven : given.all Placeholder.isAliasChar = true := h
    have hblank := all_mono (fun _ hc => not_isBlank_of (by decide +kernel) hc) hgiven
    rw [Opener.render, List.append_assoc]
    exact (clear_of_all hblank).append (clear_cons.mpr (by decide))

/-- A placeholder has no white space at its ends. -/
lemma Placeholder.Written.infix_trim (w : Placeholder.Written) {s : Text} (h : w.render <:+: s) :
    w.render <:+: trim s := by
  have hfront : Clear isBlank w.render := by
    simp only [Written.render, Written.head, List.append_assoc]
    exact Opener.clear_render w.opens _
  have hback : Clear isBlank w.render.reverse := by
    rw [Written.render, List.reverse_append]
    exact clear_cons.mpr (by decide)
  exact infix_trim_of h (by simp [Written.render]) hfront hback

namespace Heading

/-- A heading with a block of attributes, as it is written. The braces before the block are those of
placeholders. -/
structure Written where
  before : Text
  guarded : Catalog.Guarded before
  unsigned : ∀ c ∈ before.getLast?, ¬ (c = '$' ∨ c = '<' ∨ c = '=')
  attributes : List Attribute.Written
  inner : Text
  listed : Attribute.Listed attributes inner
  after : Text

/-- A heading with these attributes. -/
def ofAttributes (name : Text) (as : List Attribute) : Heading :=
  ⟨name, as.filterMap Attribute.flag?, as.filterMap Attribute.pair?⟩

namespace Written

def render (w : Written) : Text := w.before ++ '\x7b' :: (w.inner ++ '\x7d' :: w.after)

def heading (w : Written) : Heading :=
  ofAttributes (trim w.before) (w.attributes.map Attribute.Written.meaning)

lemma splitBlock?_render (w : Written) :
    splitBlock? w.render = some (w.before, w.inner ++ '\x7d' :: w.after) :=
  w.guarded.splitBlock?_append w.unsigned _

theorem parse_eq (w : Written) : parse w.render = w.heading := by
  rw [parse, w.splitBlock?_render]
  simp only [Attribute.readAll?_listed w.listed]
  rfl

section Spaced
variable {name : Text} (guarded : Catalog.Guarded name) (ws : List Attribute.Written)

/-- A name and attributes with single spaces between them. -/
def spaced : Written where
  before := name ++ [' ']
  guarded := guarded.append (.other (by decide) .nil)
  unsigned := by simp
  attributes := ws
  inner := unwords (ws.map Attribute.Written.render)
  listed := Attribute.listed_unwords ws
  after := []

lemma render_spaced : (spaced guarded ws).render =
    name ++ " \x7b".toList ++ unwords (ws.map Attribute.Written.render) ++ "\x7d".toList := by
  simp [spaced, render]

lemma heading_spaced (trimmed : trim name = name) :
    (spaced guarded ws).heading = ofAttributes name (ws.map Attribute.Written.meaning) := by
  have hname : trim (name ++ [' ']) = name := by
    rcases eq_or_ne name [] with rfl | hne
    · rfl
    · rw [trim_concat_space hne (trimmed ▸ clear_trim name), trimmed]
  rw [heading, spaced, hname]

end Spaced
end Written

/-- A text without a block is all name. -/
lemma parse_guarded {t : Text} (h : Catalog.Guarded t) : parse t = ⟨t, [], []⟩ := by
  rw [parse, h.splitBlock?_eq_none]

/-- A text is all name, or it has a block. -/
lemma parse_cases (t : Text) :
    ((∀ w : Written, w.render ≠ t) ∧ parse t = ⟨t, [], []⟩) ∨ ∃ w : Written, w.render = t := by
  by_cases h : ∃ w : Written, w.render = t
  · exact .inr h
  · refine .inl ⟨fun w hw => h ⟨w, hw⟩, ?_⟩
    unfold parse
    split
    · rfl
    · next before block hsplit =>
      split
      · rfl
      · next as after hread =>
        obtain ⟨hguarded, hlast, rfl⟩ := Catalog.splitBlock?_sound hsplit
        obtain ⟨ws, inner, hlisted, rfl, rfl⟩ := Attribute.exists_listed hread
        exact absurd ⟨⟨before, hguarded, hlast, ws, inner, hlisted, after⟩, rfl⟩ h

/-- A heading has all that a text says: it is the text as a name, or its name stands before a block
with its attributes, with nothing but white space after the block. -/
def Accounts (h : Heading) (t : Text) : Prop :=
  h = ⟨t, [], []⟩ ∨ ∃ (before inner after : Text) (ws : List Attribute.Written),
    t = before ++ '\x7b' :: (inner ++ '\x7d' :: after) ∧ Attribute.Listed ws inner ∧
      isBlankText after = true ∧
      h = ofAttributes (trim before) (ws.map Attribute.Written.meaning)

lemma Written.accounts_iff (w : Written) :
    Accounts (parse w.render) w.render ↔ isBlankText w.after = true := by
  constructor
  · rintro (hwhole | ⟨before, inner, after, ws, ht, hlisted, hblank, hparse⟩)
    · have hname : trim w.before = w.render := by
        rw [w.parse_eq] at hwhole
        exact congrArg Heading.name hwhole
      have hle := (infix_trim w.before).length_le
      rw [hname, render, List.length_append, List.length_cons] at hle
      omega
    · have hname : trim w.before = trim before := by
        rw [w.parse_eq] at hparse
        exact congrArg Heading.name hparse
      -- The names have the same braces, so both blocks start at the same one.
      have hcount : w.before.count '\x7b' = before.count '\x7b' := by
        rw [← count_trim (by decide), hname, count_trim (by decide)]
      obtain ⟨-, hblock⟩ := append_cons_inj ht hcount
      have hread := Attribute.readAll?_listed w.listed w.after
      rw [hblock, Attribute.readAll?_listed hlisted] at hread
      obtain ⟨-, rfl⟩ := Prod.mk.inj (Option.some.inj hread)
      exact hblank
  · exact fun hblank =>
      .inr ⟨w.before, w.inner, w.after, w.attributes, rfl, w.listed, hblank, w.parse_eq⟩

/-- A name without white space at its ends, in which all braces are those of placeholders, is read
with the attributes of the block after it, in their order. -/
theorem parse_attributes {name : Text} (trimmed : trim name = name)
    (guarded : ∀ before after, name = before ++ '\x7b' :: after →
      ∃ c ∈ before.getLast?, c = '$' ∨ c = '<' ∨ c = '=') (ws : List Attribute.Written) :
    parse (name ++ " \x7b".toList ++ unwords (ws.map Attribute.Written.render) ++ "\x7d".toList) =
      ⟨name, (ws.map Attribute.Written.meaning).filterMap Attribute.flag?,
        (ws.map Attribute.Written.meaning).filterMap Attribute.pair?⟩ := by
  have hguarded := Catalog.guarded_iff.mpr guarded
  rw [← Written.render_spaced hguarded, Written.parse_eq,
    Written.heading_spaced hguarded ws trimmed]
  rfl

/-- Attributes in all their forms, one of them with signs of other kinds in its value. -/
def tagged : List Attribute.Written :=
  [.flag ⟨"bg", by decide, by decide⟩,
    .quoted Attribute.typeKey "\x7b.a =\n\x7d" (by decide),
    .bare ⟨"lang", by decide, by decide⟩ "bash" (by decide) (by decide),
    .quoted Attribute.typeKey "git" (by decide)]

theorem parse_attributes_tagged :
    let name : Text := "show $\x7brev\x7d A=\x7bb\x7d"
    trim name = name ∧
      (∀ before after, name = before ++ '\x7b' :: after →
        ∃ c ∈ before.getLast?, c = '$' ∨ c = '<' ∨ c = '=') ∧
      parse ("show $\x7brev\x7d A=\x7bb\x7d ".toList ++
          "\x7b.bg type=\"\x7b.a =\n\x7d\" lang=bash type=\"git\"\x7d".toList) =
        ⟨name, ["bg"], [("type", "\x7b.a =\n\x7d"), ("lang", "bash"), ("type", "git")]⟩ := by
  intro name
  have trimmed : trim name = name := by decide +kernel
  have nothing : splitBlock? name = none := by decide +kernel
  have guarded := Catalog.guarded_iff.mp (Catalog.guarded_of_splitBlock? nothing)
  exact ⟨trimmed, guarded, parse_attributes trimmed guarded tagged⟩

/-- A text without a block is all name. Of a text with a block the name and the attributes are what
they are written as, and the name has the placeholders before the block; nothing of the text is
missing exactly if only white space stands after the block. -/
theorem parse_accounts (t : Text) :
    ((∀ w : Written, w.render ≠ t) ∧ parse t = ⟨t, [], []⟩) ∨
    ∃ w : Written, w.render = t ∧ parse t = w.heading ∧
      (∀ p : Placeholder.Written, p.render <:+: w.before → p.render <:+: (parse t).name) ∧
      (Accounts (parse t) t ↔ isBlankText w.after = true) := by
  rcases parse_cases t with hwhole | ⟨w, rfl⟩
  · exact .inl hwhole
  · refine .inr ⟨w, rfl, w.parse_eq, fun p hp => ?_, w.accounts_iff⟩
    rw [w.parse_eq]
    exact p.infix_trim hp

/-- A block with a placeholder after it. -/
def early : Written where
  before := "show "
  guarded := .of_all (by decide)
  unsigned := fun c hc => by
    obtain rfl : ' ' = c := Option.some.inj hc
    decide
  attributes := [.flag ⟨"bg", by decide, by decide⟩]
  inner := ".bg"
  listed := .more (g := []) rfl _ (clear_nil _) (.done (g := []) rfl)
  after := " $\x7brev\x7d"

/-- The placeholder is lost. -/
theorem parse_early :
    parse "show \x7b.bg\x7d $\x7brev\x7d" = ⟨"show", ["bg"], []⟩ ∧
      ¬ Accounts (parse "show \x7b.bg\x7d $\x7brev\x7d") "show \x7b.bg\x7d $\x7brev\x7d" := by
  have hparse : parse "show \x7b.bg\x7d $\x7brev\x7d" = ⟨"show", ["bg"], []⟩ :=
    early.parse_eq.trans (by decide +kernel)
  have hafter : isBlankText early.after = false := by decide
  refine ⟨hparse, fun h => ?_⟩
  rw [early.accounts_iff.mp h] at hafter
  cases hafter

end Heading
end Runbook
