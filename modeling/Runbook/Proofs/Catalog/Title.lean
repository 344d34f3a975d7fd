import Mathlib.Tactic.Common
import Runbook.Catalog.Event
import Runbook.Proofs.Catalog.Heading
import Runbook.Proofs.Catalog.Section
import Runbook.Proofs.Markdown.Inline

/-! The title of a section is read as its name and its types, and as that of a command if the name
stands in a code span. -/
namespace Runbook.Catalog
open Markdown Text

/-- The signs of other kinds that titles are read by. -/
def otherSigns : Text := inlineBlanks ++ lineBreaks ++ ['`', '\x7b', '$', '<', '=', '&', '#']

/-- No character of a name is a sign of another kind. -/
lemma titleChar_ne {c d : Char} (hc : isTitleChar c = true) (hd : d ∈ otherSigns) : c ≠ d := by
  have apart : otherSigns.all (!isTitleChar ·) = true := by decide +kernel
  rintro rfl
  have hnot := List.all_eq_true.mp apart c hd
  rw [hc] at hnot
  cases hnot

lemma titleChar_not_blank {c : Char} (hc : isTitleChar c = true) : isBlank c = false := by
  rw [Bool.eq_false_iff]
  intro hblank
  refine titleChar_ne hc (d := c) ?_ rfl
  simp only [isBlank, isLineBreak, Bool.or_eq_true, List.contains_iff_mem] at hblank
  rw [otherSigns, List.append_assoc, List.mem_append, List.mem_append]
  exact hblank.imp_right Or.inl

/-- A name starts with none of the other signs. -/
lemma clear_name {name : Text} (h : name.all isTitleChar = true) {d : Char}
    (hd : d ∈ otherSigns) : Clear (· == d) name :=
  clear_of_all (all_mono (fun _ hc => by simpa using titleChar_ne hc hd) h)

namespace Section
variable (s : Section)

lemma name_not_blank : s.name.all (!isBlank ·) = true :=
  all_mono (fun _ hc => by simp [titleChar_not_blank hc]) s.nameChars

/-- No character of the name is one of the other signs. -/
lemma name_all_ne {d : Char} (hd : d ∈ otherSigns) : s.name.all (· != d) = true :=
  all_mono (fun _ hc => by simpa using titleChar_ne hc hd) s.nameChars

lemma not_mem_name {d : Char} (hd : d ∈ otherSigns) : d ∉ s.name := by
  intro hmem
  exact titleChar_ne (List.all_eq_true.mp s.nameChars d hmem) hd rfl

lemma attributes_nil (h : s.types = []) : s.attributes = [] := by
  rw [attributes, h]
  rfl

lemma attributes_cons {t : Text} {ts : List Text} (h : s.types = t :: ts) :
    s.attributes =
      ' ' :: '\x7b' :: (quoted t ++ ((ts.map quoted).flatMap (' ' :: ·) ++ ['\x7d'])) := by
  rw [attributes, h, List.map_cons, unwords_cons]
  simp

lemma unquoted_of_typeChars {t : Text} (h : t.all isTypeChar = true) :
    t.all (· != '"') = true := by
  refine all_mono (fun c hc => ?_) h
  simp only [isTypeChar, Bool.and_eq_true] at hc
  exact hc.1.1

/-- The types of a section as attributes. -/
def attributesWritten : List Attribute.Written :=
  s.types.pmap (fun t ht => .quoted Attribute.typeKey t (unquoted_of_typeChars ht)) s.typeChars

lemma render_attributesWritten :
    s.attributesWritten.map Attribute.Written.render = s.types.map quoted := by
  rw [attributesWritten, List.map_pmap]
  exact List.pmap_eq_map ..

lemma meaning_attributesWritten :
    s.attributesWritten.map Attribute.Written.meaning = s.types.map (.pair "type") := by
  rw [attributesWritten, List.map_pmap]
  exact List.pmap_eq_map ..

/-- The plain text of a title is cut into the name and the types. -/
theorem parse_title :
    Heading.parse (s.name ++ s.attributes) =
      ⟨s.name, [], s.types.map fun t => ("type".toList, t)⟩ := by
  have hguarded : Guarded s.name := .of_all (s.name_all_ne (by decide))
  cases hts : s.types with
  | nil =>
    rw [s.attributes_nil hts, List.append_nil]
    exact Heading.parse_guarded hguarded
  | cons t ts =>
    have htext : s.name ++ s.attributes =
        (Heading.Written.spaced hguarded s.attributesWritten).render := by
      rw [Heading.Written.render_spaced, render_attributesWritten, attributes, hts]
      simp
    have htrim : trim s.name = s.name := trim_of_all s.name_not_blank
    have hflags : ((t :: ts).map (Attribute.pair "type")).filterMap Attribute.flag? = [] := by
      rw [List.filterMap_eq_nil_iff]
      intro a ha
      obtain ⟨_, -, rfl⟩ := List.mem_map.mp ha
      rfl
    have hpairs : ((t :: ts).map (Attribute.pair "type")).filterMap Attribute.pair? =
        (t :: ts).map fun t => ("type".toList, t) := by
      rw [List.filterMap_map]
      exact congrFun List.filterMap_eq_map _
    rw [htext, Heading.Written.parse_eq, Heading.Written.heading_spaced _ _ htrim,
      meaning_attributesWritten, hts, Heading.ofAttributes, hflags, hpairs]

/-! ### The inline content -/

/-- What the title of a section is read as. -/
def header : Heading where
  name := s.name
  flags := if s.body.isSome then ["command".toList] else []
  pairs := s.types.map fun t => ("type".toList, t)

/-- The characters of a block are those of its types and of its notation. -/
lemma attributes_all {p : Char → Bool} (hsigns : " \x7btype=\"\x7d".toList.all p = true)
    (htypes : ∀ c, isTypeChar c = true → p c = true) : s.attributes.all p = true := by
  rw [List.all_eq_true] at hsigns
  have hpart (signs : Text) (h : signs ⊆ " \x7btype=\"\x7d".toList) : signs.all p = true :=
    List.all_eq_true.mpr fun c hc => hsigns c (h hc)
  have hquoted : ∀ t ∈ s.types, (quoted t).all p = true := by
    intro t ht
    change ("type=\"".toList ++ (t ++ ['"'])).all p = true
    rw [List.all_append, List.all_append, hpart _ (by decide),
      all_mono htypes (s.typeChars t ht), hpart _ (by decide)]
    rfl
  cases hts : s.types with
  | nil => rw [s.attributes_nil hts]; rfl
  | cons t ts =>
    rw [hts] at hquoted
    obtain ⟨ht, hrest⟩ := List.forall_mem_cons.mp hquoted
    have hmore : ((ts.map quoted).flatMap (' ' :: ·)).all p = true := by
      rw [List.all_flatMap, List.all_map, List.all_eq_true]
      intro u hu
      exact Bool.and_eq_true_iff.mpr ⟨hsigns ' ' (by decide), hrest u hu⟩
    rw [s.attributes_cons hts, List.all_cons, List.all_cons, List.all_append, List.all_append,
      hsigns ' ' (by decide), hsigns '\x7b' (by decide), ht, hmore, hpart _ (by decide)]
    rfl

/-- The block of types is empty or stands after a space, with text in it. -/
lemma attributes_ends : s.attributes = [] ∨
    ∃ inner : Text, s.attributes = ' ' :: '\x7b' :: (inner ++ ['\x7d']) := by
  cases hts : s.types with
  | nil => exact .inl (s.attributes_nil hts)
  | cons t ts =>
    refine .inr ⟨quoted t ++ (ts.map quoted).flatMap (' ' :: ·), ?_⟩
    rw [s.attributes_cons hts, List.append_assoc]

lemma attributes_no_tick : s.attributes.all (· != '`') = true :=
  s.attributes_all (by decide) fun c hc => by simp_all [isTypeChar]

lemma inline_title : Markdown.inline s.title =
    if s.body.isSome then .code s.name :: Markdown.inline s.attributes
    else [.text (s.name ++ s.attributes)] := by
  have hname : s.name.all (· != '`') = true := s.name_all_ne (by decide)
  cases hbody : s.body with
  | none =>
    have htitle : s.title = s.name ++ s.attributes := by rw [title, hbody]; rfl
    rw [htitle, inline_of_all (by simp [s.named])]
    · rfl
    · rw [List.all_append, hname, s.attributes_no_tick]
      rfl
  | some b =>
    have htitle : s.title = '`' :: s.name ++ '`' :: s.attributes := by
      rw [title, hbody]
      simp
    have hspan : Inline.spanContent s.name = s.name := by
      refine Inline.spanContent_eq ?_ ?_
      · exact s.not_mem_name (by decide)
      · exact fun hhead => s.not_mem_name (by decide) (List.mem_of_head? hhead)
    rw [htitle, inline_span s.named hname (clear_of_all s.attributes_no_tick), hspan]
    rfl

/-- The block of types without the space before it has no white space at its ends. -/
lemma trim_block (inner : Text) :
    trim (' ' :: '\x7b' :: (inner ++ ['\x7d'])) = '\x7b' :: (inner ++ ['\x7d']) := by
  rw [trim_space]
  refine trim_clear (clear_cons.mpr (by decide)) ?_
  rw [List.reverse_cons, List.reverse_append]
  exact clear_cons.mpr (by decide)

lemma clear_blank_title : Clear isBlank (s.name ++ s.attributes) := by
  obtain ⟨c, r, hname⟩ := List.exists_cons_of_ne_nil s.named
  have hclear := clear_of_all s.name_not_blank
  rw [hname] at hclear ⊢
  exact clear_cons.mpr (clear_cons.mp hclear)

/-- A title in plain text has no white space at its ends. -/
lemma trim_title : trim (s.name ++ s.attributes) = s.name ++ s.attributes := by
  rcases s.attributes_ends with hnil | ⟨inner, hinner⟩
  · rw [hnil, List.append_nil]
    exact trim_of_all s.name_not_blank
  · refine trim_clear s.clear_blank_title ?_
    rw [hinner, List.reverse_append, List.reverse_cons, List.reverse_cons, List.reverse_append]
    exact clear_cons.mpr (by decide)

/-- The plain text of a title is the same with and without a code span. -/
lemma plainText_title :
    Node.plainText ((Markdown.inline s.title).map Node.ofInline) = s.name ++ s.attributes := by
  have hleaf (kind : Kind) {t : Text} (h : isBlankText t = false) :
      Node.texts (.mk kind none t []) = [trim t] := by
    rw [Node.texts, h]
    rfl
  rw [inline_title, Node.plainText]
  cases s.body with
  | none =>
    have hne : s.name ++ s.attributes ≠ [] := by simp [s.named]
    change unwords (Node.texts (.mk .text none (s.name ++ s.attributes) []) ++ []) = _
    rw [hleaf .text (isBlankText_of_clear hne s.clear_blank_title), s.trim_title]
    rfl
  | some b =>
    have hname := isBlankText_of_clear s.named (clear_of_all s.name_not_blank)
    change unwords (Node.texts (.mk .code none s.name []) ++
      Node.texts.textsOf ((Markdown.inline s.attributes).map Node.ofInline)) = _
    rw [hleaf .code hname, trim_of_all s.name_not_blank]
    rcases s.attributes_ends with hnil | ⟨inner, hinner⟩
    · rw [hnil, Markdown.inline, Inline.pieces, Inline.ofPieces, List.append_nil]
      rfl
    · have hinline : Markdown.inline s.attributes = [.text s.attributes] :=
        inline_of_all (by simp [hinner]) s.attributes_no_tick
      rw [hinline]
      change unwords ([s.name] ++ (Node.texts (.mk .text none s.attributes []) ++ [])) = _
      rw [hleaf .text (by rw [hinner]; rfl), hinner, trim_block]
      exact List.append_assoc s.name [' '] _

/-- A title is read as its name and its types; a code span marks it as that of a command. -/
theorem headingOf_title :
    Event.headingOf ((Markdown.inline s.title).map Node.ofInline) = s.header := by
  rw [Event.headingOf, plainText_title, parse_title, inline_title, header]
  cases s.body with
  | none => rfl
  | some b =>
    have hspan : Event.codeSpan? ((Inline.code s.name :: Markdown.inline s.attributes).map
        Node.ofInline) = some s.name := rfl
    have hlast : (trim s.name).getLast? ≠ some '&' := by
      rw [trim_of_all s.name_not_blank]
      exact fun hlast => s.not_mem_name (by decide) (List.mem_of_getLast? hlast)
    rw [Option.isSome_some, if_pos rfl, hspan]
    simp only [if_neg hlast]
    rfl

end Section
end Runbook.Catalog
