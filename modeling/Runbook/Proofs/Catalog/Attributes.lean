import Mathlib.Tactic.Common
import Runbook.Heading
import Runbook.Proofs.Text.Lines
import Runbook.Proofs.Text.Numeral

/-! The notation of attributes. Reading them is exact: what is read was written, and what is written
is read, unless the text after it goes on with it. -/
namespace Runbook.Attribute
open Text

/-- A flag or a key: letters, underscores and hyphens, one at least. -/
structure Word where
  text : Text
  nonempty : text ≠ []
  chars : text.all isWordChar = true

/-- The key of project types. -/
def typeKey : Word := ⟨"type", by decide, by decide⟩

/-- The written form of an attribute. -/
inductive Written where
  | flag (name : Word)
  | quoted (key : Word) (value : Text) (unquoted : value.all (· != '"') = true)
  | bare (key : Word) (value : Text) (nonempty : value ≠ [])
      (letters : value.all Char.isAlpha = true)

namespace Written

def meaning : Written → Attribute
  | flag name => .flag name.text
  | quoted key value _ => .pair key.text value
  | bare key value _ _ => .pair key.text value

def render : Written → Text
  | flag name => '.' :: name.text
  | quoted key value _ => key.text ++ '=' :: '"' :: (value ++ ['"'])
  | bare key value _ _ => key.text ++ '=' :: value

/-- The text does not go on with an attribute that stands before it. -/
def Stops : Written → Text → Prop
  | flag _, s => Clear isWordChar s
  | quoted .., _ => True
  | bare .., s => Clear Char.isAlpha s

lemma Stops.append_brace {w : Written} {s : Text} (h : w.Stops s) (r : Text) :
    w.Stops (s ++ '\x7d' :: r) := by
  cases w with
  | flag name => exact Clear.append h (clear_cons.mpr (by decide))
  | quoted key value unquoted => trivial
  | bare key value nonempty letters => exact Clear.append h (clear_cons.mpr (by decide))

lemma Stops.of_clear {s : Text} (h : Clear isWordChar s) (w : Written) : w.Stops s := by
  have hletters : Clear Char.isAlpha s := by
    intro c hc
    have hnot := h c hc
    simp only [isWordChar, Bool.or_eq_false_iff] at hnot
    exact hnot.1.1
  cases w with
  | flag name => exact h
  | quoted key value unquoted => trivial
  | bare key value nonempty letters => exact hletters

lemma Stops.of_append {w : Written} {s t : Text} (h : w.Stops (s ++ t)) : w.Stops s := by
  cases w with
  | flag name => exact Clear.of_append h
  | quoted key value unquoted => trivial
  | bare key value nonempty letters => exact Clear.of_append h

end Written

/-- Attributes written one after another, with white space before each and at the end. There may be
none between two of them if the first one stops by itself. -/
inductive Listed : List Written → Text → Prop
  | done {g : Text} (blank : g.all isBlank = true) : Listed [] g
  | more {g : Text} (blank : g.all isBlank = true) (w : Written) {ws : List Written} {s : Text}
      (stops : w.Stops s) (rest : Listed ws s) : Listed (w :: ws) (g ++ (w.render ++ s))

/-- Attributes with single spaces between them are listed. -/
lemma listed_unwords (ws : List Written) : Listed ws (unwords (ws.map Written.render)) := by
  have hclear (ws : List Written) :
      Clear isWordChar ((ws.map Written.render).flatMap (' ' :: ·)) := by
    cases ws with
    | nil => exact clear_nil _
    | cons w ws => exact clear_cons.mpr (by decide)
  have spaced (ws : List Written) : Listed ws ((ws.map Written.render).flatMap (' ' :: ·)) := by
    induction ws with
    | nil => exact .done rfl
    | cons w ws ih => exact .more (g := [' ']) (by decide) w (.of_clear (hclear ws) w) ih
  cases ws with
  | nil => exact .done rfl
  | cons w ws =>
    rw [List.map_cons, unwords_cons]
    exact .more (g := []) rfl w (.of_clear (hclear ws) w) (spaced ws)

/-! ### Values -/

section Reading
variable {s r v : Text} {a : Attribute}

lemma value?_quoted (hv : v.all (· != '"') = true) (r : Text) :
    value? ('"' :: (v ++ '"' :: r)) = some (v, r) := by
  have hclear : Clear (· != '"') ('"' :: r) := clear_cons.mpr rfl
  rw [value?]
  simp only [dropWhile_append_clear hv hclear, takeWhile_append_clear hv hclear]

lemma value?_bare (hne : v ≠ []) (hv : v.all Char.isAlpha = true) (hr : Clear Char.isAlpha r) :
    value? (v ++ r) = some (v, r) := by
  obtain ⟨c, t, rfl⟩ := List.exists_cons_of_ne_nil hne
  have hc : c ≠ '"' := by
    rintro rfl
    cases hv
  unfold value?
  split
  · next heq => exact absurd (List.cons.inj heq).1 hc
  · rw [takeWhile_append_clear hv hr, dropWhile_append_clear hv hr]
    rfl

/-- A value is quoted text, or letters up to something else. -/
lemma value?_sound (h : value? s = some (v, r)) :
    (v.all (· != '"') = true ∧ s = '"' :: (v ++ '"' :: r)) ∨
      (v ≠ [] ∧ v.all Char.isAlpha = true ∧ Clear Char.isAlpha r ∧ s = v ++ r) := by
  have bare {s : Text} (h : (if (s.takeWhile Char.isAlpha).isEmpty then none
      else some (s.takeWhile Char.isAlpha, s.dropWhile Char.isAlpha)) = some (v, r)) :
      v ≠ [] ∧ v.all Char.isAlpha = true ∧ Clear Char.isAlpha r ∧ s = v ++ r := by
    split at h
    · cases h
    · next hne =>
      obtain ⟨rfl, rfl⟩ := Prod.mk.inj (Option.some.inj h)
      exact ⟨by simpa using hne, List.all_takeWhile, clear_dropWhile _ s,
        (List.takeWhile_append_dropWhile ..).symm⟩
  unfold value? at h
  dsimp only at h
  split at h
  · next t =>
    split at h
    · next rest hd =>
      obtain ⟨rfl, rfl⟩ := Prod.mk.inj (Option.some.inj h)
      refine .inl ⟨List.all_takeWhile, ?_⟩
      rw [← hd, List.takeWhile_append_dropWhile]
    · exact .inr (bare h)
  · exact .inr (bare h)

/-! ### One attribute -/

lemma takeWhile_word (w : Word) {c : Char} (hc : isWordChar c = false) (r : Text) :
    (w.text ++ c :: r).takeWhile isWordChar = w.text :=
  takeWhile_append_clear w.chars (clear_cons.mpr hc)

lemma dropWhile_word (w : Word) {c : Char} (hc : isWordChar c = false) (r : Text) :
    (w.text ++ c :: r).dropWhile isWordChar = c :: r :=
  dropWhile_append_clear w.chars (clear_cons.mpr hc)

/-- A key, an equals sign and a value are read as a pair. -/
lemma read?_pair (key : Word) (h : value? s = some (v, r)) :
    read? (key.text ++ '=' :: s) = some (.pair key.text v, r) := by
  have hne : key.text.isEmpty = false := List.isEmpty_eq_false_iff.mpr key.nonempty
  unfold read?
  split
  · next heq =>
    obtain ⟨c, t, hkey⟩ := List.exists_cons_of_ne_nil key.nonempty
    have hchars := key.chars
    rw [hkey] at heq hchars
    rw [(List.cons.inj heq).1] at hchars
    cases hchars
  · simp only [takeWhile_word key (c := '=') rfl, dropWhile_word key (c := '=') rfl, hne, h]
    rfl

theorem read?_render (w : Written) (h : w.Stops r) :
    read? (w.render ++ r) = some (w.meaning, r) := by
  cases w with
  | flag name =>
    have hne : name.text.isEmpty = false := List.isEmpty_eq_false_iff.mpr name.nonempty
    have hr : Clear isWordChar r := h
    change read? ('.' :: (name.text ++ r)) = _
    unfold read?
    simp only [takeWhile_append_clear name.chars hr, dropWhile_append_clear name.chars hr, hne]
    rfl
  | quoted key value unquoted =>
    have htext : (Written.quoted key value unquoted).render ++ r =
        key.text ++ '=' :: '"' :: (value ++ '"' :: r) := by
      simp [Written.render]
    rw [htext]
    exact read?_pair key (value?_quoted unquoted r)
  | bare key value nonempty letters =>
    have htext : (Written.bare key value nonempty letters).render ++ r =
        key.text ++ '=' :: (value ++ r) := by
      simp [Written.render]
    rw [htext]
    exact read?_pair key (value?_bare nonempty letters h)

theorem read?_sound (h : read? s = some (a, r)) :
    ∃ w : Written, w.meaning = a ∧ w.Stops r ∧ s = w.render ++ r := by
  have word {s : Text} (hne : ¬ (s.takeWhile isWordChar).isEmpty = true) :
      ∃ w : Word, w.text = s.takeWhile isWordChar :=
    ⟨⟨_, by simpa using hne, List.all_takeWhile⟩, rfl⟩
  unfold read? at h
  split at h
  · next t =>
    dsimp only at h
    split at h
    · cases h
    · next hne =>
      obtain ⟨w, hw⟩ := word hne
      obtain ⟨rfl, rfl⟩ := Prod.mk.inj (Option.some.inj h)
      refine ⟨.flag w, congrArg _ hw, clear_dropWhile _ t, ?_⟩
      rw [Written.render, hw, List.cons_append, List.takeWhile_append_dropWhile]
  · dsimp only at h
    split at h
    · cases h
    · next hne =>
      obtain ⟨w, hw⟩ := word hne
      split at h
      · next t ht =>
        obtain ⟨⟨v, rest⟩, hvalue, heq⟩ := Option.map_eq_some_iff.mp h
        obtain ⟨rfl, rfl⟩ := Prod.mk.inj heq
        have hs : s = w.text ++ '=' :: t := by
          rw [hw, ← ht, List.takeWhile_append_dropWhile]
        rw [← hw]
        rcases value?_sound hvalue with ⟨hv, rfl⟩ | ⟨hv, hletters, hrest, rfl⟩
        · exact ⟨.quoted w v hv, rfl, trivial, by simp [hs, Written.render]⟩
        · exact ⟨.bare w v hv hletters, rfl, hrest, by simp [hs, Written.render]⟩
      · cases h

/-! ### All attributes of a block -/

/-- An attribute starts with a point or the first character of its key. -/
lemma Written.clear_render (w : Written) (r : Text) : Clear isBlank (w.render ++ r) := by
  have hkey (key : Word) (r : Text) : Clear isBlank (key.text ++ r) := by
    have hall := all_mono (fun _ hc => not_isBlank_of (by decide +kernel) hc) key.chars
    exact (clear_of_all hall).append_of_ne_nil key.nonempty r
  cases w with
  | flag name => exact clear_cons.mpr (by decide)
  | quoted key value unquoted =>
    rw [Written.render, List.append_assoc]
    exact hkey key _
  | bare key value nonempty letters =>
    rw [Written.render, List.append_assoc]
    exact hkey key _

lemma readAll?_brace (h : trimStart s = '\x7d' :: r) : readAll? s = some ([], r) := by
  rw [readAll?]
  split
  · next heq =>
    obtain rfl := (List.cons.inj (heq.symm.trans h)).2
    rfl
  · next hbrace => exact absurd h (hbrace r)

lemma readAll?_cons (h : read? (trimStart s) = some (a, r)) :
    readAll? s = (readAll? r).map fun (as, after) => (a :: as, after) := by
  rw [readAll?]
  split
  · next heq =>
    rw [heq] at h
    cases h
  · split
    · next hnone => cases hnone.symm.trans h
    · next hsome =>
      obtain ⟨rfl, rfl⟩ := Prod.mk.inj (Option.some.inj (hsome.symm.trans h))
      rfl

/-- Listed attributes are read up to the closing brace. -/
theorem readAll?_listed {ws : List Written} {inner : Text} (h : Listed ws inner) (r : Text) :
    readAll? (inner ++ '\x7d' :: r) = some (ws.map Written.meaning, r) := by
  induction h with
  | done blank => exact readAll?_brace (dropWhile_append_clear blank (clear_cons.mpr (by decide)))
  | @more g blank w ws s stops rest ih =>
    have htrim : trimStart (g ++ (w.render ++ s) ++ '\x7d' :: r) =
        w.render ++ (s ++ '\x7d' :: r) := by
      rw [List.append_assoc, List.append_assoc]
      exact dropWhile_append_clear blank (w.clear_render _)
    have hread := read?_render w (stops.append_brace r)
    rw [← htrim] at hread
    rw [readAll?_cons hread, ih]
    rfl

/-- What is read up to a closing brace was listed. -/
theorem exists_listed {as : List Attribute} (h : readAll? s = some (as, r)) :
    ∃ ws inner, Listed ws inner ∧ ws.map Written.meaning = as ∧ s = inner ++ '\x7d' :: r := by
  have hsplit (s : Text) : s = s.takeWhile isBlank ++ trimStart s :=
    (List.takeWhile_append_dropWhile ..).symm
  fun_induction readAll? s generalizing as with
  | case1 s rest hs =>
    obtain ⟨rfl, rfl⟩ := Prod.mk.inj (Option.some.inj h)
    exact ⟨[], s.takeWhile isBlank, .done List.all_takeWhile, rfl, hs ▸ hsplit s⟩
  | case2 => cases h
  | case3 s a rest hbrace hread hlt ih =>
    obtain ⟨⟨bs, after⟩, hall, heq⟩ := Option.map_eq_some_iff.mp h
    obtain ⟨rfl, rfl⟩ := Prod.mk.inj heq
    obtain ⟨ws, inner, hlisted, rfl, rfl⟩ := ih hall
    obtain ⟨w, rfl, hstops, hrender⟩ := read?_sound hread
    refine ⟨w :: ws, s.takeWhile isBlank ++ (w.render ++ inner),
      .more List.all_takeWhile w hstops.of_append hlisted, rfl, ?_⟩
    rw [List.append_assoc, List.append_assoc, ← hrender]
    exact hsplit s

end Reading
end Runbook.Attribute
