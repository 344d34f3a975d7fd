import Mathlib.Tactic.Common
import Runbook.Proofs.Placeholder.Meaning
import Runbook.Proofs.Placeholder.Phrases

/-! Every placeholder that can be written is read as what it means, wherever it stands; one with a
second format is refused at the modifier that gives it. -/
namespace Runbook.Placeholder
open Text

/-- A modifier after a bar is added, and reading goes on after it; one that conflicts with others is
where reading stops. -/
lemma readPipeline_bar {p : Placeholder} {s r rest : Text} {m : Modifier}
    (h : skipBlanks s = '|' :: r) (hm : readModifier (skipBlanks r) = .ok (m, rest)) :
    readPipeline p s = (p.add m).elim (.error (.fault .formatRepeated (skipBlanks r)))
      (readPipeline · rest) := by
  rw [readPipeline]
  split
  · next t ht =>
    obtain rfl : r = t := by simpa using h.symm.trans ht
    dsimp only
    split
    · next e he => cases hm.symm.trans he
    · next m' rest' hm' =>
      obtain ⟨rfl, rfl⟩ := Prod.mk.inj (Except.ok.inj (hm.symm.trans hm'))
      split
      · next hnone => rw [hnone, Option.elim_none]
      · next q hq => rw [hq, Option.elim_some]
  · next hs => exact absurd h (hs r)

lemma readPipeline_end {p : Placeholder} {s : Text} (h : ∀ r, skipBlanks s ≠ '|' :: r) :
    readPipeline p s = .ok (p, s) := by
  rw [readPipeline]
  split
  · next t ht => exact absurd ht (h t)
  · rfl

lemma clear_blanks_phrase (ph : Phrase) (r : Text) : Clear isSpaceOrTab (ph.render ++ r) := by
  cases ph with
  | multiple long => cases long <;> exact clear_cons.mpr (by decide)
  | _ => exact clear_cons.mpr (by decide)

/-- The bar before a modifier is found whatever blanks are around it. -/
lemma skipBlanks_link (l : Link) (r : Text) :
    skipBlanks (l.render ++ r) = '|' :: (l.after.text ++ (l.phrase.render ++ r)) := by
  rw [Link.render, Link.lead]
  simp only [List.append_assoc, List.cons_append]
  rw [skipBlanks_append l.before.blank]
  exact skipBlanks_clear (clear_cons.mpr (by decide))

lemma skipBlanks_phrase (l : Link) (r : Text) :
    skipBlanks (l.after.text ++ (l.phrase.render ++ r)) = l.phrase.render ++ r := by
  rw [skipBlanks_append l.after.blank]
  exact skipBlanks_clear (clear_blanks_phrase l.phrase r)

/-- The links of a pipeline are read one by one, and their modifiers added. -/
theorem readPipeline_links {p q : Placeholder} {ls : List Link} {s r : Text} (hr : Follows r)
    (hs : skipBlanks s = skipBlanks (Link.renderAll ls ++ r))
    (hq : p.addAll (Link.modifiers ls) = some q) :
    ∃ s', readPipeline p s = readPipeline q s' ∧ skipBlanks s' = skipBlanks r := by
  induction ls generalizing p s with
  | nil =>
    obtain rfl := Option.some.inj hq
    exact ⟨s, rfl, hs⟩
  | cons l ls ih =>
    rw [Link.renderAll_cons, List.append_assoc, skipBlanks_link] at hs
    obtain ⟨s', hread, hskip⟩ := readModifier_render l.phrase (follows_links ls hr)
    obtain ⟨q', hadd, hq'⟩ := Option.bind_eq_some_iff.mp hq
    obtain ⟨s'', hpipe, hskip'⟩ := ih hskip hq'
    refine ⟨s'', ?_, hskip'⟩
    rw [← skipBlanks_phrase] at hread
    rw [readPipeline_bar hs hread, hadd, Option.elim_some, hpipe]

/-! ### Before the pipeline -/

lemma opener?_render {o : Opener} (h : o.WellFormed) (r : Text) :
    opener? (o.render ++ r) = some (o, r) := by
  cases o with
  | input => rfl
  | argument => rfl
  | environment given =>
    have hclear : Clear isAliasChar ('=' :: '\x7b' :: r) := clear_cons.mpr (by decide)
    have hrender : (Opener.environment given).render ++ r = given ++ '=' :: '\x7b' :: r := by
      simp [Opener.render]
    have hfirst : ∀ c t, given ++ '=' :: '\x7b' :: r = c :: t → c ≠ '<' ∧ c ≠ '$' := by
      intro c t hc
      cases given with
      | nil =>
        obtain ⟨rfl, -⟩ := List.cons.inj hc
        decide
      | cons d given =>
        obtain ⟨rfl, -⟩ := List.cons.inj hc
        have hd := (Bool.and_eq_true_iff.mp h).1
        constructor <;> rintro rfl <;> revert hd <;> decide
    rw [hrender]
    unfold opener?
    split
    · next t ht => exact absurd rfl (hfirst _ _ ht).1
    · next t ht => exact absurd rfl (hfirst _ _ ht).2
    · rw [dropWhile_append_clear h hclear, takeWhile_append_clear h hclear]
      rfl

lemma readShorthand_render (sh : Shorthand) {r : Text} (h : Follows r) :
    readShorthand (sh.render ++ r) = .ok (sh.modifiers, r) := by
  obtain ⟨-, hdigit, hsign⟩ := h.clear
  have hcomma : Clear (· == ',') r := hsign ',' (by simp)
  have hm : Clear (· == 'm') r := hsign 'm' (by simp)
  have hdecimal := clear_decimal hdigit
  have hletter : isDigit 'm' = false := by decide
  cases sh with
  | fields n multi =>
    cases multi with
    | true =>
      have hread : readNumbers (n.render ++ 'm' :: r) = .ok (n.values, 'm' :: r) :=
        readNumbers_render n (clear_decimal (clear_cons.mpr hletter)) (clear_cons.mpr rfl)
      have hrender : (Shorthand.fields n true).render ++ r = n.render ++ 'm' :: r := by
        simp [Shorthand.render]
      rw [hrender]
      unfold readShorthand
      rw [startsWithDigit_render, hread]
      rfl
    | false =>
      have hrender : (Shorthand.fields n false).render ++ r = n.render ++ r := by
        simp [Shorthand.render]
      rw [hrender]
      unfold readShorthand
      rw [startsWithDigit_render, readNumbers_render n hdecimal hcomma]
      cases r with
      | nil => rfl
      | cons c r =>
        have hc : c ≠ 'm' := by simpa using hm
        simp [hc, Shorthand.modifiers]
  | several n =>
    cases n with
    | none =>
      have hrender : (Shorthand.several none).render ++ r = 'm' :: r := rfl
      rw [hrender, readShorthand, startsWithDigit, hletter]
      simp [startsWithDigit_clear hdigit, Shorthand.modifiers]
    | some n =>
      have hrender : (Shorthand.several (some n)).render ++ r = 'm' :: (n.render ++ r) := rfl
      rw [hrender, readShorthand, startsWithDigit, hletter]
      simp [startsWithDigit_render, readNumbers_render n hdecimal hcomma, Shorthand.modifiers]

lemma Follows.not_colon {r : Text} (h : Follows r) : readShorthand? r = .ok ([], r) := by
  cases h with
  | bar r => rfl
  | brace r => rfl
  | blank hc _ => rcases eq_space_or_tab hc with rfl | rfl <;> rfl

namespace Written
variable (w : Written)

/-- What follows the shorthand, up to the closing brace and after it. -/
def rest (after : Text) : Text := Link.renderAll w.links ++ (w.last.text ++ '\x7d' :: after)

lemma follows_rest (after : Text) : Follows (w.rest after) :=
  follows_links w.links (follows_append w.last.blank (.brace after))

/-- The shorthand as it is written after the name. -/
def shorthandText : Text := (w.shorthand.map fun sh => ':' :: sh.render).getD []

lemma render_append (after : Text) :
    w.render ++ after = w.opener.render ++ (w.name ++ (w.shorthandText ++ w.rest after)) := by
  simp [render, head, rest, shorthandText]

lemma readShorthand?_render (after : Text) :
    readShorthand? (w.shorthandText ++ w.rest after) = .ok (w.headModifiers, w.rest after) := by
  have hrest := w.follows_rest after
  cases hs : w.shorthand with
  | none => simpa [shorthandText, headModifiers, hs] using hrest.not_colon
  | some sh =>
    simp only [shorthandText, headModifiers, hs, Option.map_some, Option.getD_some]
    exact readShorthand_render sh hrest

/-- The name ends where the shorthand or the pipeline begins. -/
lemma clear_name (after : Text) : Clear isNameChar (w.shorthandText ++ w.rest after) := by
  cases hs : w.shorthand with
  | none =>
    have happ := (w.apart hs).append (t := '\x7d' :: after) (clear_cons.mpr (by decide))
    simpa [shorthandText, hs, rest] using happ
  | some sh =>
    simp only [shorthandText, hs, Option.map_some, Option.getD_some]
    exact clear_cons.mpr (by decide)

lemma target_eq : w.opener.target w.name = w.target := by
  unfold target
  cases w.opener with
  | input => rfl
  | argument => rfl
  | environment given =>
    cases given with
    | nil => simp [Opener.target, variableName, replaceChar]
    | cons c given => simp [Opener.target, variableName, replaceChar]

lemma nil_of_all_blank (after : Text) :
    skipBlanks (w.last.text ++ '\x7d' :: after) = '\x7d' :: after := by
  rw [skipBlanks_append w.last.blank]
  exact skipBlanks_clear (clear_cons.mpr (by decide))

/-- After the opener come the name, the shorthand and the pipeline. -/
lemma readBody_written {p : Placeholder} (after : Text)
    (hp : addAll { target := w.target, name := w.name } w.headModifiers = some p) :
    read? (w.render ++ after) = some
      (match readPipeline p (w.rest after) with
      | .error e => .error e
      | .ok (q, r) =>
        match skipBlanks r with
        | '\x7d' :: after => .ok (q, after)
        | other => .error (.fault .unclosed other)) := by
  have hclear := w.clear_name after
  have hname : w.name.isEmpty = false := by simpa using w.named
  rw [render_append, read?, opener?_render w.opens]
  simp only [Option.map_some, readBody]
  rw [takeWhile_append_clear w.nameChars hclear, dropWhile_append_clear w.nameChars hclear, hname,
    readShorthand?_render, target_eq]
  simp only [hp]
  rfl

lemma headFormats_le : (w.headModifiers.filterMap format?).length ≤ 1 := by
  unfold headModifiers
  cases w.shorthand with
  | none => simp
  | some sh => simpa using sh.formats_le

lemma headModifier_ne : .format .lines ∉ w.headModifiers :=
  fun h => w.modifier_ne (List.mem_append_left _ h)

/-- The modifiers of the shorthand do not conflict. -/
lemma exists_head :
    ∃ p, addAll { target := w.target, name := w.name } w.headModifiers = some p := by
  have hstart : given { target := w.target, name := w.name } = 0 := rfl
  exact ⟨_, addAll_eq w.headModifier_ne (by rw [hstart, Nat.zero_add]; exact w.headFormats_le)⟩

/-- With one format at most, what is written is read up to its end. -/
lemma read?_written (h : w.formats.length ≤ 1) (after : Text) :
    read? (w.render ++ after) = some (.ok (w.placeholder, after)) := by
  obtain ⟨p, hp⟩ := w.exists_head
  have hall := addAll_written w h
  rw [modifiers, addAll_append, hp] at hall
  have hlast : Follows (w.last.text ++ '\x7d' :: after) :=
    follows_append w.last.blank (.brace after)
  obtain ⟨s, hread, hskip⟩ := readPipeline_links (s := w.rest after) hlast rfl hall
  rw [w.nil_of_all_blank] at hskip
  rw [w.readBody_written after hp, hread, readPipeline_end (by simp [hskip])]
  simp [hskip]

/-- With two formats or more, the second is where reading stops. -/
lemma read?_repeated (h : 1 < w.formats.length) (after : Text) :
    ∃ front l back, w.links = front ++ l :: back ∧ (format? l.phrase.modifier).isSome ∧
      ((w.headModifiers ++ Link.modifiers front).filterMap format?).length = 1 ∧
      read? (w.render ++ after) = some (.error (.fault .formatRepeated
        (l.phrase.render ++ (Link.renderAll back ++ (w.last.text ++ '\x7d' :: after))))) := by
  rw [formats, modifiers, List.filterMap_append, List.length_append] at h
  obtain ⟨front, l, back, hlinks, hl, hcount⟩ := exists_second w.headFormats_le h
  have hone : ((w.headModifiers ++ Link.modifiers front).filterMap format?).length = 1 := by
    rwa [List.filterMap_append, List.length_append]
  refine ⟨front, l, back, hlinks, hl, hone, ?_⟩
  obtain ⟨p, hp⟩ := w.exists_head
  have hne : .format .lines ∉ w.headModifiers ++ Link.modifiers front := by
    intro hm
    apply w.modifier_ne
    rw [modifiers, hlinks, Link.modifiers_append, ← List.append_assoc]
    exact List.mem_append_left _ hm
  have hstart : given { target := w.target, name := w.name } = 0 := rfl
  obtain ⟨q, hq⟩ : ∃ q, addAll { target := w.target, name := w.name }
      (w.headModifiers ++ Link.modifiers front) = some q :=
    ⟨_, addAll_eq hne (Nat.le_of_eq (by rw [hstart, hone]))⟩
  have hadd : q.add l.phrase.modifier = none :=
    add_repeated hne (by rw [hstart, hone]) hq hl
  rw [addAll_append, hp] at hq
  set tail := Link.renderAll back ++ (w.last.text ++ '\x7d' :: after) with htail
  have hlast : Follows (w.last.text ++ '\x7d' :: after) :=
    follows_append w.last.blank (.brace after)
  have hrest : w.rest after = Link.renderAll front ++ (l.render ++ tail) := by
    simp [rest, hlinks, htail]
  have hfollows : Follows (l.render ++ tail) := by
    rw [htail, ← List.append_assoc, ← Link.renderAll_cons]
    exact follows_links (l :: back) hlast
  obtain ⟨s, hread, hskip⟩ := readPipeline_links hfollows rfl hq
  obtain ⟨s', hphrase, -⟩ := readModifier_render l.phrase (follows_links back hlast)
  rw [skipBlanks_link] at hskip
  rw [← skipBlanks_phrase] at hphrase
  rw [w.readBody_written after hp, hrest, hread, readPipeline_bar hskip hphrase,
    hadd, Option.elim_none, skipBlanks_phrase]

/-- A written placeholder is read wherever it stands. With one format at most it is the one that
is meant, up to its closing brace; otherwise it is refused where the second format is given. -/
theorem readAt?_written (before after : Text) :
    (w.formats.length ≤ 1 →
      readAt? (before ++ w.render ++ after) before.length =
        some (.ok (w.placeholder, (before ++ w.render).length))) ∧
    (1 < w.formats.length →
      ∃ front l back, w.links = front ++ l :: back ∧ (format? l.phrase.modifier).isSome ∧
        ((w.headModifiers ++ Link.modifiers front).filterMap format?).length = 1 ∧
        readAt? (before ++ w.render ++ after) before.length =
          some (.error (.fault .formatRepeated
            (before ++ w.head ++ Link.renderAll front ++ l.lead).length)) ∧
        Fault.formatRepeated.message = "Placeholder format already set") := by
  have hdrop : (before ++ w.render ++ after).drop before.length = w.render ++ after := by
    rw [List.append_assoc, List.drop_left]
  constructor
  · intro h
    rw [readAt?, hdrop, w.read?_written h after]
    simp only [Option.map_some, List.length_append]
    congr 4
    omega
  · intro h
    obtain ⟨front, l, back, hlinks, hl, hone, hread⟩ := w.read?_repeated h after
    refine ⟨front, l, back, hlinks, hl, hone, ?_, rfl⟩
    rw [readAt?, hdrop, hread]
    simp only [Option.map_some, Stop.inText, render, hlinks, Link.renderAll_append,
      Link.renderAll_cons, Link.render, List.length_append, List.length_cons, List.length_nil]
    congr 3
    omega

/-- The text `HOST=\x7bhosts:1m` with a pipeline and a closing brace. -/
def hosts (ls : List Link) : Written where
  opener := .environment "HOST"
  opens := by decide
  name := "hosts"
  named := by decide
  nameChars := by decide
  shorthand := some (.fields ⟨⟨['1'], by decide, by decide, by decide⟩, []⟩ true)
  links := ls
  last := ⟨[], rfl⟩
  apart := nofun

/-- One format is read; a second one, after the bar, is refused. -/
theorem readAt?_hosts :
    ((hosts []).formats.length ≤ 1 ∧
      readAt? ("ssh ".toList ++ (hosts []).render ++ []) 4 =
        some (.ok ((hosts []).placeholder, 19))) ∧
    (1 < (hosts [⟨⟨[], rfl⟩, ⟨[], rfl⟩, .json⟩]).formats.length ∧
      ∃ place, readAt? ("ssh ".toList ++ (hosts [⟨⟨[], rfl⟩, ⟨[], rfl⟩, .json⟩]).render ++ []) 4 =
        some (.error (.fault .formatRepeated place))) := by
  have hone : (hosts []).formats.length ≤ 1 := by decide
  have htwo : 1 < (hosts [⟨⟨[], rfl⟩, ⟨[], rfl⟩, .json⟩]).formats.length := by decide
  obtain ⟨_, _, _, _, _, _, hread, _⟩ := (readAt?_written _ "ssh ".toList []).2 htwo
  exact ⟨⟨hone, (readAt?_written _ "ssh ".toList []).1 hone⟩, htwo, _, hread⟩

end Written
end Runbook.Placeholder
