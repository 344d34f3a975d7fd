import Mathlib.Tactic.Common
import Runbook.Proofs.Placeholder.Completeness

/-! Whatever is read was written: a reader that succeeds has taken a written form of what it gives
from the front of the text, and one that stops does so within the text. -/
namespace Runbook.Placeholder
open Text

/-- Reading stopped inside the text, or the text has a numeral that is too long. -/
def Stop.Within (s : Text) : Stop → Prop
  | .fault _ rest => rest <:+ s
  | .longNumeral _ => ∃ run, run <:+: s ∧ run.all isDecimal = true ∧ numeralLimit < run.length

lemma Stop.Within.of_suffix {e : Stop} {s t : Text} (h : e.Within t) (hs : t <:+ s) :
    e.Within s := by
  cases e with
  | fault cause rest => exact h.trans hs
  | longNumeral digits =>
    obtain ⟨run, hrun, hall, hlong⟩ := h
    exact ⟨run, hrun.trans hs.isInfix, hall, hlong⟩

/-- What a reader gives for a text: something of which the part taken from the front is a written
form, or a stop within the text. -/
def Reads {α : Type} (s : Text) (Writes : α → Text → Prop) : Except Stop (α × Text) → Prop
  | .ok (a, r) => ∃ t, s = t ++ r ∧ Writes a t
  | .error e => e.Within s

/-- A reader that goes on after a beginning. -/
lemma Reads.after {α : Type} {W W' : α → Text → Prop} {s front rest : Text}
    {result : Except Stop (α × Text)} (h : Reads rest W result) (hs : s = front ++ rest)
    (hW : ∀ a t, W a t → W' a (front ++ t)) : Reads s W' result := by
  cases result with
  | error e => exact Stop.Within.of_suffix h ⟨front, hs.symm⟩
  | ok read =>
    obtain ⟨a, r⟩ := read
    obtain ⟨t, ht, ha⟩ := h
    exact ⟨front ++ t, by rw [hs, ht, List.append_assoc], hW a t ha⟩

lemma suffix_skipBlanks (s : Text) : skipBlanks s <:+ s := List.dropWhile_suffix _

lemma exists_blanks (s : Text) : ∃ gap : Blanks, s = gap.text ++ skipBlanks s :=
  ⟨⟨s.takeWhile isSpaceOrTab, List.all_takeWhile⟩, (List.takeWhile_append_dropWhile ..).symm⟩

/-! ### Numbers -/

/-- The numerals that are found are rows of digits with commas between them. -/
lemma numerals_sound {s : Text} (h : s.takeWhile isDecimal ≠ []) :
    ∃ d ds, (numerals s).1 = d :: ds ∧ (∀ t ∈ d :: ds, t ≠ [] ∧ t.all isDecimal = true) ∧
      s = d ++ ds.flatMap (fun t => ',' :: t) ++ (numerals s).2 := by
  have hsplit (s : Text) : s = s.takeWhile isDecimal ++ s.dropWhile isDecimal :=
    (List.takeWhile_append_dropWhile ..).symm
  fun_induction numerals s with
  | case1 s d rest hd hdigit hlt more ih =>
    have hnext : (d :: rest).takeWhile isDecimal ≠ [] := by
      rw [List.takeWhile_cons_of_pos hdigit]
      exact List.cons_ne_nil _ _
    obtain ⟨e, es, hes, hall, heq⟩ := ih hnext
    refine ⟨_, e :: es, congrArg _ hes, ?_, ?_⟩
    · exact List.forall_mem_cons.mpr ⟨⟨h, List.all_takeWhile⟩, hall⟩
    · have hs := hsplit s
      rw [hd, heq] at hs
      simpa using hs
  | case2 s d rest hd hdigit =>
    refine ⟨_, [], rfl, ?_, ?_⟩
    · exact List.forall_mem_singleton.mpr ⟨h, List.all_takeWhile⟩
    · simpa [hd] using hsplit s
  | case3 s hd =>
    refine ⟨_, [], rfl, ?_, ?_⟩
    · exact List.forall_mem_singleton.mpr ⟨h, List.all_takeWhile⟩
    · simp

/-- Rows of digits are read as numerals, unless one of them is too long. -/
lemma mapM_readNumber_sound {ts : List Text} (h : ∀ t ∈ ts, t ≠ [] ∧ t.all isDecimal = true) :
    (∃ ns : List Numeral, ts = ns.map Numeral.digits ∧
      ts.mapM readNumber = .ok (ns.map fun n => numeral n.digits)) ∨
    ∃ t ∈ ts, numeralLimit < t.length ∧
      ∃ digits, ts.mapM readNumber = .error (.longNumeral digits) := by
  induction ts with
  | nil => exact .inl ⟨[], rfl, rfl⟩
  | cons t ts ih =>
    obtain ⟨ht, hts⟩ := List.forall_mem_cons.mp h
    rw [List.mapM_cons, readNumber, readNumeral]
    by_cases hshort : t.length ≤ numeralLimit
    · rw [if_pos hshort]
      rcases ih hts with ⟨ns, hns, hread⟩ | ⟨u, hu, hlong, digits, hread⟩
      · refine .inl ⟨⟨t, ht.1, ht.2, hshort⟩ :: ns, by rw [hns]; rfl, ?_⟩
        rw [hread]
        rfl
      · refine .inr ⟨u, List.mem_cons_of_mem _ hu, hlong, digits, ?_⟩
        rw [hread]
        rfl
    · rw [if_neg hshort]
      exact .inr ⟨t, List.mem_cons_self .., Nat.lt_of_not_le hshort, _, rfl⟩

lemma infix_of_mem {t : Text} {d : Text} {ds : List Text} {r : Text} (h : t ∈ d :: ds) :
    t <:+: d ++ ds.flatMap (fun t => ',' :: t) ++ r := by
  rcases List.mem_cons.mp h with rfl | h
  · exact ⟨[], ds.flatMap (fun t => ',' :: t) ++ r, by simp⟩
  · obtain ⟨before, after, rfl⟩ := List.append_of_mem h
    refine ⟨d ++ before.flatMap (fun t => ',' :: t) ++ [','],
      after.flatMap (fun t => ',' :: t) ++ r, by simp⟩

theorem readNumbers_sound (s : Text) :
    Reads s (fun ns t => ∃ n : Numbers, t = n.render ∧ n.values = ns) (readNumbers s) := by
  rw [readNumbers]
  split
  · exact List.suffix_refl s
  · next hempty =>
    obtain ⟨d, ds, hnums, hall, hs⟩ := numerals_sound (by simpa using hempty)
    rw [hnums]
    rcases mapM_readNumber_sound hall with ⟨ns, hns, hread⟩ | ⟨t, ht, hlong, digits, hread⟩
    · rw [hread]
      cases ns with
      | nil => cases hns
      | cons n ns =>
        obtain ⟨rfl, rfl⟩ := List.cons.inj hns
        refine ⟨_, hs, ⟨n, ns⟩, ?_, rfl⟩
        simp [Numbers.render, List.flatMap_map]
    · rw [hread]
      exact ⟨t, hs ▸ infix_of_mem ht, (hall t ht).2, hlong⟩

/-! ### Modifiers -/

lemma keyword?_sound {word s r : Text} (h : keyword? word s = some r) : s = word ++ r := by
  unfold keyword? at h
  split at h
  · next c t hd =>
    split at h
    · cases h
    · obtain rfl := Option.some.inj h
      exact dropStart?_eq_some_iff.mp hd
  · exact dropStart?_eq_some_iff.mp h

lemma quotedWord?_sound {s w r : Text} (h : quotedWord? s = some (w, r)) :
    w.all Char.isAlphanum = true ∧ s = '"' :: w ++ '"' :: r := by
  unfold quotedWord? at h
  split at h
  · next t =>
    split at h
    · next rest hd =>
      obtain ⟨rfl, rfl⟩ := Prod.mk.inj (Option.some.inj h)
      refine ⟨List.all_takeWhile, ?_⟩
      rw [← hd, List.cons_append, List.takeWhile_append_dropWhile]
    · cases h
  · cases h

/-- The sign of a header is there or not. -/
lemma exists_sign (s : Text) : ∃ header : Bool, (dropStart? "+h" s).isSome = header ∧
    s = (if header then ['+', 'h'] else []) ++ (dropStart? "+h" s).getD s := by
  cases h : dropStart? "+h" s with
  | none => exact ⟨false, rfl, rfl⟩
  | some r => exact ⟨true, rfl, dropStart?_eq_some_iff.mp h⟩

/-- Field numbers after a beginning that has been read. -/
lemma reads_numbers {α : Type} {Writes : α → Text → Prop} {s front after : Text}
    (make : List Nat → α) (hs : s = front ++ after)
    (hmake : ∀ n : Numbers, Writes (make n.values) (front ++ n.render)) :
    Reads s Writes
      (match readNumbers after with
      | .ok (ns, rest) => .ok (make ns, rest)
      | .error e => .error e) := by
  have hnums := readNumbers_sound after
  cases hread : readNumbers after with
  | error e =>
    rw [hread] at hnums
    exact Stop.Within.of_suffix hnums ⟨front, hs.symm⟩
  | ok read =>
    obtain ⟨ns, rest⟩ := read
    rw [hread] at hnums
    obtain ⟨_, hafter, n, rfl, rfl⟩ := hnums
    exact ⟨front ++ n.render, by rw [hs, hafter, List.append_assoc], hmake n⟩

/-- The text is a written form of the modifier. -/
def Phrased (m : Modifier) (t : Text) : Prop := ∃ ph : Phrase, t = ph.render ∧ ph.modifier = m

lemma Phrase.reads (ph : Phrase) {s r : Text} (h : s = ph.render ++ r) :
    Reads s Phrased (.ok (ph.modifier, r)) := ⟨_, h, ph, rfl, rfl⟩

theorem readModifier_sound (s : Text) : Reads s Phrased (readModifier s) := by
  unfold readModifier
  split
  · next r hr =>
    obtain ⟨header, hheader, hsign⟩ := exists_sign r
    obtain ⟨gap, hgap⟩ := exists_blanks ((dropStart? "+h" r).getD r)
    dsimp only
    set after := skipBlanks ((dropStart? "+h" r).getD r)
    have hs : s =
        ("cols".toList ++ ((if header then ['+', 'h'] else []) ++ gap.text)) ++ after := by
      rw [keyword?_sound hr, List.append_assoc, List.append_assoc, ← hgap, ← hsign]
    rw [hheader]
    split
    · refine reads_numbers (fun ns => Modifier.format (.columns header ns)) hs fun n => ?_
      refine ⟨.columns header gap (some n), ?_, rfl⟩
      change _ = "cols".toList ++ (_ ++ (gap.text ++ n.render))
      rw [List.append_assoc, List.append_assoc]
    · refine (Phrase.columns header gap none).reads ?_
      change s = ("cols".toList ++ (_ ++ (gap.text ++ []))) ++ after
      rwa [List.append_nil]
  split
  · next r hr =>
    obtain ⟨gap, hgap⟩ := exists_blanks r
    dsimp only
    set after := skipBlanks r
    have hs : s = ("fields".toList ++ gap.text) ++ after := by
      rw [keyword?_sound hr, List.append_assoc, ← hgap]
    split
    · refine reads_numbers (fun ns => Modifier.format (.fields ns)) hs fun n => ?_
      exact ⟨.fields gap n, List.append_assoc .., rfl⟩
    · exact ⟨_, hs.symm⟩
  split
  · next r hr => exact Phrase.json.reads (keyword?_sound hr)
  split
  · next r hr =>
    obtain ⟨gap, hgap⟩ := exists_blanks r
    have hs := keyword?_sound hr
    split
    · next w rest hq =>
      obtain ⟨hw, hrest⟩ := quotedWord?_sound hq
      refine (Phrase.filter gap w hw).reads ?_
      rw [hs, hgap, hrest]
      change _ = ("filter".toList ++ (gap.text ++ '"' :: w ++ ['"'])) ++ rest
      simp only [List.append_assoc, List.cons_append, List.nil_append]
    · refine ⟨"filter".toList ++ gap.text, ?_⟩
      rw [hs, List.append_assoc, ← hgap]
  split
  · next r hr => exact Phrase.list.reads (keyword?_sound hr)
  split
  · next r hr => exact (Phrase.multiple true).reads (keyword?_sound hr)
  split
  · next r hr => exact (Phrase.multiple false).reads (keyword?_sound hr)
  · exact List.suffix_refl s

/-! ### The whole placeholder -/

theorem readShorthand_sound (s : Text) :
    Reads s (fun ms t => ∃ sh : Shorthand, t = sh.render ∧ sh.modifiers = ms)
      (readShorthand s) := by
  unfold readShorthand
  split
  · have hnums := readNumbers_sound s
    cases hread : readNumbers s with
    | error e => rwa [hread] at hnums
    | ok read =>
      obtain ⟨ns, rest⟩ := read
      rw [hread] at hnums
      obtain ⟨_, hs, n, rfl, rfl⟩ := hnums
      split
      · next r hr =>
        obtain ⟨rfl, rfl⟩ := Prod.mk.inj (Except.ok.inj hr)
        refine ⟨n.render ++ ['m'], by simpa using hs, .fields n true, rfl, rfl⟩
      · next hr =>
        obtain ⟨rfl, rfl⟩ := Prod.mk.inj (Except.ok.inj hr)
        refine ⟨n.render, hs, .fields n false, ?_, rfl⟩
        simp [Shorthand.render]
      · next hr => cases hr
  · split
    · next r _ =>
      split
      · have hs : 'm' :: r = ['m'] ++ r := rfl
        refine reads_numbers (fun ns => [Modifier.multiple, .format (.fields ns)]) hs fun n => ?_
        exact ⟨.several (some n), rfl, rfl⟩
      · exact ⟨['m'], rfl, .several none, rfl, rfl⟩
    · exact List.suffix_refl s

theorem readShorthand?_sound (s : Text) :
    Reads s (fun ms t => ∃ sh : Option Shorthand, t = (sh.map fun h => ':' :: h.render).getD [] ∧
      (sh.map Shorthand.modifiers).getD [] = ms) (readShorthand? s) := by
  unfold readShorthand?
  split
  · next r =>
    have hs : ':' :: r = [':'] ++ r := rfl
    refine (readShorthand_sound r).after hs fun ms t h => ?_
    obtain ⟨sh, rfl, rfl⟩ := h
    exact ⟨some sh, rfl, rfl⟩
  · exact ⟨[], rfl, none, rfl, rfl⟩

lemma exists_bar {s r : Text} (h : skipBlanks s = '|' :: r) :
    ∃ before after : Blanks, s = before.text ++ '|' :: after.text ++ skipBlanks r := by
  obtain ⟨before, hbefore⟩ := exists_blanks s
  obtain ⟨after, hafter⟩ := exists_blanks r
  refine ⟨before, after, ?_⟩
  rw [List.append_assoc, List.cons_append, ← hafter, ← h]
  exact hbefore

/-- A pipeline is read as links whose modifiers the placeholder takes. -/
theorem readPipeline_sound (p : Placeholder) (s : Text) :
    Reads s (fun q t => ∃ ls, t = Link.renderAll ls ∧ p.addAll (Link.modifiers ls) = some q)
      (readPipeline p s) := by
  fun_induction readPipeline p s with
  | case1 p s r hs here e he =>
    obtain ⟨before, after, hlead⟩ := exists_bar hs
    have hmod := readModifier_sound here
    rw [he] at hmod
    exact Stop.Within.of_suffix hmod ⟨_, hlead.symm⟩
  | case2 p s r hs here m rest hm hadd =>
    obtain ⟨before, after, hlead⟩ := exists_bar hs
    exact ⟨_, hlead.symm⟩
  | case3 p s r hs here m rest hm q hadd hlt ih =>
    obtain ⟨before, after, hlead⟩ := exists_bar hs
    have hmod := readModifier_sound here
    rw [hm] at hmod
    obtain ⟨_, hhere, ph, rfl, rfl⟩ := hmod
    let l : Link := ⟨before, after, ph⟩
    have hlink : s = l.render ++ rest := by
      rw [hlead, show skipBlanks r = ph.render ++ rest from hhere, ← List.append_assoc]
      rfl
    refine ih.after hlink fun q' t h => ?_
    obtain ⟨ls, rfl, hls⟩ := h
    refine ⟨l :: ls, rfl, ?_⟩
    rw [Link.modifiers_cons, Placeholder.addAll, hadd]
    exact hls
  | case4 p s hs => exact ⟨[], rfl, [], rfl, rfl⟩

/-- Modifiers that a placeholder takes give one format at most. -/
lemma formats_of_addAll {p q : Placeholder} {ms : List Modifier} (hms : .format .lines ∉ ms)
    (h : p.addAll ms = some q) : (ms.filterMap format?).length ≤ 1 - given p := by
  induction ms generalizing p with
  | nil => exact Nat.zero_le _
  | cons m ms ih =>
    rw [List.mem_cons, not_or] at hms
    obtain ⟨hm, hms⟩ := hms
    obtain ⟨p', hadd, hrest⟩ := Option.bind_eq_some_iff.mp h
    have hle := ih hms hrest
    cases m with
    | format f =>
      rw [add] at hadd
      split at hadd
      · next hlines =>
        obtain rfl := Option.some.inj hadd
        have hf : f ≠ .lines := fun hf => hm (hf ▸ rfl)
        have hzero : given p = 0 := if_pos hlines
        have hone : given { p with format := f } = 1 := if_neg hf
        rw [hone] at hle
        rw [hzero, List.filterMap_cons_some (rfl : format? (.format f) = some f), List.length_cons]
        omega
      · cases hadd
    | _ =>
      obtain rfl := Option.some.inj hadd
      exact hle

/-- The parts that have been read make a placeholder as it is written. -/
lemma exists_written {o : Opener} (ho : o.WellFormed) {s after : Text} {sh : Option Shorthand}
    {ls : List Link} {last : Blanks} {q : Placeholder} (hnamed : s.takeWhile isNameChar ≠ [])
    (hdrop : s.dropWhile isNameChar = (sh.map fun h => ':' :: h.render).getD [] ++
      (Link.renderAll ls ++ (last.text ++ '\x7d' :: after)))
    (hq : addAll { target := o.target (s.takeWhile isNameChar), name := s.takeWhile isNameChar }
      ((sh.map Shorthand.modifiers).getD [] ++ Link.modifiers ls) = some q) :
    ∃ t, s = t ++ after ∧ ∃ w : Written, w.formats.length ≤ 1 ∧ w.placeholder = q ∧
      o.render ++ t = w.render := by
  have happ : sh = none → Clear isNameChar (Link.renderAll ls ++ last.text) := by
    rintro rfl
    have hclear := clear_dropWhile isNameChar s
    rw [hdrop, Option.map_none, Option.getD_none, List.nil_append, ← List.append_assoc] at hclear
    exact hclear.of_append
  let w : Written :=
    { opener := o, opens := ho, name := s.takeWhile isNameChar, named := hnamed
      nameChars := List.all_takeWhile, shorthand := sh, links := ls, last := last, apart := happ }
  have hall : addAll { target := w.target, name := w.name } w.modifiers = some q := by
    rw [← w.target_eq]
    exact hq
  have hone : w.formats.length ≤ 1 := formats_of_addAll w.modifier_ne hall
  refine ⟨w.name ++ (w.shorthandText ++ w.rest []), ?_, w, hone, ?_, ?_⟩
  · have hs : s = w.name ++ s.dropWhile isNameChar := (List.takeWhile_append_dropWhile ..).symm
    rw [hdrop] at hs
    simpa [Written.rest, Written.shorthandText] using hs
  · rw [addAll_written w hone] at hall
    exact Option.some.inj hall
  · simpa using (w.render_append []).symm

theorem readBody_sound {o : Opener} (ho : o.WellFormed) (s : Text) :
    Reads s (fun p t => ∃ w : Written, w.formats.length ≤ 1 ∧ w.placeholder = p ∧
      o.render ++ t = w.render) (readBody o s) := by
  unfold readBody
  dsimp only
  have hname : s.takeWhile isNameChar ++ s.dropWhile isNameChar = s :=
    List.takeWhile_append_dropWhile ..
  split
  · exact List.suffix_refl s
  next hnamed =>
  have hsh := readShorthand?_sound (s.dropWhile isNameChar)
  split
  · next e he =>
    rw [he] at hsh
    exact Stop.Within.of_suffix hsh ⟨_, hname⟩
  next ms afterShorthand hread =>
  rw [hread] at hsh
  obtain ⟨_, hdrop, sh, rfl, rfl⟩ := hsh
  have hsuffix : afterShorthand <:+ s := List.IsSuffix.trans ⟨_, hdrop.symm⟩ ⟨_, hname⟩
  split
  · exact hsuffix
  next p hp =>
  have hpipe := readPipeline_sound p afterShorthand
  split
  · next e he =>
    rw [he] at hpipe
    exact Stop.Within.of_suffix hpipe hsuffix
  next q rest hq =>
  rw [hq] at hpipe
  obtain ⟨_, hafter, ls, rfl, hls⟩ := hpipe
  obtain ⟨last, hlast⟩ := exists_blanks rest
  split
  · next after hbrace =>
    rw [hafter, hlast, hbrace] at hdrop
    refine exists_written ho (by simpa using hnamed) hdrop ?_
    rw [addAll_append, hp]
    exact hls
  · next other _ =>
    exact (suffix_skipBlanks rest).trans (List.IsSuffix.trans ⟨_, hafter.symm⟩ hsuffix)

/-! ### Where it stands -/

lemma opener?_sound {s r : Text} {o : Opener} (h : opener? s = some (o, r)) :
    o.WellFormed ∧ s = o.render ++ r := by
  unfold opener? at h
  split at h
  · obtain ⟨rfl, rfl⟩ := Prod.mk.inj (Option.some.inj h)
    exact ⟨trivial, rfl⟩
  · obtain ⟨rfl, rfl⟩ := Prod.mk.inj (Option.some.inj h)
    exact ⟨trivial, rfl⟩
  · split at h
    · next r' hd =>
      obtain ⟨rfl, rfl⟩ := Prod.mk.inj (Option.some.inj h)
      refine ⟨List.all_takeWhile, ?_⟩
      rw [Opener.render, List.append_assoc]
      change s = s.takeWhile isAliasChar ++ '=' :: '\x7b' :: r'
      rw [← hd, List.takeWhile_append_dropWhile]
    · cases h

lemma read?_eq_none (s : Text) :
    read? s = none ↔ ¬ ∃ o : Opener, o.WellFormed ∧ o.render <+: s := by
  rw [read?, Option.map_eq_none_iff]
  constructor
  · rintro hnone ⟨o, ho, r, rfl⟩
    rw [opener?_render ho] at hnone
    cases hnone
  · intro hno
    cases h : opener? s with
    | none => rfl
    | some read =>
      obtain ⟨ho, hs⟩ := opener?_sound h
      exact absurd ⟨_, ho, _, hs.symm⟩ hno

/-- Reading starts with an opener, and goes on after it. -/
lemma read?_sound {s : Text} {result : Except Stop (Placeholder × Text)}
    (h : read? s = some result) : ∃ (o : Opener) (r : Text), o.WellFormed ∧ s = o.render ++ r ∧
      Reads r (fun p t => ∃ w : Written, w.formats.length ≤ 1 ∧ w.placeholder = p ∧
        o.render ++ t = w.render) result := by
  obtain ⟨⟨o, r⟩, hopener, rfl⟩ := Option.map_eq_some_iff.mp h
  obtain ⟨ho, hs⟩ := opener?_sound hopener
  exact ⟨o, r, ho, hs, readBody_sound ho r⟩

/-- What is read at a position is the meaning of the slice up to its end. -/
lemma exists_slice {s : Text} {position finish : Nat} {p : Placeholder}
    (h : readAt? s position = some (.ok (p, finish))) :
    ∃ w : Written, w.formats.length ≤ 1 ∧ w.placeholder = p ∧
      (s.take finish).drop position = w.render ∧ position < finish ∧ finish ≤ s.length := by
  obtain ⟨result, hread, hresult⟩ := Option.map_eq_some_iff.mp h
  obtain ⟨o, r, -, hs, hsound⟩ := read?_sound hread
  cases result with
  | error e => cases hresult
  | ok read =>
    obtain ⟨q, after⟩ := read
    obtain ⟨rfl, rfl⟩ := Prod.mk.inj (Except.ok.inj hresult)
    obtain ⟨t, rfl, w, hone, hw, hrender⟩ := hsound
    rw [← List.append_assoc, hrender] at hs
    have hlength := congrArg List.length hs
    have hpos : 0 < w.render.length := by
      rw [Written.render, List.length_append]
      exact Nat.succ_pos _
    rw [List.length_drop, List.length_append] at hlength
    refine ⟨w, hone, hw, ?_, by omega, by omega⟩
    rw [List.drop_take, hs, show s.length - after.length - position = w.render.length by omega,
      List.take_left]

/-- Reading stops with a fault after the opener, unless a numeral of the text is too long. -/
lemma exists_place {s : Text} {position : Nat} {problem : Problem}
    (hruns : ∀ run, run <:+: s → run.all isDecimal = true → run.length ≤ numeralLimit)
    (h : readAt? s position = some (.error problem)) :
    ∃ (o : Opener) (cause : Fault) (place : Nat), o.WellFormed ∧
      o.render <+: s.drop position ∧ problem = .fault cause place ∧
      position + o.render.length ≤ place ∧ place ≤ s.length := by
  obtain ⟨result, hread, hresult⟩ := Option.map_eq_some_iff.mp h
  obtain ⟨o, r, ho, hs, hsound⟩ := read?_sound hread
  cases result with
  | ok read => cases hresult
  | error e =>
    obtain rfl := Except.error.inj hresult
    cases e with
    | fault cause rest =>
      refine ⟨o, cause, _, ho, ⟨_, hs.symm⟩, rfl, ?_, Nat.sub_le ..⟩
      have hrest : rest.length ≤ r.length := List.IsSuffix.length_le hsound
      have hlength := congrArg List.length hs
      have hpos : 0 < o.render.length := by cases o <;> simp [Opener.render]
      rw [List.length_drop, List.length_append] at hlength
      omega
    | longNumeral digits =>
      obtain ⟨run, hrun, hall, hlong⟩ := hsound
      have hsuffix : r <:+ s.drop position := ⟨_, hs.symm⟩
      have hinfix := (hrun.trans hsuffix.isInfix).trans (List.drop_suffix ..).isInfix
      exact absurd (hruns run hinfix hall) (Nat.not_le.mpr hlong)

/-- At any position of a text without overlong numerals: nothing is read exactly where no opener
stands; what is read is the meaning of the slice, which is a placeholder as it is written; and
otherwise reading stops with a fault between the end of the opener and that of the text. -/
theorem readAt?_sound (s : Text) (position : Nat)
    (hruns : ∀ run, run <:+: s → run.all isDecimal = true → run.length ≤ numeralLimit) :
    (readAt? s position = none ↔
      ¬ ∃ o : Opener, o.WellFormed ∧ o.render <+: s.drop position) ∧
    (∀ p finish, readAt? s position = some (.ok (p, finish)) →
      ∃ w : Written, w.formats.length ≤ 1 ∧ w.placeholder = p ∧
        (s.take finish).drop position = w.render ∧ position < finish ∧ finish ≤ s.length) ∧
    (∀ problem, readAt? s position = some (.error problem) →
      ∃ (o : Opener) (cause : Fault) (place : Nat), o.WellFormed ∧
        o.render <+: s.drop position ∧ problem = .fault cause place ∧
        position + o.render.length ≤ place ∧ place ≤ s.length) := by
  refine ⟨?_, fun p finish h => exists_slice h, fun problem h => exists_place hruns h⟩
  rw [readAt?, Option.map_eq_none_iff, read?_eq_none]

/-- In a text this short no numeral is too long. -/
theorem readAt?_listed_files :
    (∀ run, run <:+: "echo $\x7bfiles | list\x7d".toList → run.all isDecimal = true →
      run.length ≤ numeralLimit) ∧
    ∃ w : Written, w.formats.length ≤ 1 ∧
      w.placeholder = { target := .argument, name := "files", takesAll := true } ∧
      w.render = "$\x7bfiles | list\x7d".toList := by
  have hruns : ∀ run, run <:+: "echo $\x7bfiles | list\x7d".toList → run.all isDecimal = true →
      run.length ≤ numeralLimit := by
    intro run hrun _
    exact Nat.le_trans hrun.length_le (by decide)
  have hread : readAt? "echo $\x7bfiles | list\x7d" 5 =
      some (.ok ({ target := .argument, name := "files", takesAll := true }, 20)) := by
    decide +kernel
  obtain ⟨w, hone, hw, hrender, -⟩ := (readAt?_sound _ 5 hruns).2.1 _ _ hread
  exact ⟨hruns, w, hone, hw, hrender.symm⟩

end Runbook.Placeholder
