import Mathlib.Data.List.Chain
import Mathlib.Tactic.Common
import Runbook.Proofs.Placeholder.Notation

/-! The parts of a placeholder are read as what they mean: field numbers and modifiers, each before
any text that can follow it. -/
namespace Runbook.Placeholder
open Text

/-- What can follow a modifier: blanks, then a bar or the closing brace. -/
inductive Follows : Text → Prop
  | bar (r : Text) : Follows ('|' :: r)
  | brace (r : Text) : Follows ('\x7d' :: r)
  | blank {c : Char} {r : Text} (hc : isSpaceOrTab c = true) (h : Follows r) : Follows (c :: r)

lemma follows_append {b r : Text} (hb : b.all isSpaceOrTab = true) (h : Follows r) :
    Follows (b ++ r) := by
  induction b with
  | nil => exact h
  | cons c b ih =>
    obtain ⟨hc, hb⟩ := Bool.and_eq_true_iff.mp hb
    exact .blank hc (ih hb)

lemma follows_links (ls : List Link) {r : Text} (h : Follows r) :
    Follows (Link.renderAll ls ++ r) := by
  cases ls with
  | nil => exact h
  | cons l ls =>
    rw [Link.renderAll_cons, Link.render, Link.lead]
    simp only [List.append_assoc, List.cons_append]
    exact follows_append l.before.blank (.bar _)

lemma eq_space_or_tab {c : Char} (h : isSpaceOrTab c = true) : c = ' ' ∨ c = '\t' := by
  simpa [isSpaceOrTab] using h

/-- The signs of a placeholder are no letters. -/
lemma not_isLetter_sign : ∀ c ∈ [' ', '\t', '|', '\x7d', '+', '"'], isLetter c = false := by
  have signs : [' ', '\t', '|', '\x7d', '+', '"'].all (!isLetter ·) = true := by decide +kernel
  simpa only [List.all_eq_true, Bool.not_eq_true'] using signs

/-- The signs that can follow a modifier are no letters, digits or other signs of one. -/
lemma Follows.clear {r : Text} (h : Follows r) :
    Clear isLetter r ∧ Clear isDigit r ∧ ∀ c ∈ ['+', ',', 'm'], Clear (· == c) r := by
  have signs : [' ', '\t', '|', '\x7d'].all (fun c =>
      !isDigit c && ['+', ',', 'm'].all (c != ·)) = true := by decide
  obtain ⟨c, t, rfl, hc⟩ : ∃ c t, r = c :: t ∧ c ∈ [' ', '\t', '|', '\x7d'] := by
    cases h with
    | bar r => exact ⟨_, r, rfl, by simp⟩
    | brace r => exact ⟨_, r, rfl, by simp⟩
    | @blank c r hc _ =>
      refine ⟨c, r, rfl, ?_⟩
      rcases eq_space_or_tab hc with rfl | rfl <;> simp
  have hsign := List.all_eq_true.mp signs c hc
  simp only [Bool.and_eq_true, Bool.not_eq_true', List.all_eq_true, bne_iff_ne] at hsign
  obtain ⟨hd, hs⟩ := hsign
  have hl := not_isLetter_sign c (List.mem_append_left ['+', '"'] hc)
  refine ⟨clear_cons.mpr hl, clear_cons.mpr hd, fun e he => clear_cons.mpr ?_⟩
  exact beq_eq_false_iff_ne.mpr (hs e he)

lemma clear_decimal {r : Text} (h : Clear isDigit r) : Clear isDecimal r := by
  intro c hc
  have := h c hc
  cases hd : isDecimal c with
  | false => rfl
  | true => rw [isDigit_of_isDecimal hd] at this; cases this

/-- Numbers one after another that do not descend. -/
def ascending : List Nat → Bool
  | a :: b :: l => Nat.ble a b && ascending (b :: l)
  | _ => true

lemma pairwise_of_ascending {l : List Nat} (h : ascending l = true) : l.Pairwise (· ≤ ·) := by
  rw [← List.isChain_iff_pairwise]
  induction l with
  | nil => exact .nil
  | cons a l ih =>
    cases l with
    | nil => exact .singleton a
    | cons b l =>
      obtain ⟨hab, hl⟩ := Bool.and_eq_true_iff.mp h
      exact .cons_cons (Nat.le_of_ble_eq_true hab) (ih hl)

/-- Ten characters from each start on are in none of the ranges, where both ascend: what ends before
one start is left out for the next ones. -/
def apart : List Nat → List (Nat × Nat) → Bool
  | [], _ => true
  | z :: zs, rs =>
    let later := rs.dropWhile fun r => Nat.blt r.2 z
    (later.head?.all fun r => Nat.blt (z + 9) r.1) && apart zs later

lemma lt_or_lt_of_apart {zs : List Nat} {rs : List (Nat × Nat)} (hzs : zs.Pairwise (· ≤ ·))
    (hrs : rs.Pairwise fun r r' => r.1 ≤ r'.1) (h : apart zs rs = true) :
    ∀ z ∈ zs, ∀ r ∈ rs, z + 9 < r.1 ∨ r.2 < z := by
  induction zs generalizing rs with
  | nil => simp
  | cons z zs ih =>
    obtain ⟨hfirst, hzs⟩ := List.pairwise_cons.mp hzs
    rw [apart, Bool.and_eq_true] at h
    obtain ⟨hhead, hlater⟩ := h
    have hlaterRanges := hrs.sublist (List.dropWhile_sublist fun r => Nat.blt r.2 z)
    have hsplit := List.takeWhile_append_dropWhile (p := fun r => Nat.blt r.2 z) (l := rs)
    intro y hy r hr
    rw [← hsplit, List.mem_append] at hr
    rcases hr with hr | hr
    · have hend : r.2 < z := by
        simpa using List.all_eq_true.mp List.all_takeWhile r hr
      have hzy : z ≤ y := by
        rcases List.mem_cons.mp hy with rfl | hy
        · exact Nat.le_refl y
        · exact hfirst y hy
      exact .inr (Nat.lt_of_lt_of_le hend hzy)
    · rcases List.mem_cons.mp hy with rfl | hy
      · left
        cases hl : rs.dropWhile fun r => Nat.blt r.2 y with
        | nil => rw [hl] at hr; cases hr
        | cons r₀ rest =>
          rw [hl] at hr hhead hlaterRanges
          have hstart : y + 9 < r₀.1 := by simpa using hhead
          rcases List.mem_cons.mp hr with rfl | hr
          · exact hstart
          · exact Nat.lt_of_lt_of_le hstart ((List.pairwise_cons.mp hlaterRanges).1 r hr)
      · exact ih hzs hlaterRanges hlater y hy r hr

/-- The decimal digits are no letters. -/
lemma not_isLetter_of_isDecimal {c : Char} (h : isDecimal c = true) : isLetter c = false := by
  have hall : (ascending decimalZeros && ascending (letterRanges.map Prod.fst) &&
      apart decimalZeros letterRanges) = true := by decide +kernel
  simp only [Bool.and_eq_true] at hall
  obtain ⟨⟨hzeros, hranges⟩, hapart⟩ := hall
  have hclear := lt_or_lt_of_apart (pairwise_of_ascending hzeros)
    (List.pairwise_map.mp (pairwise_of_ascending hranges)) hapart
  obtain ⟨z, hz⟩ : ∃ z, decimalZeros.find? (fun z => z ≤ c.toNat && c.toNat ≤ z + 9) = some z := by
    simpa [isDecimal, decimalValue?, Option.isSome_iff_exists] using h
  have hrange := List.find?_some hz
  simp only [Bool.and_eq_true, decide_eq_true_eq] at hrange
  refine List.any_eq_false.mpr fun r hr => ?_
  have := hclear z (List.mem_of_find?_eq_some hz) r hr
  simp only [Bool.and_eq_true, decide_eq_true_eq]
  omega

/-! ### Blanks and numbers -/

lemma skipBlanks_append {b r : Text} (hb : b.all isSpaceOrTab = true) :
    skipBlanks (b ++ r) = skipBlanks r :=
  List.dropWhile_append_of_pos (List.all_eq_true.mp hb)

lemma skipBlanks_clear {r : Text} (h : Clear isSpaceOrTab r) : skipBlanks r = r :=
  dropWhile_clear h

lemma skipBlanks_skipBlanks (s : Text) : skipBlanks (skipBlanks s) = skipBlanks s :=
  skipBlanks_clear (clear_dropWhile _ s)

lemma numerals_last {s r : Text} (hs : s.all isDecimal = true) (hr : Clear isDecimal r)
    (hc : Clear (· == ',') r) : numerals (s ++ r) = ([s], r) := by
  have hdrop := dropWhile_append_clear hs hr
  have htake := takeWhile_append_clear hs hr
  rw [numerals]
  split
  · next d rest h =>
    rw [hdrop] at h
    rw [h, clear_cons] at hc
    cases hc
  · rw [hdrop, htake]

lemma numerals_comma {s r : Text} {d : Char} (hs : s.all isDecimal = true)
    (hd : isDecimal d = true) :
    numerals (s ++ ',' :: d :: r) = (s :: (numerals (d :: r)).1, (numerals (d :: r)).2) := by
  have hclear : Clear isDecimal (',' :: d :: r) := clear_cons.mpr (by decide)
  have hdrop := dropWhile_append_clear hs hclear
  have htake := takeWhile_append_clear hs hclear
  rw [numerals]
  split
  · next d' rest h =>
    rw [hdrop] at h
    obtain ⟨rfl, rfl⟩ : d = d' ∧ r = rest := by simpa using h
    rw [if_pos hd, htake]
  · next h => exact absurd hdrop (h d r)

lemma Numeral.exists_cons (n : Numeral) :
    ∃ d r, n.digits = d :: r ∧ isDecimal d = true := by
  obtain ⟨d, r, h⟩ := List.exists_cons_of_ne_nil n.nonempty
  have hall := n.decimal
  rw [h] at hall
  exact ⟨d, r, h, (Bool.and_eq_true_iff.mp hall).1⟩

lemma Numbers.exists_cons (n : Numbers) : ∃ d r, n.render = d :: r ∧ isDecimal d = true := by
  obtain ⟨d, r, h, hd⟩ := n.first.exists_cons
  exact ⟨d, r ++ _, by rw [Numbers.render, h]; rfl, hd⟩

lemma numerals_render (n : Numbers) {r : Text} (hr : Clear isDecimal r)
    (hc : Clear (· == ',') r) :
    numerals (n.render ++ r) = ((n.first :: n.more).map Numeral.digits, r) := by
  obtain ⟨first, more⟩ := n
  induction more generalizing first with
  | nil => simpa [Numbers.render] using numerals_last first.decimal hr hc
  | cons next more ih =>
    obtain ⟨d, t, ht, hd⟩ := next.exists_cons
    have hnext := ih next
    simp only [Numbers.render, List.flatMap_cons, List.append_assoc, List.cons_append, ht]
      at hnext ⊢
    rw [numerals_comma first.decimal hd, hnext]
    simp [ht]

lemma mapM_readNumber (ns : List Numeral) :
    (ns.map Numeral.digits).mapM readNumber = .ok (ns.map fun n => numeral n.digits) := by
  induction ns with
  | nil => rfl
  | cons n ns ih =>
    have hn : readNumber n.digits = .ok (numeral n.digits) := by
      rw [readNumber, readNumeral, if_pos n.short]
    rw [List.map_cons, List.mapM_cons, hn, ih]
    rfl

lemma readNumbers_render (n : Numbers) {r : Text} (hr : Clear isDecimal r)
    (hc : Clear (· == ',') r) : readNumbers (n.render ++ r) = .ok (n.values, r) := by
  obtain ⟨d, t, ht, hd⟩ := n.exists_cons
  have hsome : ((n.render ++ r).takeWhile isDecimal).isEmpty = false := by
    rw [ht, List.cons_append, List.takeWhile_cons_of_pos hd]
    rfl
  rw [readNumbers, hsome, numerals_render n hr hc, mapM_readNumber]
  rfl

lemma startsWithDigit_render (n : Numbers) (r : Text) :
    startsWithDigit (n.render ++ r) = true := by
  obtain ⟨d, t, ht, hd⟩ := n.exists_cons
  rw [ht]
  exact isDigit_of_isDecimal hd

lemma startsWithDigit_clear {r : Text} (h : Clear isDigit r) : startsWithDigit r = false := by
  cases r with
  | nil => rfl
  | cons c r => exact clear_cons.mp h

/-! ### Modifiers -/

lemma keyword?_append {word r : Text} (h : Clear isLetter r) :
    keyword? word (word ++ r) = some r := by
  have hdrop : dropStart? word (word ++ r) = some r := dropStart?_eq_some_iff.mpr rfl
  rw [keyword?, hdrop]
  cases r with
  | nil => rfl
  | cons c r => simp [clear_cons.mp h]

/-- A text with another first letter does not start with the keyword. -/
lemma keyword?_cons_ne {c d : Char} {word s : Text} (h : c ≠ d) :
    keyword? (c :: word) (d :: s) = none := by
  simp [keyword?, dropStart?, h]

lemma clear_gap {p : Char → Bool} (hs : p ' ' = false) (ht : p '\t' = false) (gap : Blanks)
    {r : Text} (h : Clear p r) : Clear p (gap.text ++ r) := by
  have hgap : Clear p gap.text := by
    intro c hc
    have hb := List.all_eq_true.mp gap.blank c (List.mem_of_mem_head? hc)
    rcases eq_space_or_tab hb with rfl | rfl
    · exact hs
    · exact ht
  exact hgap.append h

lemma clear_numbers {p : Char → Bool} (hp : ∀ d, isDecimal d = true → p d = false) (n : Numbers)
    (r : Text) : Clear p (n.render ++ r) := by
  obtain ⟨d, t, ht, hd⟩ := n.exists_cons
  rw [ht]
  exact clear_cons.mpr (hp d hd)

lemma ne_of_isDecimal {c d : Char} (hc : isDecimal c = false) (hd : isDecimal d = true) :
    (d == c) = false := by
  rw [beq_eq_false_iff_ne]
  rintro rfl
  rw [hc] at hd
  cases hd

lemma isSpaceOrTab_of_isDecimal {d : Char} (h : isDecimal d = true) : isSpaceOrTab d = false := by
  have hs := ne_of_isDecimal (c := ' ') (by decide) h
  have ht := ne_of_isDecimal (c := '\t') (by decide) h
  simp [isSpaceOrTab, hs, ht]

lemma skipBlanks_gap_numbers (gap : Blanks) (n : Numbers) (r : Text) :
    skipBlanks (gap.text ++ (n.render ++ r)) = n.render ++ r := by
  rw [skipBlanks_append gap.blank]
  exact skipBlanks_clear (clear_numbers (fun _ => isSpaceOrTab_of_isDecimal) n r)

lemma dropStart?_sign {r : Text} (h : Clear (· == '+') r) : dropStart? "+h".toList r = none := by
  cases r with
  | nil => rfl
  | cons c r =>
    have hc : '+' ≠ c := fun hc => by simp [← hc] at h
    simp [dropStart?, hc]

lemma Follows.skip {r : Text} (h : Follows r) : Follows (skipBlanks r) := by
  induction h with
  | bar r => exact .bar r
  | brace r => exact .brace r
  | @blank c r hc _ ih =>
    have : skipBlanks (c :: r) = skipBlanks r := List.dropWhile_cons_of_pos hc
    rwa [this]

lemma readModifier_cols (header : Bool) {tail : Text} (hletter : Clear isLetter tail)
    (hplus : Clear (· == '+') tail) :
    readModifier ("cols".toList ++ ((if header then ['+', 'h'] else []) ++ tail)) =
      if startsWithDigit (skipBlanks tail) then
        match readNumbers (skipBlanks tail) with
        | .ok (ns, rest) => .ok (.format (.columns header ns), rest)
        | .error e => .error e
      else .ok (.format (.columns header []), skipBlanks tail) := by
  cases header with
  | false =>
    have hk : keyword? "cols".toList ("cols".toList ++ tail) = some tail := keyword?_append hletter
    have hdrop := dropStart?_sign hplus
    change readModifier ("cols".toList ++ tail) = _
    rw [readModifier, hk]
    simp only [hdrop]
    rfl
  | true =>
    have hsign : Clear isLetter ('+' :: 'h' :: tail) :=
      clear_cons.mpr (not_isLetter_sign _ (by simp))
    have hk : keyword? "cols".toList ("cols".toList ++ '+' :: 'h' :: tail) =
        some ('+' :: 'h' :: tail) := keyword?_append hsign
    have hdrop : dropStart? "+h".toList ('+' :: 'h' :: tail) = some tail :=
      dropStart?_eq_some_iff.mpr rfl
    change readModifier ("cols".toList ++ '+' :: 'h' :: tail) = _
    rw [readModifier, hk]
    simp only [hdrop]
    rfl

lemma readModifier_fields {tail rest : Text} {ns : List Nat} (hletter : Clear isLetter tail)
    (hdigit : startsWithDigit (skipBlanks tail) = true)
    (hread : readNumbers (skipBlanks tail) = .ok (ns, rest)) :
    readModifier ("fields".toList ++ tail) = .ok (.format (.fields ns), rest) := by
  have hk : keyword? "fields".toList ("fields".toList ++ tail) = some tail :=
    keyword?_append hletter
  have hcols : keyword? "cols".toList ("fields".toList ++ tail) = none :=
    keyword?_cons_ne (by decide)
  rw [readModifier, hcols]
  simp only [hk, hdigit, hread, if_true]

lemma readModifier_json {tail : Text} (hletter : Clear isLetter tail) :
    readModifier ("json".toList ++ tail) = .ok (.format .json, tail) := by
  have hk : keyword? "json".toList ("json".toList ++ tail) = some tail := keyword?_append hletter
  have hcols : keyword? "cols".toList ("json".toList ++ tail) = none := keyword?_cons_ne (by decide)
  have hfields : keyword? "fields".toList ("json".toList ++ tail) = none :=
    keyword?_cons_ne (by decide)
  rw [readModifier, hcols]
  simp only [hfields, hk]

lemma quotedWord?_render {word : Text} (h : word.all Char.isAlphanum = true) (r : Text) :
    quotedWord? ('"' :: word ++ '"' :: r) = some (word, r) := by
  have hclear : Clear Char.isAlphanum ('"' :: r) := clear_cons.mpr (by decide)
  rw [List.cons_append, quotedWord?, dropWhile_append_clear h hclear,
    takeWhile_append_clear h hclear]
  rfl

lemma readModifier_filter (gap : Blanks) {word : Text} (h : word.all Char.isAlphanum = true)
    (r : Text) :
    readModifier ("filter".toList ++ (gap.text ++ ('"' :: word ++ '"' :: r))) =
      .ok (.filter word, r) := by
  set tail := gap.text ++ ('"' :: word ++ '"' :: r) with htail
  have hletter : Clear isLetter tail :=
    clear_gap (not_isLetter_sign _ (by simp)) (not_isLetter_sign _ (by simp)) gap
      (clear_cons.mpr (not_isLetter_sign _ (by simp)))
  have hk : keyword? "filter".toList ("filter".toList ++ tail) = some tail :=
    keyword?_append hletter
  have hskip : skipBlanks tail = '"' :: word ++ '"' :: r := by
    rw [htail, skipBlanks_append gap.blank]
    exact skipBlanks_clear (clear_cons.mpr (by decide))
  have hcols : keyword? "cols".toList ("filter".toList ++ tail) = none :=
    keyword?_cons_ne (by decide)
  have hfields : keyword? "fields".toList ("filter".toList ++ tail) = none := rfl
  have hjson : keyword? "json".toList ("filter".toList ++ tail) = none :=
    keyword?_cons_ne (by decide)
  rw [readModifier, hcols]
  simp only [hfields, hjson, hk, hskip, quotedWord?_render h]

lemma readModifier_list {r : Text} (hletter : Clear isLetter r) :
    readModifier ("list".toList ++ r) = .ok (.takeAll, r) := by
  have hk : keyword? "list".toList ("list".toList ++ r) = some r := keyword?_append hletter
  have hcols : keyword? "cols".toList ("list".toList ++ r) = none := keyword?_cons_ne (by decide)
  have hfields : keyword? "fields".toList ("list".toList ++ r) = none :=
    keyword?_cons_ne (by decide)
  have hjson : keyword? "json".toList ("list".toList ++ r) = none := keyword?_cons_ne (by decide)
  have hfilter : keyword? "filter".toList ("list".toList ++ r) = none :=
    keyword?_cons_ne (by decide)
  rw [readModifier, hcols]
  simp only [hfields, hjson, hfilter, hk]

/-- No word before the last two starts with the letter of those. -/
lemma readModifier_m (s : Text) :
    readModifier ('m' :: s) =
      match keyword? "multiple".toList ('m' :: s) with
      | some r => .ok (.multiple, r)
      | none =>
        match keyword? "multi".toList ('m' :: s) with
        | some r => .ok (.multiple, r)
        | none =>
          .error (.fault (.unknownModifier (('m' :: s).takeWhile (!isBlank ·))) ('m' :: s)) := by
  have hcols : keyword? "cols".toList ('m' :: s) = none := keyword?_cons_ne (by decide)
  have hfields : keyword? "fields".toList ('m' :: s) = none := keyword?_cons_ne (by decide)
  have hjson : keyword? "json".toList ('m' :: s) = none := keyword?_cons_ne (by decide)
  have hfilter : keyword? "filter".toList ('m' :: s) = none := keyword?_cons_ne (by decide)
  have hlist : keyword? "list".toList ('m' :: s) = none := keyword?_cons_ne (by decide)
  rw [readModifier, hcols]
  simp only [hfields, hjson, hfilter, hlist]
  cases keyword? "multiple".toList ('m' :: s) with
  | some r => rfl
  | none => cases keyword? "multi".toList ('m' :: s) <;> rfl

lemma readModifier_multiple (long : Bool) {r : Text} (hletter : Clear isLetter r) :
    readModifier ((Phrase.multiple long).render ++ r) = .ok (.multiple, r) := by
  cases long with
  | true =>
    have hk : keyword? "multiple".toList ("multiple".toList ++ r) = some r :=
      keyword?_append hletter
    change readModifier ("multiple".toList ++ r) = _
    rw [show "multiple".toList ++ r = 'm' :: ("ultiple".toList ++ r) from rfl] at hk ⊢
    rw [readModifier_m, hk]
  | false =>
    have hk : keyword? "multi".toList ("multi".toList ++ r) = some r := keyword?_append hletter
    have hlong : keyword? "multiple".toList ("multi".toList ++ r) = none := by
      cases r with
      | nil => rfl
      | cons c r =>
        have hc : 'p' ≠ c := by
          rintro rfl
          have hp : isLetter 'p' = true :=
            List.any_eq_true.mpr ⟨(0x61, 0x7a), .tail _ (.head _), by decide⟩
          cases hp.symm.trans (clear_cons.mp hletter)
        simp [keyword?, dropStart?, hc]
    change readModifier ("multi".toList ++ r) = _
    rw [show "multi".toList ++ r = 'm' :: ("ulti".toList ++ r) from rfl] at hk hlong ⊢
    rw [readModifier_m, hlong, hk]

/-- A modifier is read as what it means; blanks after it may be taken along. -/
theorem readModifier_render (ph : Phrase) {r : Text} (h : Follows r) :
    ∃ r', readModifier (ph.render ++ r) = .ok (ph.modifier, r') ∧
      skipBlanks r' = skipBlanks r := by
  obtain ⟨hletter, hdigit, hsign⟩ := h.clear
  have hcomma : Clear (· == ',') r := hsign ',' (by simp)
  have hdecimal := clear_decimal hdigit
  have hspaces : isLetter ' ' = false ∧ isLetter '\t' = false :=
    ⟨not_isLetter_sign _ (by simp), not_isLetter_sign _ (by simp)⟩
  cases ph with
  | columns header gap n =>
    cases n with
    | none =>
      have hl := clear_gap hspaces.1 hspaces.2 gap hletter
      have hp := clear_gap (p := (· == '+')) (by decide) (by decide) gap (hsign '+' (by simp))
      have hskip : skipBlanks (gap.text ++ r) = skipBlanks r := skipBlanks_append gap.blank
      refine ⟨skipBlanks r, ?_, skipBlanks_skipBlanks r⟩
      have hread := readModifier_cols header hl hp
      rw [hskip, startsWithDigit_clear h.skip.clear.2.1, if_neg Bool.false_ne_true] at hread
      rw [Phrase.render, Phrase.argument, Option.map_none, Option.getD_none, List.append_nil,
        List.append_assoc, List.append_assoc]
      exact hread
    | some n =>
      have hl := clear_gap hspaces.1 hspaces.2 gap
        (clear_numbers (fun _ => not_isLetter_of_isDecimal) n r)
      have hp := clear_gap (p := (· == '+')) (by decide) (by decide) gap
        (clear_numbers (fun _ => ne_of_isDecimal (by decide)) n r)
      refine ⟨r, ?_, rfl⟩
      have hread := readModifier_cols header hl hp
      rw [skipBlanks_gap_numbers, startsWithDigit_render,
        readNumbers_render n hdecimal hcomma, if_pos rfl] at hread
      rw [Phrase.render, Phrase.argument, Option.map_some, Option.getD_some, List.append_assoc,
        List.append_assoc, List.append_assoc]
      exact hread
  | fields gap n =>
    have hl := clear_gap hspaces.1 hspaces.2 gap
      (clear_numbers (fun _ => not_isLetter_of_isDecimal) n r)
    have hskip := skipBlanks_gap_numbers gap n r
    have hread := readNumbers_render n hdecimal hcomma
    refine ⟨r, ?_, rfl⟩
    rw [Phrase.render, Phrase.argument, List.append_assoc, List.append_assoc]
    refine readModifier_fields hl ?_ ?_
    · rw [hskip, startsWithDigit_render]
    · rw [hskip, hread]
  | json => exact ⟨r, readModifier_json hletter, rfl⟩
  | filter gap word latin =>
    refine ⟨r, ?_, rfl⟩
    have hread := readModifier_filter gap latin r
    have harg : (Phrase.filter gap word latin).argument ++ r =
        gap.text ++ ('"' :: word ++ '"' :: r) := by simp [Phrase.argument]
    rw [Phrase.render, List.append_assoc, harg]
    exact hread
  | list => exact ⟨r, readModifier_list hletter, rfl⟩
  | multiple long => exact ⟨r, readModifier_multiple long hletter, rfl⟩

end Runbook.Placeholder
