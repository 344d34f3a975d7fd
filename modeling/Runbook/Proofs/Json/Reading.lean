import Mathlib.Tactic.Common
import Runbook.Json.Reader
import Runbook.Proofs.Text.Numeral
import Runbook.Proofs.Text.Parts

/-! Reading JSON goes on from the front of a text to its end, and a numeral that is too long stands
in the text. A blank text is not read. -/
namespace Runbook.Json
open Text

/-- A numeral that is too long is a run of digits in the text. -/
def Stop.Within (s : Text) : Stop → Prop
  | .longNumeral _ => LongRun s
  | _ => True

lemma Stop.Within.of_suffix {s t : Text} {e : Stop} (h : e.Within s) (hst : s <:+ t) :
    e.Within t := by
  cases e with
  | longNumeral digits => exact LongRun.of_part h hst.isInfix
  | _ => trivial

/-- What a reader gives for a text: something with an end of the text left, or a stop within it. -/
def Sound {α : Type} {s : Text} (result : Except Stop (Taken α s)) : Prop :=
  match result with
  | .ok x => x.rest <:+ s
  | .error e => e.Within s

section Sound
variable {α β : Type} {s t : Text}

lemma Sound.map {result : Except Stop (Taken α s)} {f : Taken α s → Taken β t} (h : Sound result)
    (hst : s <:+ t) (hf : ∀ x, (f x).rest = x.rest) : Sound (result.map f) := by
  cases result with
  | error e => exact Stop.Within.of_suffix h hst
  | ok x =>
    change (f x).rest <:+ t
    rw [hf x]
    exact List.IsSuffix.trans h hst

lemma Sound.widen {result : Except Stop (Taken α s)} (h : Sound result) (hst : s <:+ t)
    (hle : s.length ≤ t.length) : Sound (result.map (·.widen hle)) := h.map hst fun _ => rfl

lemma suffix_skipSpace (s : Text) : skipSpace s <:+ s := s.dropWhile_suffix isSpace

/-- What stands after white space is an end of the text. -/
lemma suffix_of_skipSpace {c : Char} {r : Text} (h : skipSpace s = c :: r) : r <:+ s :=
  ((List.suffix_cons c r).trans (h ▸ List.suffix_refl _)).trans (suffix_skipSpace s)

/-! ### Strings -/

lemma suffix_of_unit? {r : Text} {n : Nat} (h : unit? s = some (n, r)) : r <:+ s := by
  unfold unit? at h
  split at h
  · next a b c d e rest =>
    obtain ⟨_, -, heq⟩ := Option.map_eq_some_iff.mp h
    obtain ⟨-, rfl⟩ := Prod.mk.inj heq
    exact List.suffix_append [a, b, c, d] (e :: rest)
  · cases h

lemma suffix_of_lowUnit? {r : Text} {n : Nat} (h : lowUnit? s = .ok (some (n, r))) : r <:+ s := by
  unfold lowUnit? at h
  split at h
  · next a b c d e rest =>
    split at h
    · cases h
    · have hsome := Except.ok.inj h
      split at hsome
      · obtain ⟨-, rfl⟩ := Prod.mk.inj (Option.some.inj hsome)
        exact List.suffix_append ['\\', 'u', a, b, c, d] (e :: rest)
      · cases hsome
  · cases h

lemma within_of_lowUnit? {e : Stop} (h : lowUnit? s = .error e) : e.Within t := by
  unfold lowUnit? at h
  split at h
  · split at h
    · obtain rfl := Except.error.inj h
      trivial
    · cases h
  · cases h

lemma readString_sound (start content s : Text) : Sound (readString start content s) := by
  fun_induction readString start content s with
  | case1 => trivial
  | case2 content rest => exact List.suffix_cons _ rest
  | case3 => trivial
  | case4 => trivial
  | case5 content r u rest hu hr hlead e he => exact within_of_lowUnit? he
  | case6 content r u rest hu hr hlead v rest' hv hr' c ih =>
    have hrest : rest' <:+ r := (suffix_of_lowUnit? hv).trans (suffix_of_unit? hu)
    exact ih.widen (hrest.trans (List.suffix_append ['\\', 'u'] r)) _
  | case7 content r u rest hu hr hlead hlow ih =>
    exact ih.widen ((suffix_of_unit? hu).trans (List.suffix_append ['\\', 'u'] r)) _
  | case8 content r u rest hu hr hlead ih =>
    exact ih.widen ((suffix_of_unit? hu).trans (List.suffix_append ['\\', 'u'] r)) _
  | case9 => trivial
  | case10 content c r hc d hd ih => exact ih.widen (List.suffix_append ['\\', c] r) _
  | case11 => trivial
  | case12 content c r _ _ _ _ _ ih => exact ih.widen (List.suffix_cons c r) _

/-! ### Numbers -/

lemma suffix_fraction (s : Text) : (fraction s).2 <:+ s := by
  unfold fraction
  split
  · next r =>
    split
    · exact List.suffix_refl _
    · exact (r.dropWhile_suffix Char.isDigit).trans (List.suffix_cons '.' r)
  · exact List.suffix_refl _

lemma suffix_sign (s : Text) : (sign s).2 <:+ s := by
  unfold sign
  split
  · exact List.suffix_cons ..
  · exact List.suffix_cons ..
  · exact List.suffix_refl _

lemma suffix_power (s : Text) : (power s).2 <:+ s := by
  unfold power
  split
  · next e r =>
    split
    · exact ((List.dropWhile_suffix _).trans (suffix_sign r)).trans (List.suffix_cons e r)
    · exact List.suffix_refl _
  · exact List.suffix_refl _

lemma suffix_afterWhole (c : Char) (r : Text) : afterWhole c r <:+ r := by
  unfold afterWhole
  split
  · exact List.suffix_refl _
  · exact List.dropWhile_suffix _

lemma longRun_of_readNumeral {whole : Text} {count : Nat} (hall : whole.all Char.isDigit = true)
    (h : readNumeral whole = .error count) : LongRun whole := by
  unfold readNumeral at h
  split at h
  · cases h
  · next hlong =>
    refine ⟨whole, List.infix_refl whole, all_mono (fun c hc => ?_) hall, Nat.lt_of_not_le hlong⟩
    rw [isDecimal, decimalValue?_of_isDigit hc]
    rfl

lemma readNumber_sound (negative : Bool) (start s : Text) :
    Sound (readNumber negative start s) := by
  unfold readNumber
  split
  · trivial
  · next c r =>
    split
    · next hc =>
      dsimp only
      have hrest : (power (fraction (afterWhole c r)).2).2 <:+ c :: r :=
        (((suffix_power _).trans (suffix_fraction _)).trans (suffix_afterWhole c r)).trans
          (List.suffix_cons c r)
      split
      · split
        · exact hrest
        · next count hcount =>
          -- A single zero is not too long.
          split at hcount
          · cases hcount
          · have hall : (c :: digits r).all Char.isDigit = true := by
              rw [List.all_cons, hc, digits, List.all_takeWhile]
              rfl
            have hin : c :: digits r <:+: c :: r :=
              (List.cons_prefix_cons.mpr ⟨rfl, List.takeWhile_prefix _⟩).isInfix
            exact (longRun_of_readNumeral hall hcount).of_part hin
      · exact hrest
    · trivial

lemma named?_suffix {x : Taken Value s} (h : named? s = some x) : x.rest <:+ s := by
  have hword {w : Text} {v : Value} {hw : w ≠ []} {x : Taken Value s}
      (h : word? w v hw s = some x) : x.rest <:+ s := by
    unfold word? at h
    split at h
    · next rest hrest =>
      obtain rfl := Option.some.inj h
      exact ⟨w, (dropStart?_eq_some_iff.mp hrest).symm⟩
    · cases h
  simp only [named?, Option.orElse_eq_orElse, Option.orElse_eq_or, Option.or_eq_some_iff] at h
  rcases h with h | ⟨-, h | ⟨-, h | ⟨-, h | ⟨-, h | ⟨-, h⟩⟩⟩⟩⟩ <;> exact hword h

/-! ### Values -/

/-- One value, where members and items of shorter texts are read soundly. -/
lemma readValue_step {room : Nat} {s : Text}
    (hmembers : ∀ t : Text, t.length < s.length → Sound (readMembers (room - 1) [] t))
    (hitems : ∀ t : Text, t.length < s.length → Sound (readItems (room - 1) [] t)) :
    Sound (readValue room s) := by
  have hshorter (c : Char) (r : Text) : (skipSpace r).length < (c :: r).length :=
    Nat.lt_succ_of_le (length_skipSpace_le r)
  have hinside (c : Char) (r : Text) : skipSpace r <:+ c :: r :=
    (suffix_skipSpace r).trans (List.suffix_cons c r)
  unfold readValue
  split
  · trivial
  · next r => exact (readString_sound _ _ r).map (List.suffix_cons _ r) fun _ => rfl
  · next r =>
    split
    · trivial
    · dsimp only
      split
      · next rest h => exact (suffix_of_skipSpace h).trans (List.suffix_cons _ r)
      · exact (hmembers _ (hshorter _ r)).widen (hinside _ r) _
  · next r =>
    split
    · trivial
    · dsimp only
      split
      · next rest h => exact (suffix_of_skipSpace h).trans (List.suffix_cons _ r)
      · exact (hitems _ (hshorter _ r)).widen (hinside _ r) _
  · next c r _ _ _ =>
    split
    · next x h => exact named?_suffix h
    · split
      · exact (readNumber_sound _ _ r).widen (List.suffix_cons c r) _
      · exact readNumber_sound _ _ _

/-- Members, where values and members of shorter texts are read soundly. -/
lemma readMembers_step {room : Nat} {members : List (Text × Value)} {s : Text}
    (hvalue : ∀ t : Text, t.length < s.length → Sound (readValue room t))
    (hmembers : ∀ t : Text, t.length < s.length → ∀ members, Sound (readMembers room members t)) :
    Sound (readMembers room members s) := by
  unfold readMembers
  split
  · next r =>
    have hname := readString_sound ('"' :: r) [] r
    split
    · next e he =>
      rw [he] at hname
      exact hname.of_suffix (List.suffix_cons _ r)
    · next name hok =>
      rw [hok] at hname
      have hlt {t : Text} (ht : t <:+ r) : t.length < ('"' :: r).length :=
        Nat.lt_succ_of_le ht.length_le
      dsimp only
      split
      · next t ht =>
        have hst : skipSpace t <:+ r :=
          ((suffix_skipSpace t).trans (suffix_of_skipSpace ht)).trans hname
        have hv := hvalue _ (hlt hst)
        split
        · next e he =>
          rw [he] at hv
          exact hv.of_suffix (hst.trans (List.suffix_cons _ r))
        · next v hok =>
          rw [hok] at hv
          have hvr : v.rest <:+ r := List.IsSuffix.trans hv hst
          split
          · next rest hrest =>
            exact ((suffix_of_skipSpace hrest).trans hvr).trans (List.suffix_cons _ r)
          · next u hu =>
            have hur : skipSpace u <:+ r :=
              ((suffix_skipSpace u).trans (suffix_of_skipSpace hu)).trans hvr
            exact (hmembers _ (hlt hur) _).widen (hur.trans (List.suffix_cons _ r)) _
          · trivial
      · trivial
  · trivial

/-- Items, where values are read soundly, and items of shorter texts. -/
lemma readItems_step {room : Nat} {items : List Value} {s : Text}
    (hvalue : Sound (readValue room s))
    (hitems : ∀ t : Text, t.length < s.length → ∀ items, Sound (readItems room items t)) :
    Sound (readItems room items s) := by
  unfold readItems
  split
  · next e he =>
    rw [he] at hvalue
    exact hvalue
  · next v hok =>
    rw [hok] at hvalue
    have hlt := v.shorter
    dsimp only
    split
    · next rest hrest => exact (suffix_of_skipSpace hrest).trans hvalue
    · next t ht =>
      have htv : skipSpace t <:+ v.rest := (suffix_skipSpace t).trans (suffix_of_skipSpace ht)
      exact (hitems _ (Nat.lt_of_le_of_lt htv.length_le hlt) _).widen (htv.trans hvalue) _
    · trivial

/-- Values, members and items are read soundly, by induction on the length of the text. -/
theorem reads_sound (s : Text) :
    (∀ room, Sound (readValue room s)) ∧ (∀ room members, Sound (readMembers room members s)) ∧
      ∀ room items, Sound (readItems room items s) := by
  induction hn : s.length using Nat.strong_induction_on generalizing s with
  | _ n ih =>
    subst hn
    have hvalue (room : Nat) : Sound (readValue room s) :=
      readValue_step (fun t ht => (ih _ ht t rfl).2.1 _ _) fun t ht => (ih _ ht t rfl).2.2 _ _
    exact ⟨hvalue,
      fun room members => readMembers_step (fun t ht => (ih _ ht t rfl).1 room)
        fun t ht => (ih _ ht t rfl).2.1 room,
      fun room items => readItems_step (hvalue room) fun t ht => (ih _ ht t rfl).2.2 room⟩

end Sound

/-- A numeral that is too long to be read is a run of digits in the document. -/
theorem longRun_of_parse {s : Text} {digits : Nat} (h : parse s = .error (.longNumeral digits)) :
    LongRun s := by
  unfold parse at h
  split at h
  · cases h
  · have hvalue := (reads_sound (skipSpace s)).1 depthLimit
    split at h
    · next e he =>
      rw [he] at hvalue
      cases e with
      | longNumeral count => exact LongRun.of_part hvalue (suffix_skipSpace s).isInfix
      | _ => cases h
    · dsimp only at h
      split at h
      · cases h
      · cases h

/-- A document that is one numeral with too many digits is not read. -/
lemma parse_long {v : Text} (hv : v.all Char.isDigit = true) (hlong : numeralLimit ≤ v.length) :
    parse ('1' :: v ++ ['\n']) = .error (.longNumeral (v.length + 1)) := by
  have hclear : Clear Char.isDigit ['\n'] := clear_cons.mpr rfl
  have hdigits : digits (v ++ ['\n']) = v := takeWhile_append_clear hv hclear
  have hwhole : afterWhole '1' (v ++ ['\n']) = ['\n'] := dropWhile_append_clear hv hclear
  have hfraction : fraction ['\n'] = ([], ['\n']) := rfl
  have hpower : power ['\n'] = (none, ['\n']) := rfl
  have hnumeral : readNumeral ('1' :: v) = .error (v.length + 1) :=
    if_neg (Nat.not_le_of_lt (Nat.lt_succ_of_le hlong))
  have hnumber (start : Text) :
      readNumber false start ('1' :: (v ++ ['\n'])) = .error (.longNumeral (v.length + 1)) := by
    simp [readNumber, hwhole, hdigits, hnumeral, hfraction, hpower]
  have hnamed : named? ('1' :: (v ++ ['\n'])) = none := rfl
  have hvalue : readValue depthLimit ('1' :: (v ++ ['\n'])) =
      .error (.longNumeral (v.length + 1)) := by
    rw [readValue, hnamed]
    · exact hnumber ('1' :: (v ++ ['\n']))
    all_goals simp
  unfold parse
  split
  · next h => cases h
  · split
    · next e he =>
      cases he.symm.trans hvalue
      rfl
    · next x hx => cases hx.symm.trans hvalue

/-! ### Blank documents -/

lemma word?_blank {c : Char} (hc : isBlank c = true) {w : Text} {hw : w ≠ []}
    (hfront : w.head?.all isBlank = false) (v : Value) (r : Text) :
    word? w v hw (c :: r) = none := by
  obtain ⟨d, w, rfl⟩ := List.exists_cons_of_ne_nil hw
  have hne : d ≠ c := by
    rintro rfl
    cases hfront.symm.trans hc
  have hdrop : dropStart? (d :: w) (c :: r) = none := if_neg hne
  rw [word?]
  split
  · next h => cases h.symm.trans hdrop
  · rfl

/-- No value starts with white space. -/
lemma readValue_blank {c : Char} (hc : isBlank c = true) (room : Nat) (r : Text) :
    readValue room (c :: r) = .error (.fault .valueExpected (c :: r)) := by
  have hne (d : Char) (hd : isBlank d = false) : c ≠ d := by
    rintro rfl
    cases hd.symm.trans hc
  have hdigit : c.isDigit ≠ true := fun h => by
    simpa [hc] using not_isBlank_of (by decide +kernel) h
  have hminus : ¬ (c == '-') = true := by simpa using hne '-' (by decide)
  have hnamed : named? (c :: r) = none := by
    simp (disch := decide) only [named?, word?_blank hc]
    rfl
  rw [readValue, hnamed]
  · dsimp only
    rw [if_neg hminus, readNumber, if_neg hdigit]
  all_goals exact hne _ (by decide)

lemma readValue_ne_ok {s : Text} (hs : s.all isBlank = true) (room : Nat) (x : Taken Value s) :
    readValue room s ≠ .ok x := by
  intro hx
  cases s with
  | nil =>
    rw [readValue] at hx
    cases hx
  | cons c r =>
    have hc : isBlank c = true := List.all_eq_true.mp hs c (List.mem_cons_self ..)
    cases (readValue_blank hc room r).symm.trans hx

/-- A document that is read is not blank. -/
theorem not_isBlankText_of_parse {s : Text} {v : Value} (h : parse s = .ok v) :
    isBlankText s = false := by
  by_contra hs
  have hblank : (skipSpace s).all isBlank = true := by
    have hall : s.all isBlank = true := by simpa [isBlankText] using hs
    exact List.all_eq_true.mpr fun c hc =>
      List.all_eq_true.mp hall c ((suffix_skipSpace s).subset hc)
  unfold parse at h
  split at h
  · cases h
  · split at h
    · cases h
    · next x hx => exact readValue_ne_ok hblank depthLimit x hx

end Runbook.Json
