import Mathlib.Tactic.Common
import Runbook.Proofs.Placeholder.Scanning
import Runbook.Proofs.Text.Numeral
import Runbook.Proofs.Text.Words

/-! One text for each placeholder: the opener, the name, and a pipeline with single spaces around
its bars. Texts of this kind, one after another, are read as the placeholders. -/
namespace Runbook

open Text

def Target.opener : Target → Text
  | input => ['<', '\x7b']
  | argument => ['$', '\x7b']
  | environment name => name ++ ['=', '\x7b']

def Format.positions : Format → List Nat
  | fields ns => ns
  | columns _ ns => ns
  | _ => []

/-- Field numbers with commas between them. -/
def fieldNumbers (ns : List Nat) : Text := joinWith [','] (ns.map ofNat)

/-- The text of a modifier; nothing is written for the format that placeholders start with. -/
def Modifier.render : Modifier → Text
  | format .lines => []
  | format (.fields ns) => "fields" ++ ' ' :: fieldNumbers ns
  | format (.columns header ns) =>
    "cols" ++ (if header then ['+', 'h'] else []) ++ if ns = [] then [] else ' ' :: fieldNumbers ns
  | format .json => "json"
  | filter w => "filter" ++ ' ' :: '"' :: w ++ ['"']
  | takeAll => "list"
  | multiple => "multi"

namespace Placeholder

def modifiers (p : Placeholder) : List Modifier :=
  (if p.format = .lines then [] else [.format p.format]) ++ (p.filter.map .filter).toList ++
    (if p.takesAll then [.takeAll] else []) ++ if p.multiple then [.multiple] else []

def render (p : Placeholder) : Text :=
  p.target.opener ++ p.name ++ p.modifiers.flatMap (fun m => " | ".toList ++ m.render) ++ ['\x7d']

/-- The characters of names. -/
def isPlainChar (c : Char) : Bool := !isBlank c && !([':', '|', '\x7b', '\x7d', '`'].contains c)

/-- The parts of the placeholder can be written. -/
structure Plain (p : Placeholder) : Prop where
  nameChars : p.name.all isPlainChar = true
  environment : ∀ v, p.target = .environment v → v ≠ [] ∧ v.all isAliasChar = true
  fields : p.format ≠ .fields []
  filter : ∀ w ∈ p.filter, w.all Char.isAlphanum = true

/-- What is written can be read as well. -/
structure Readable (p : Placeholder) : Prop extends Plain p where
  named : p.name ≠ []
  short : ∀ n ∈ p.format.positions, (ofNat n).length ≤ numeralLimit

/-! ### The notation -/

def Blanks.space : Blanks := ⟨[' '], rfl⟩

lemma exists_numerals {ns : List Nat} (h : ∀ n ∈ ns, (ofNat n).length ≤ numeralLimit) :
    ∃ ms : List Numeral, ms.map Numeral.digits = ns.map ofNat := by
  induction ns with
  | nil => exact ⟨[], rfl⟩
  | cons n ns ih =>
    obtain ⟨hn, hns⟩ := List.forall_mem_cons.mp h
    obtain ⟨ms, hms⟩ := ih hns
    refine ⟨⟨ofNat n, Nat.toDigits_ne_nil, ofNat_decimal n, hn⟩ :: ms, ?_⟩
    rw [List.map_cons, List.map_cons, hms]

lemma exists_numbers {ns : List Nat} (hne : ns ≠ [])
    (h : ∀ n ∈ ns, (ofNat n).length ≤ numeralLimit) :
    ∃ numbers : Numbers, numbers.render = fieldNumbers ns ∧ numbers.values = ns := by
  obtain ⟨ms, hms⟩ := exists_numerals h
  cases ms with
  | nil => simp [hne] at hms
  | cons m ms =>
    refine ⟨⟨m, ms⟩, ?_, ?_⟩
    · rw [fieldNumbers, ← hms, List.map_cons, joinWith_cons, List.flatMap_map]
      rfl
    · have hvalues : (ns.map ofNat).map numeral = ns := by
        rw [List.map_map]
        exact (List.map_congr_left fun n _ => numeral_ofNat n).trans (List.map_id ns)
      rw [← hms, List.map_map] at hvalues
      exact hvalues

variable {p : Placeholder}

lemma mem_modifiers {m : Modifier} : m ∈ p.modifiers ↔
    (m = .format p.format ∧ p.format ≠ .lines) ∨ (∃ w ∈ p.filter, m = .filter w) ∨
      (m = .takeAll ∧ p.takesAll = true) ∨ (m = .multiple ∧ p.multiple = true) := by
  simp only [modifiers, List.mem_append, Option.mem_toList, Option.mem_def, Option.map_eq_some_iff]
  by_cases hf : p.format = .lines <;> cases p.takesAll <;> cases p.multiple <;>
    simp [hf, eq_comm, or_assoc]

lemma render_columns (header : Bool) {ns : List Nat} (h : ns ≠ []) :
    (Modifier.format (.columns header ns)).render =
      "cols" ++ (if header then ['+', 'h'] else []) ++ ' ' :: fieldNumbers ns :=
  congrArg (_ ++ ·) (if_neg h)

lemma exists_phrase_format {f : Format} (hlines : f ≠ .lines) (hfields : f ≠ .fields [])
    (hshort : ∀ n ∈ f.positions, (ofNat n).length ≤ numeralLimit) :
    ∃ ph : Phrase, ph.render = (Modifier.format f).render ∧ ph.modifier = .format f := by
  cases f with
  | lines => exact absurd rfl hlines
  | fields ns =>
    have hns : ns ≠ [] := fun hnil => hfields (congrArg Format.fields hnil)
    obtain ⟨numbers, hrender, hvalues⟩ := exists_numbers hns hshort
    refine ⟨.fields .space numbers, ?_, ?_⟩
    · rw [Phrase.render, Phrase.argument, hrender]
      rfl
    · rw [Phrase.modifier, hvalues]
  | columns header ns =>
    by_cases hns : ns = []
    · subst hns
      refine ⟨.columns header ⟨[], rfl⟩ none, ?_, rfl⟩
      cases header <;> rfl
    · obtain ⟨numbers, hrender, hvalues⟩ := exists_numbers hns hshort
      refine ⟨.columns header .space (some numbers), ?_, ?_⟩
      · rw [render_columns header hns, Phrase.render, Phrase.argument, Option.map_some,
          Option.getD_some, hrender]
        cases header <;> rfl
      · rw [Phrase.modifier, Option.map_some, Option.getD_some, hvalues]
  | json => exact ⟨.json, rfl, rfl⟩

lemma Readable.exists_phrase (h : p.Readable) {m : Modifier} (hm : m ∈ p.modifiers) :
    ∃ ph : Phrase, ph.render = m.render ∧ ph.modifier = m := by
  rcases mem_modifiers.mp hm with ⟨rfl, hlines⟩ | ⟨w, hw, rfl⟩ | ⟨rfl, -⟩ | ⟨rfl, -⟩
  · exact exists_phrase_format hlines h.fields h.short
  · exact ⟨.filter .space w (h.filter w hw), rfl, rfl⟩
  · exact ⟨.list, rfl, rfl⟩
  · exact ⟨.multiple false, rfl, rfl⟩

lemma exists_links {ms : List Modifier}
    (h : ∀ m ∈ ms, ∃ ph : Phrase, ph.render = m.render ∧ ph.modifier = m) :
    ∃ ls : List Link, Link.renderAll ls = ms.flatMap (fun m => " | ".toList ++ m.render) ∧
      Link.modifiers ls = ms := by
  induction ms with
  | nil => exact ⟨[], rfl, rfl⟩
  | cons m ms ih =>
    obtain ⟨⟨ph, hrender, hmodifier⟩, hms⟩ := List.forall_mem_cons.mp h
    obtain ⟨ls, hlinks, hmodifiers⟩ := ih hms
    refine ⟨⟨.space, .space, ph⟩ :: ls, ?_, ?_⟩
    · rw [Link.renderAll_cons, hlinks, List.flatMap_cons, ← hrender]
      rfl
    · rw [Link.modifiers_cons, hmodifiers, hmodifier]

/-- The modifiers give back the parts that they come from. -/
lemma parts_modifiers (p : Placeholder) :
    p.modifiers.filterMap format? = (if p.format = .lines then [] else [p.format]) ∧
      p.modifiers.filterMap filter? = p.filter.toList ∧
      p.modifiers.any (· = .multiple) = p.multiple ∧
      p.modifiers.any (· = .takeAll) = p.takesAll := by
  obtain ⟨target, name, format, filter, multiple, takesAll⟩ := p
  by_cases hf : format = .lines <;> cases filter <;> cases multiple <;> cases takesAll <;>
    simp [modifiers, hf, format?, filter?, List.filterMap_cons]

/-- The opener that leads to a target. -/
def openerOf : Target → Opener
  | .input => .input
  | .argument => .argument
  | .environment v => .environment v

lemma render_openerOf (t : Target) : (openerOf t).render = t.opener := by
  cases t <;> rfl

lemma isNameChar_of_isPlainChar {c : Char} (h : isPlainChar c = true) : isNameChar c = true := by
  have hspace : c ≠ ' ' := by
    rintro rfl
    exact absurd h (by decide)
  simp_all [isPlainChar, isNameChar]

/-- Characters of a sort are plain if none of the others is of that sort. -/
lemma isPlainChar_of {q : Char → Bool}
    (hq : (inlineBlanks ++ lineBreaks ++ [':', '|', '\x7b', '\x7d', '`']).all (!q ·) = true)
    {c : Char} (h : q c = true) : isPlainChar c = true := by
  have hnot : c ∉ inlineBlanks ++ lineBreaks ++ [':', '|', '\x7b', '\x7d', '`'] := by
    intro hmem
    have := List.all_eq_true.mp hq c hmem
    rw [h] at this
    cases this
  simpa [isPlainChar, isBlank, isLineBreak, not_or, and_assoc] using hnot

lemma target_openerOf {t : Target} (h : ∀ v, t = .environment v → v ≠ [] ∧ v.all isAliasChar = true)
    (name : Text) : (openerOf t).target name = t := by
  cases t with
  | environment v =>
    obtain ⟨hv, hchars⟩ := h v rfl
    have hkeep : variableName v = v := by
      rw [variableName, replaceChar]
      refine (List.map_congr_left fun c hc => ?_).trans (List.map_id v)
      have hne : c ≠ '-' := by
        rintro rfl
        exact absurd (List.all_eq_true.mp hchars _ hc) (by decide)
      simp [hne]
    simp [openerOf, Opener.target, hv, hkeep]
  | _ => rfl

/-- Every placeholder that can be read has a written form, with its canonical text. -/
theorem Readable.exists_written (h : p.Readable) :
    ∃ w : Written, w.render = p.render ∧ w.placeholder = p ∧ w.formats.length ≤ 1 := by
  obtain ⟨ls, hlinks, hmodifiers⟩ := exists_links fun m hm => h.exists_phrase hm
  have hopens : (openerOf p.target).WellFormed := by
    cases ht : p.target with
    | environment v => exact (h.environment v ht).2
    | _ => trivial
  have hname : p.name.all isNameChar = true :=
    all_mono (fun c hc => isNameChar_of_isPlainChar hc) h.nameChars
  have hapart : Clear isNameChar (Link.renderAll ls ++ []) := by
    rw [List.append_nil, hlinks]
    cases p.modifiers with
    | nil => exact clear_nil _
    | cons m ms => exact clear_cons.mpr (by decide)
  let w : Written := {
    opener := openerOf p.target, opens := hopens, name := p.name, named := h.named
    nameChars := hname, shorthand := none, links := ls, last := ⟨[], rfl⟩
    apart := fun _ => hapart }
  have hall : w.modifiers = p.modifiers := hmodifiers
  obtain ⟨hformats, hfilters, hmultiple, htakesAll⟩ := parts_modifiers p
  have htarget : w.target = p.target := by
    rw [← w.target_eq]
    exact target_openerOf h.environment p.name
  refine ⟨w, ?_, ?_, ?_⟩
  · rw [Written.render, Written.head, hlinks, render, ← render_openerOf]
    simp [w]
  · rw [Written.placeholder, Written.formats, hall, hformats, hfilters, hmultiple, htakesAll,
      htarget]
    have hformat : (if p.format = .lines then [] else [p.format]).head?.getD .lines = p.format := by
      split
      · next hlines => exact hlines.symm
      · rfl
    have hfilter : p.filter.toList.getLast? = p.filter := by cases p.filter <;> rfl
    rw [hformat, hfilter]
  · rw [Written.formats, hall, hformats]
    split <;> simp

/-! ### The words of the text -/

/-- The characters of words that can stand in code spans and info strings. -/
def isCodeChar (c : Char) : Bool := !isBlank c && c != '`'

lemma isCodeChar_of_isPlainChar {c : Char} (h : isPlainChar c = true) : isCodeChar c = true := by
  simp_all [isPlainChar, isCodeChar]

lemma all_isPlainChar_fieldNumbers (ns : List Nat) : (fieldNumbers ns).all isPlainChar = true := by
  have hdigits (n : Nat) : (ofNat n).all isPlainChar = true := by
    exact all_mono (fun c hc => isPlainChar_of (by decide +kernel) hc) (all_isDigit_ofNat n)
  cases ns with
  | nil => rfl
  | cons n ns =>
    rw [fieldNumbers, List.map_cons, joinWith_cons, List.all_append, hdigits, Bool.true_and,
      List.all_flatMap, List.all_map, List.all_eq_true]
    intro m hm
    have hcomma : isPlainChar ',' = true := by decide +kernel
    exact Bool.and_eq_true_iff.mpr ⟨hcomma, hdigits m⟩

lemma fieldNumbers_ne_nil {ns : List Nat} (h : ns ≠ []) : fieldNumbers ns ≠ [] := by
  obtain ⟨n, ns, rfl⟩ := List.exists_cons_of_ne_nil h
  rw [fieldNumbers, List.map_cons, joinWith_cons]
  exact List.append_ne_nil_of_left_ne_nil Nat.toDigits_ne_nil _

lemma Plain.spaced_modifier (h : p.Plain) {m : Modifier} (hm : m ∈ p.modifiers) :
    Spaced isPlainChar m.render := by
  rcases mem_modifiers.mp hm with ⟨rfl, hlines⟩ | ⟨w, hw, rfl⟩ | ⟨rfl, -⟩ | ⟨rfl, -⟩
  · have hfields := h.fields
    generalize p.format = f at hfields hlines
    cases f with
    | lines => exact absurd rfl hlines
    | fields ns =>
      have hns : ns ≠ [] := fun hnil => hfields (congrArg Format.fields hnil)
      exact .space (by decide) (by decide +kernel)
        (.word (fieldNumbers_ne_nil hns) (all_isPlainChar_fieldNumbers ns))
    | columns header ns =>
      by_cases hns : ns = []
      · subst hns
        cases header <;> exact .word (by decide) (by decide +kernel)
      · rw [render_columns header hns]
        refine .space (by simp) ?_
          (.word (fieldNumbers_ne_nil hns) (all_isPlainChar_fieldNumbers ns))
        cases header <;> decide +kernel
    | json => exact .word (by decide) (by decide +kernel)
  · have hquoted : ('"' :: w).all isPlainChar = true :=
      Bool.and_eq_true_iff.mpr ⟨by decide +kernel,
        all_mono (fun c hc => isPlainChar_of (by decide +kernel) hc) (h.filter w hw)⟩
    have hspaced := Spaced.word (List.cons_ne_nil _ _) hquoted
    exact (Spaced.space (w := "filter") (by decide) (by decide +kernel) hspaced).append
      (by decide +kernel)
  · exact .word (by decide) (by decide +kernel)
  · exact .word (by decide) (by decide +kernel)

lemma all_opener (h : p.Plain) : p.target.opener.all isCodeChar = true := by
  cases ht : p.target with
  | environment v =>
    have hv : v.all isCodeChar = true := all_mono (fun c hc => isCodeChar_of_isPlainChar
      (isPlainChar_of (by decide +kernel) hc)) (h.environment v ht).2
    rw [Target.opener, List.all_append, hv]
    decide +kernel
  | _ => decide +kernel

/-- The text consists of words with single spaces between them. -/
theorem Plain.spaced (h : p.Plain) : Spaced isCodeChar p.render := by
  have hplain {c : Char} : isPlainChar c = true → isCodeChar c = true := isCodeChar_of_isPlainChar
  have hhead : Spaced isCodeChar (p.target.opener ++ p.name) := by
    refine .word ?_ ?_
    · cases p.target <;> simp [Target.opener]
    · rw [List.all_append, all_opener h, all_mono (fun c => hplain) h.nameChars]
      rfl
  have hlinks : ∀ t ∈ p.modifiers.map (fun m => ['|', ' '] ++ m.render), Spaced isCodeChar t := by
    intro t ht
    obtain ⟨m, hm, rfl⟩ := List.mem_map.mp ht
    exact .space (w := ['|']) (by decide) (by decide) ((h.spaced_modifier hm).mono fun c => hplain)
  have hall := (hhead.flatMap hlinks).append (t := ['\x7d']) (by decide)
  rw [List.flatMap_map] at hall
  exact hall

/-! ### Several of them -/

lemma scan_append (h : p.Readable) (r : Text) :
    scan (p.render ++ r) = (scan r).map (p :: ·) := by
  obtain ⟨w, hrender, hplaceholder, hformats⟩ := h.exists_written
  have hread := w.read?_written hformats r
  rw [hrender, hplaceholder] at hread
  exact scan_of_read? hread

/-- Placeholders with a space before each of them are read one after another. -/
theorem scan_flatMap {ps : List Placeholder} (h : ∀ p ∈ ps, p.Readable) :
    scan (ps.flatMap (' ' :: ·.render)) = .ok ps := by
  induction ps with
  | nil => rw [List.flatMap_nil, scan]
  | cons p ps ih =>
    obtain ⟨hp, hps⟩ := List.forall_mem_cons.mp h
    rw [List.flatMap_cons, List.cons_append, scan_space, scan_append hp, ih hps]
    rfl

theorem scan_unwords {ps : List Placeholder} (h : ∀ p ∈ ps, p.Readable) :
    scan (unwords (ps.map render)) = .ok ps := by
  cases ps with
  | nil => rw [List.map_nil, unwords, joinWith, scan]
  | cons p ps =>
    have hscan := scan_flatMap h
    rw [List.flatMap_cons, List.cons_append, scan_space] at hscan
    rw [List.map_cons, unwords_cons, List.flatMap_map]
    exact hscan

/-! ### Numerals that are too long -/

lemma readNumbers_long {d r : Text} (hd : d.all isDecimal = true) (hlong : numeralLimit < d.length)
    (hr : Clear isDecimal r) (hcomma : Clear (· == ',') r) :
    readNumbers (d ++ r) = .error (.longNumeral d.length) := by
  have hne : d.isEmpty = false := by
    cases d with
    | nil => cases hlong
    | cons c d => rfl
  have hnumber : readNumber d = .error (.longNumeral d.length) := by
    rw [readNumber, readNumeral, if_neg (Nat.not_le_of_lt hlong)]
  rw [readNumbers, takeWhile_append_clear hd hr, hne, numerals_last hd hr hcomma, List.mapM_cons,
    hnumber]
  rfl

lemma readModifier_long {d r : Text} (hd : d.all isDecimal = true)
    (hlong : numeralLimit < d.length) :
    readModifier ("fields" ++ ' ' :: (d ++ '\x7d' :: r)) = .error (.longNumeral d.length) := by
  have hletter : Clear isLetter (' ' :: (d ++ '\x7d' :: r)) := clear_cons.mpr (by decide +kernel)
  have hk : keyword? "fields" ("fields" ++ ' ' :: (d ++ '\x7d' :: r)) =
      some (' ' :: (d ++ '\x7d' :: r)) := keyword?_append hletter
  have hcols : keyword? "cols" ("fields" ++ ' ' :: (d ++ '\x7d' :: r)) = none :=
    keyword?_cons_ne (by decide)
  obtain ⟨c, t, rfl⟩ : ∃ c t, d = c :: t := by
    cases d with
    | nil => cases hlong
    | cons c t => exact ⟨c, t, rfl⟩
  have hc : isDecimal c = true := (Bool.and_eq_true_iff.mp hd).1
  have hskip : skipBlanks (' ' :: (c :: t ++ '\x7d' :: r)) = c :: t ++ '\x7d' :: r :=
    skipBlanks_clear (clear_cons.mpr (isSpaceOrTab_of_isDecimal hc))
  have hdigit : startsWithDigit (c :: t ++ '\x7d' :: r) = true := isDigit_of_isDecimal hc
  have hread := readNumbers_long hd hlong (r := '\x7d' :: r) (clear_cons.mpr (by decide +kernel))
    (clear_cons.mpr (by decide))
  rw [readModifier, hcols]
  simp only [hk, hskip, hdigit, hread, if_true]

lemma readPipeline_error {s r : Text} {e : Stop} (h : skipBlanks s = '|' :: r)
    (hm : readModifier (skipBlanks r) = .error e) : readPipeline p s = .error e := by
  rw [readPipeline]
  split
  · next t ht =>
    obtain rfl : r = t := by simpa using h.symm.trans ht
    dsimp only
    split
    · next e' he =>
      rw [hm] at he
      obtain rfl := Except.error.inj he
      rfl
    · next hok =>
      rw [hm] at hok
      cases hok
  · next hs => exact absurd h (hs r)

/-- A placeholder for one field of the lines of another command. -/
def field (n : Nat) : Placeholder := { target := .input, name := "a", format := .fields [n] }

lemma read?_field {n : Nat} (h : numeralLimit < (ofNat n).length) (r : Text) :
    read? ((field n).render ++ r) = some (.error (.longNumeral (ofNat n).length)) := by
  have hmodifier := readModifier_long (r := r) (ofNat_decimal n) h
  set after := "fields" ++ ' ' :: (ofNat n ++ '\x7d' :: r) with hafter
  have htext : (field n).render ++ r = '<' :: '\x7b' :: 'a' :: ' ' :: '|' :: ' ' :: after := by
    have hmodifiers : (field n).modifiers = [.format (.fields [n])] := rfl
    have hfields : (Modifier.format (.fields [n])).render = "fields" ++ ' ' :: ofNat n := rfl
    rw [render, hmodifiers, List.flatMap_cons, List.flatMap_nil, hfields, hafter]
    simp [field, Target.opener]
  have hpipeline : readPipeline { target := .input, name := "a" } (' ' :: '|' :: ' ' :: after) =
      .error (.longNumeral (ofNat n).length) := readPipeline_error rfl hmodifier
  have hname : ('a' :: ' ' :: '|' :: ' ' :: after).takeWhile isNameChar = "a" := rfl
  have hrest : ('a' :: ' ' :: '|' :: ' ' :: after).dropWhile isNameChar =
      ' ' :: '|' :: ' ' :: after := rfl
  have hshorthand : readShorthand? (' ' :: '|' :: ' ' :: after) =
      .ok ([], ' ' :: '|' :: ' ' :: after) := rfl
  have hadd (p : Placeholder) : p.addAll [] = some p := rfl
  have hfirst : ("a" : Text).isEmpty = false := rfl
  have htarget : Opener.input.target "a" = .input := rfl
  rw [htext]
  change some (readBody .input ('a' :: ' ' :: '|' :: ' ' :: after)) = _
  rw [readBody, hname, hrest]
  simp only [hfirst, hshorthand, htarget, hadd, hpipeline, Bool.false_eq_true, if_false]

end Placeholder
end Runbook
