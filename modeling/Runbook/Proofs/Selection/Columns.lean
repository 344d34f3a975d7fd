import Mathlib.Data.List.Infix
import Mathlib.Tactic.Common
import Runbook.Proofs.Selection.Rows

/-! The columns of a line. They are its pieces between separators, unless a space and a tab stand
side by side: there the line is cut between the two, and a piece comes out that is no column. -/
namespace Runbook.Menu
open Text

/-- Spaces and tabs that separate columns: there is a tab among them, or they are two or more. -/
structure IsSeparator (gap : Text) : Prop where
  blank : gap.all isSpaceOrTab = true
  wide : '\t' ∈ gap ∨ 2 ≤ gap.length

/-- A piece of a line between separators. -/
structure IsColumn (w : Text) : Prop where
  nonempty : w ≠ []
  front : Clear isSpaceOrTab w
  back : Clear isSpaceOrTab w.reverse
  whole : ∀ gap, gap <:+: w → ¬ IsSeparator gap

/-- A line that is cut into its columns. -/
abbrev Table : Text → List Text → Prop := Cut IsColumn IsSeparator

/-- A space and a tab stand side by side. -/
def Mixed (s : Text) : Prop := [' ', '\t'] <:+: s ∨ ['\t', ' '] <:+: s

/-- Nothing, or a text with a space or a tab at one of its ends. -/
def Ragged (w : Text) : Prop :=
  w = [] ∨ ¬ Clear isSpaceOrTab w ∨ ¬ Clear isSpaceOrTab w.reverse

variable {s t w gap : Text} {ws cols : List Text} {inside : Option Char} {c : Char}

lemma Mixed.of_part (h : Mixed s) (hst : s <:+: t) : Mixed t :=
  h.imp (·.trans hst) (·.trans hst)

lemma IsColumn.not_ragged (h : IsColumn w) : ¬ Ragged w := by
  rintro (hnil | hfront | hback)
  · exact h.nonempty hnil
  · exact hfront h.front
  · exact hback h.back

lemma isSeparator_tab : IsSeparator ['\t'] := ⟨rfl, .inl (List.mem_singleton_self _)⟩

lemma isSeparator_spaces : IsSeparator [' ', ' '] := ⟨rfl, .inr (le_refl 2)⟩

lemma not_isSeparator_nil : ¬ IsSeparator [] := fun h => by simpa using h.wide

lemma not_isSeparator_space : ¬ IsSeparator [' '] := fun h => by simpa using h.wide

lemma isSpaceOrTab_iff : isSpaceOrTab c = true ↔ c = ' ' ∨ c = '\t' := by simp [isSpaceOrTab]

/-! ### Every line has columns -/

lemma eq_nil_of_start {p : Char → Bool} (h : s <+: t) (hs : s.all p = true) (ht : Clear p t) :
    s = [] := by
  cases s with
  | nil => rfl
  | cons c s =>
    obtain ⟨r, rfl⟩ := h
    rw [List.all_cons, clear_cons.mp ht] at hs
    cases hs

lemma eq_nil_of_end {p : Char → Bool} (h : s <:+ t) (hs : s.all p = true)
    (ht : Clear p t.reverse) : s = [] := by
  refine List.reverse_eq_nil_iff.mp (eq_nil_of_start (List.reverse_prefix.mpr h) ?_ ht)
  rw [List.all_reverse]
  exact hs

lemma isColumn_of_isRun (h : IsRun (!isSpaceOrTab ·) w) : IsColumn w where
  nonempty := h.1
  front := clear_of_all h.2
  back := clear_of_all (by rw [List.all_reverse]; exact h.2)
  whole gap hgap hseparator := by
    obtain ⟨front, back, rfl⟩ := hgap
    have hall := h.2
    rw [List.all_append, List.all_append, Bool.and_eq_true, Bool.and_eq_true] at hall
    have hnil := eq_nil_of_start List.prefix_rfl hseparator.blank (clear_of_all hall.1.2)
    exact not_isSeparator_nil (hnil ▸ hseparator)

/-- What starts with the one space before a column is no separator. -/
lemma not_isSeparator_of_start (ht : Clear isSpaceOrTab t) (h : gap <+: ' ' :: t) :
    ¬ IsSeparator gap := by
  intro hseparator
  rcases List.prefix_cons_iff.mp h with rfl | ⟨r, rfl, hr⟩
  · exact not_isSeparator_nil hseparator
  · obtain rfl := eq_nil_of_start hr (Bool.and_eq_true_iff.mp hseparator.blank).2 ht
    exact not_isSeparator_space hseparator

/-- Two columns with one space between them are one. -/
lemma IsColumn.space (hs : IsColumn s) (ht : IsColumn t) : IsColumn (s ++ ([' '] ++ t)) where
  nonempty := List.append_ne_nil_of_left_ne_nil hs.nonempty _
  front := hs.front.append_of_ne_nil hs.nonempty _
  back := by
    rw [List.reverse_append, List.reverse_append, List.append_assoc]
    exact ht.back.append_of_ne_nil (by simpa using ht.nonempty) _
  whole gap hgap hseparator := by
    rcases List.infix_append_iff.mp hgap with h | h | ⟨front, back, rfl, hfront, hback⟩
    · exact hs.whole gap h hseparator
    · rcases List.infix_cons_iff.mp h with h | h
      · exact not_isSeparator_of_start ht.front h hseparator
      · exact ht.whole gap h hseparator
    · have hblank := hseparator.blank
      rw [List.all_append, Bool.and_eq_true] at hblank
      obtain rfl := eq_nil_of_end hfront hblank.1 hs.back
      exact not_isSeparator_of_start ht.front hback hseparator

lemma eq_space (h : IsRun isSpaceOrTab gap) (hwide : ¬ ('\t' ∈ gap ∨ 2 ≤ gap.length)) :
    gap = [' '] := by
  obtain ⟨c, rest, rfl⟩ := List.exists_cons_of_ne_nil h.1
  obtain ⟨htab, hlength⟩ := not_or.mp hwide
  have hrest : rest = [] := by
    rw [List.length_cons] at hlength
    exact List.length_eq_zero_iff.mp (by omega)
  subst hrest
  rcases isSpaceOrTab_iff.mp (Bool.and_eq_true_iff.mp h.2).1 with rfl | rfl
  · rfl
  · exact absurd (List.mem_singleton_self _) htab

lemma exists_table_of_cut (h : Cut (IsRun (!isSpaceOrTab ·)) (IsRun isSpaceOrTab) s ws) :
    ∃ w cols, Table s (w :: cols) := by
  induction h with
  | @last w whole => exact ⟨w, [], .last (isColumn_of_isRun whole)⟩
  | @more w gap s ws first between rest ih =>
    obtain ⟨v, cols, htable⟩ := ih
    by_cases hwide : '\t' ∈ gap ∨ 2 ≤ gap.length
    · exact ⟨w, v :: cols, .more (isColumn_of_isRun first) ⟨between.2, hwide⟩ htable⟩
    · obtain rfl := eq_space between hwide
      rw [← List.append_assoc]
      refine ⟨_, cols, htable.front fun u hu => ?_⟩
      rw [List.append_assoc]
      exact (isColumn_of_isRun first).space hu

lemma clear_isSpaceOrTab (h : Clear isBlank s) : Clear isSpaceOrTab s := by
  intro c hc
  by_contra hblank
  have hc := h c hc
  rcases isSpaceOrTab_iff.mp (by simpa using hblank) with rfl | rfl <;> cases hc

/-- A line that is not blank can be cut into columns. -/
theorem exists_table (h : isBlankText s = false) : ∃ cols, Table (trim s) cols := by
  obtain ⟨ws, hcut⟩ := exists_cut (trim_ne_nil h) (clear_isSpaceOrTab (clear_trim s))
    (clear_isSpaceOrTab (clear_reverse_trim s))
  obtain ⟨w, cols, htable⟩ := exists_table_of_cut hcut
  exact ⟨w :: cols, htable⟩

/-! ### The columns of a line are determined -/

lemma eq_nil_of_longer {u r : Text} (h : IsColumn (w ++ u)) (hgap : IsSeparator gap)
    (heq : gap ++ s = u ++ r) : u = [] := by
  rcases List.append_eq_append_iff.mp heq with ⟨v, rfl, -⟩ | ⟨v, rfl, -⟩
  · exact absurd hgap (h.whole gap ⟨w, v, List.append_assoc ..⟩)
  · have hblank := hgap.blank
    rw [List.all_append, Bool.and_eq_true] at hblank
    exact eq_nil_of_end (List.suffix_append w u) hblank.1 h.back

/-- What is in front of a separator is known from the line. -/
lemma column_append_inj {v gap' r : Text} (hw : IsColumn w) (hv : IsColumn v)
    (hgap : IsSeparator gap) (hgap' : IsSeparator gap')
    (heq : w ++ (gap ++ s) = v ++ (gap' ++ r)) : w = v ∧ gap ++ s = gap' ++ r := by
  rcases List.append_eq_append_iff.mp heq with ⟨u, rfl, hu⟩ | ⟨u, rfl, hu⟩
  · obtain rfl := eq_nil_of_longer hv hgap hu
    exact ⟨(List.append_nil w).symm, hu⟩
  · obtain rfl := eq_nil_of_longer hw hgap' hu
    exact ⟨List.append_nil v, hu.symm⟩

lemma clear_table (h : Table s cols) : Clear isSpaceOrTab s :=
  h.clear fun _ hw => ⟨hw.nonempty, hw.front⟩

theorem table_unique {other : List Text} (h : Table s cols) (h' : Table s other) :
    cols = other := by
  induction h generalizing other with
  | last whole =>
    cases h' with
    | last _ => rfl
    | @more v gap s _ _ between _ =>
      exact absurd between (whole.whole gap ⟨v, s, List.append_assoc ..⟩)
  | @more w gap s cols first between rest ih =>
    generalize hline : w ++ (gap ++ s) = line at h'
    cases h' with
    | last whole =>
      exact absurd between (whole.whole gap ⟨w, s, by rw [← hline, List.append_assoc]⟩)
    | @more v gap' r _ first' between' rest' =>
      obtain ⟨rfl, hrest⟩ := column_append_inj first first' between between' hline
      have hr := dropWhile_append_clear between'.blank (clear_table rest')
      rw [← hrest, dropWhile_append_clear between.blank (clear_table rest)] at hr
      rw [ih (hr ▸ rest')]

/-! ### Cutting character by character -/

/-- A separator starts with this character in front of this text. -/
def Opens (c : Char) (s : Text) : Prop := c = '\t' ∨ c = ' ' ∧ s.head? = some ' '

lemma columns_same : columns (some c) (c :: s) = columns (some c) s := if_pos rfl

lemma columns_other (h : inside ≠ some c) : columns inside (c :: s) = columns none (c :: s) := by
  rw [columns, if_neg h, columns, if_neg (nofun : none ≠ some c)]

lemma columns_opens (h : Opens c s) : columns none (c :: s) = [] :: columns (some c) s := by
  rw [columns, if_neg nofun, if_pos (by simpa [Opens] using h)]

lemma columns_cons (h : ¬ Opens c s) (hs : columns none s = w :: ws) :
    columns none (c :: s) = (c :: w) :: ws := by
  rw [columns, if_neg nofun, if_neg (by simpa [Opens] using h), hs]

lemma exists_columns (inside : Option Char) (s : Text) : ∃ w ws, columns inside s = w :: ws := by
  induction s generalizing inside with
  | nil => exact ⟨[], [], rfl⟩
  | cons c s ih =>
    by_cases hsame : inside = some c
    · subst hsame
      rw [columns_same]
      exact ih (some c)
    · rw [columns_other hsame]
      by_cases hopens : Opens c s
      · exact ⟨[], _, columns_opens hopens⟩
      · obtain ⟨w, ws, hs⟩ := ih none
        exact ⟨c :: w, ws, columns_cons hopens hs⟩

/-! ### Lines without a space beside a tab -/

/-- A column in front belongs to the first piece. -/
lemma columns_append (hwhole : ∀ gap, gap <:+: w → ¬ IsSeparator gap)
    (hback : Clear isSpaceOrTab w.reverse) (ht : columns none t = s :: ws) :
    columns none (w ++ t) = (w ++ s) :: ws := by
  induction w with
  | nil => exact ht
  | cons c w ih =>
    have hopens : ¬ Opens c (w ++ t) := by
      rintro (rfl | ⟨rfl, hhead⟩)
      · exact hwhole _ (List.prefix_append ['\t'] w).isInfix isSeparator_tab
      · cases w with
        | nil => cases clear_cons.mp hback
        | cons d w =>
          obtain rfl : d = ' ' := Option.some.inj hhead
          exact hwhole _ (List.prefix_append [' ', ' '] w).isInfix isSeparator_spaces
    rw [List.reverse_cons] at hback
    exact columns_cons hopens (ih (fun gap h => hwhole gap (List.infix_cons h)) hback.of_append)

lemma columns_replicate {n : Nat} (hs : s.head? ≠ some c) :
    columns (some c) (List.replicate n c ++ s) = columns none s := by
  induction n with
  | zero =>
    cases s with
    | nil => rfl
    | cons d s => exact columns_other fun h => hs h.symm
  | succ n ih => rw [List.replicate_succ, List.cons_append, columns_same, ih]

lemma eq_replicate (hc : isSpaceOrTab c = true) (hgap : gap.all isSpaceOrTab = true)
    (h : ¬ Mixed (c :: gap)) : gap = List.replicate gap.length c := by
  induction gap with
  | nil => rfl
  | cons d gap ih =>
    obtain ⟨hd, hgap⟩ := Bool.and_eq_true_iff.mp hgap
    have hdc : d = c := by
      rcases isSpaceOrTab_iff.mp hc with rfl | rfl <;>
        rcases isSpaceOrTab_iff.mp hd with rfl | rfl
      · rfl
      · exact absurd (.inl (List.prefix_append [' ', '\t'] gap).isInfix) h
      · exact absurd (.inr (List.prefix_append ['\t', ' '] gap).isInfix) h
      · rfl
    subst hdc
    rw [List.length_cons, List.replicate_succ, ← ih hgap (mt (·.of_part ⟨[d], [], by simp⟩) h)]

/-- A separator of one sort of blanks ends a piece. -/
lemma columns_separator (hgap : IsSeparator gap) (h : ¬ Mixed gap) (hs : Clear isSpaceOrTab s) :
    columns none (gap ++ s) = [] :: columns none s := by
  cases gap with
  | nil => exact absurd hgap not_isSeparator_nil
  | cons c gap =>
    obtain ⟨hc, hblank⟩ := Bool.and_eq_true_iff.mp hgap.blank
    have hrow := eq_replicate hc hblank h
    have hhead : s.head? ≠ some c := fun hhead => by
      rw [hs c hhead] at hc
      cases hc
    have hopens : Opens c (gap ++ s) := by
      rcases isSpaceOrTab_iff.mp hc with rfl | rfl
      · cases gap with
        | nil => exact absurd hgap not_isSeparator_space
        | cons d gap => exact .inr ⟨rfl, congrArg some (List.cons.inj hrow).1⟩
      · exact .inl rfl
    rw [List.cons_append, columns_opens hopens, hrow, columns_replicate hhead]

theorem columns_eq (h : Table s cols) (hmixed : ¬ Mixed s) : columns none s = cols := by
  induction h with
  | @last w whole => simpa using columns_append whole.whole whole.back (t := []) rfl
  | @more w gap s cols first between rest ih =>
    have hrest : s <:+: w ++ (gap ++ s) :=
      ((List.suffix_append gap s).trans (List.suffix_append w _)).isInfix
    have hgap : gap <:+: w ++ (gap ++ s) := ⟨w, s, List.append_assoc ..⟩
    rw [columns_append first.whole first.back
      (columns_separator between (mt (·.of_part hgap) hmixed) (clear_table rest)),
      List.append_nil, ih (mt (·.of_part hrest) hmixed)]

/-! ### Lines with a space beside a tab -/

/-- From some place in a line on, its pieces are not all columns. The first one counts as a whole
if the line is in the middle of a separator there, and with its end otherwise. -/
inductive Flawed : Option Char → List Text → Prop
  | first {c : Char} {w : Text} {ws : List Text} (ragged : Ragged w) : Flawed (some c) (w :: ws)
  | ending {inside : Option Char} {w : Text} {ws : List Text}
      (ragged : ¬ Clear isSpaceOrTab w.reverse) : Flawed inside (w :: ws)
  | later {inside : Option Char} {v w : Text} {ws : List Text} (mem : v ∈ ws)
      (ragged : Ragged v) : Flawed inside (w :: ws)

lemma Flawed.exists_ragged (h : Flawed inside ws) : ∃ w ∈ ws, Ragged w := by
  cases h with
  | first ragged => exact ⟨_, List.mem_cons_self, ragged⟩
  | ending ragged => exact ⟨_, List.mem_cons_self, .inr (.inr ragged)⟩
  | later mem ragged => exact ⟨_, List.mem_cons_of_mem _ mem, ragged⟩

/-- Where one sort of blanks goes over to the other, a piece starts that is no column. -/
lemma flawed_change {d : Char} (hd : isSpaceOrTab d = true) (hne : c ≠ d) (s : Text) :
    Flawed (some c) (columns (some c) (d :: s)) := by
  rw [columns_other fun h => hne (Option.some.inj h)]
  by_cases hopens : Opens d s
  · rw [columns_opens hopens]
    exact .first (.inl rfl)
  · obtain ⟨w, ws, hs⟩ := exists_columns none s
    rw [columns_cons hopens hs]
    exact .first (.inr (.inl (by simp [hd])))

lemma Flawed.opens (h : Flawed (some c) ws) : Flawed inside ([] :: ws) := by
  obtain ⟨w, hw, hragged⟩ := h.exists_ragged
  exact .later hw hragged

lemma Flawed.cons (h : Flawed none (w :: ws)) : Flawed inside ((c :: w) :: ws) := by
  cases h with
  | ending ragged =>
    refine .ending fun hclear => ragged ?_
    rw [List.reverse_cons] at hclear
    exact hclear.of_append
  | later mem ragged => exact .later mem ragged

/-- Wherever two sorts of blanks meet, the pieces are flawed. -/
lemma flawed_columns {d : Char} (hc : isSpaceOrTab c = true) (hd : isSpaceOrTab d = true)
    (hne : c ≠ d) (front back : Text) (inside : Option Char) :
    Flawed inside (columns inside (front ++ c :: d :: back)) := by
  -- The induction is on what comes before; it needs both states, since a separator may open there.
  induction front generalizing inside with
  | nil =>
    rw [List.nil_append]
    by_cases hsame : inside = some c
    · subst hsame
      rw [columns_same]
      exact flawed_change hd hne back
    · rw [columns_other hsame]
      by_cases hopens : Opens c (d :: back)
      · rw [columns_opens hopens]
        exact (flawed_change hd hne back).opens
      · -- A space alone before tabs ends the first piece.
        obtain ⟨htab, -⟩ := not_or.mp hopens
        have hspace := (isSpaceOrTab_iff.mp hc).resolve_right htab
        have hd := (isSpaceOrTab_iff.mp hd).resolve_left fun h => hne (hspace.trans h.symm)
        rw [columns_cons hopens (columns_opens (.inl hd))]
        exact .ending (by simp [hc])
  | cons e front ih =>
    rw [List.cons_append]
    by_cases hsame : inside = some e
    · subst hsame
      rw [columns_same]
      exact ih (some e)
    · rw [columns_other hsame]
      by_cases hopens : Opens e (front ++ c :: d :: back)
      · rw [columns_opens hopens]
        exact (ih (some e)).opens
      · obtain ⟨w, ws, hs⟩ := exists_columns none (front ++ c :: d :: back)
        have hrest := ih none
        rw [hs] at hrest
        rw [columns_cons hopens hs]
        exact hrest.cons

lemma exists_ragged (h : Mixed s) : ∃ w ∈ columns none s, Ragged w := by
  rcases h with ⟨front, back, rfl⟩ | ⟨front, back, rfl⟩
  all_goals
    rw [List.append_assoc]
    exact (flawed_columns rfl rfl (by decide) front back none).exists_ragged

/-- The pieces are the columns exactly if no space and tab stand side by side. -/
lemma columns_eq_iff (h : Table s cols) : columns none s = cols ↔ ¬ Mixed s := by
  refine ⟨fun heq hmixed => ?_, columns_eq h⟩
  obtain ⟨w, hw, hragged⟩ := exists_ragged hmixed
  rw [heq] at hw
  exact (h.forall_piece w hw).not_ragged hragged

/-- The candidates of a table are its lines, and each of them is cut into columns in one way. Its
value is picked from pieces that are these columns exactly if no space stands beside a tab, and
otherwise one of the pieces is no column. -/
theorem ofOutput_columns (header : Bool) (n : Nat) (positions : List Nat) (output : Text) :
    ∃ menu, ofOutput (.columns header (n :: positions)) output = .ok menu ∧
      menu.candidates.map Candidate.title = (rows output).drop (if header then 1 else 0) ∧
      ∀ x ∈ menu.candidates,
        x.value = pick (columns none (trim x.title)) (n :: positions) ∧
        ∃ cols, Table (trim x.title) cols ∧ (∀ other, Table (trim x.title) other → other = cols) ∧
          (columns none (trim x.title) = cols ↔ ¬ Mixed (trim x.title)) ∧
          (Mixed (trim x.title) → ∃ w ∈ columns none (trim x.title), Ragged w) := by
  refine ⟨_, ofOutput_eq Format.noConfusion output, map_title_entry _, ?_⟩
  intro x hx
  obtain ⟨l, hl, rfl⟩ := List.mem_map.mp hx
  obtain ⟨cols, htable⟩ := exists_table (mem_rows.mp (List.mem_of_mem_drop hl)).2
  exact ⟨rfl, cols, htable, fun other hother => table_unique hother htable, columns_eq_iff htable,
    exists_ragged⟩

theorem ofOutput_columns_mixed :
    ofOutput (.columns false [2]) "a\t  b\n" = .ok ⟨[⟨"a\t  b", []⟩], none⟩ ∧
      Table (trim "a\t  b") ["a", "b"] := by
  refine ⟨rfl, ?_⟩
  have hcolumn {c : Char} (hc : isSpaceOrTab c = false) : IsColumn [c] :=
    isColumn_of_isRun ⟨List.cons_ne_nil c [], by simp [hc]⟩
  have hgap : IsSeparator ['\t', ' ', ' '] := ⟨rfl, .inl List.mem_cons_self⟩
  exact .more (hcolumn rfl) hgap (.last (hcolumn rfl))

end Runbook.Menu
