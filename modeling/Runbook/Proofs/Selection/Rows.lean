import Mathlib.Tactic.Common
import Runbook.Proofs.Text.Cut
import Runbook.Selection.Menu

/-! What becomes of the lines of an output. Those that are not blank are the header and the titles
of the candidates, however lines end and whatever blank ones stand among them. -/
namespace Runbook

namespace Text

/-- What ends a line: one character, or a carriage return with a line feed. -/
def IsBreak (b : Text) : Prop := b = ['\r', '\n'] ∨ ∃ c, b = [c] ∧ isLineBreak c = true

/-- A text that consists of lines with breaks behind them. The last line may be without one. -/
inductive LaidOut : Text → List Text → Prop
  | empty : LaidOut [] []
  | last {l : Text} (unbroken : l.all (!isLineBreak ·) = true) : LaidOut l [l]
  | line {l b s : Text} {ls : List Text} (unbroken : l.all (!isLineBreak ·) = true)
      (ends : IsBreak b) (rest : LaidOut s ls) : LaidOut (l ++ (b ++ s)) (l :: ls)

/-- The lines that are not blank. -/
def filled (ls : List Text) : List Text := ls.filter (!isBlankText ·)

variable {c : Char} {s l b : Text} {ls : List Text}

lemma lines_of_unbroken (hne : l ≠ []) (h : l.all (!isLineBreak ·) = true) : lines l = [l] := by
  induction l with
  | nil => exact absurd rfl hne
  | cons c l ih =>
    obtain ⟨hc, hl⟩ := Bool.and_eq_true_iff.mp h
    have hc : isLineBreak c = false := by simpa using hc
    by_cases hnil : l = []
    · subst hnil
      rw [lines, if_neg (by simp [hc])]
      · rfl
      · rintro t rfl
        cases hc
    · exact lines_cons hc (ih hnil hl)

lemma LaidOut.cons (hc : isLineBreak c = false) (h : LaidOut s (l :: ls)) :
    LaidOut (c :: s) ((c :: l) :: ls) := by
  have longer {l : Text} (hl : l.all (!isLineBreak ·) = true) :
      (c :: l).all (!isLineBreak ·) = true := by
    rw [List.all_cons, hc, hl]
    rfl
  cases h with
  | last unbroken => exact .last (longer unbroken)
  | line unbroken ends rest => exact .line (longer unbroken) ends rest

theorem laidOut_lines (s : Text) : LaidOut s (lines s) := by
  induction s using lines.induct with
  | case1 => exact .empty
  | case2 s ih => exact .line (l := []) rfl (.inl rfl) ih
  | case3 c s hpair hc ih =>
    rw [lines_break hc hpair]
    exact .line (l := []) rfl (.inr ⟨c, rfl, hc⟩) ih
  | case4 c s hpair hc hnil ih =>
    have hs : s = [] := by
      by_contra hne
      exact lines_ne_nil hne hnil
    subst hs
    have hall : [c].all (!isLineBreak ·) = true := by simpa using hc
    rw [lines_of_unbroken (List.cons_ne_nil c []) hall]
    exact .last hall
  | case5 c s hpair hc l ls hlines ih =>
    have hc : isLineBreak c = false := by simpa using hc
    rw [lines_cons hc hlines]
    rw [hlines] at ih
    exact ih.cons hc

/-- A line is read up to its break. A carriage return that meets a line feed only takes away the
empty line between the two. -/
lemma exists_lines_line (hl : l.all (!isLineBreak ·) = true) (hb : IsBreak b) (s : Text) :
    ∃ ls, lines (l ++ (b ++ s)) = l :: ls ∧ filled ls = filled (lines s) := by
  have front {t : Text} {ls : List Text} (h : lines t = [] :: ls) :
      lines (l ++ t) = l :: ls := by
    rw [lines_append_front hl h, List.append_nil]
  rcases hb with rfl | ⟨c, rfl, hc⟩
  · exact ⟨lines s, front rfl, rfl⟩
  · by_cases hpair : ∃ r, c = '\r' ∧ s = '\n' :: r
    · obtain ⟨r, rfl, rfl⟩ := hpair
      exact ⟨lines r, front rfl, rfl⟩
    · exact ⟨lines s, front (lines_break hc fun r hr hs => hpair ⟨r, hr, hs⟩), rfl⟩

lemma filled_cons {read : List Text} (h : filled read = filled ls) :
    filled (l :: read) = filled (l :: ls) := by
  unfold filled at *
  rw [List.filter_cons, List.filter_cons, h]

/-- Lines that are not blank are read as they are written. -/
theorem LaidOut.filled_lines (h : LaidOut s ls) : filled (lines s) = filled ls := by
  induction h with
  | empty => rfl
  | @last l unbroken =>
    by_cases hnil : l = []
    · subst hnil
      rfl
    · rw [lines_of_unbroken hnil unbroken]
  | @line l b s ls unbroken ends rest ih =>
    obtain ⟨read, hread, hfilled⟩ := exists_lines_line unbroken ends s
    rw [hread, filled_cons (hfilled.trans ih)]

end Text

namespace Menu
open Text

/-- The candidate that a format makes of a line. -/
def entry : Format → Text → Candidate
  | .fields positions, l => ⟨l, pick (words l) positions⟩
  | .columns _ (n :: positions), l => ⟨l, pick (columns none (trim l)) (n :: positions)⟩
  | _, l => .plain l

/-- A format that takes the first line for a header. -/
def headed : Format → Bool
  | .columns header _ => header
  | _ => false

variable {format : Format}

/-- The menu of a format that goes by lines. -/
lemma ofOutput_eq (h : format ≠ .json) (output : Text) :
    ofOutput format output = .ok
      ⟨((rows output).drop (if headed format then 1 else 0)).map (entry format),
        if headed format then (rows output).head? else none⟩ := by
  match format with
  | .json => exact absurd rfl h
  | .lines => rfl
  | .fields positions => rfl
  | .columns true [] => rfl
  | .columns true (n :: positions) => rfl
  | .columns false [] => rfl
  | .columns false (n :: positions) => rfl

@[simp] lemma entry_title (format : Format) (l : Text) : (entry format l).title = l := by
  unfold entry
  split <;> rfl

lemma map_title_entry (ls : List Text) :
    (ls.map (entry format)).map Candidate.title = ls := by
  rw [List.map_map]
  exact (List.map_congr_left fun l _ => entry_title format l).trans (List.map_id ls)

lemma headed_iff : headed format = true ↔ ∃ positions, format = .columns true positions := by
  cases format <;> simp [headed]

lemma rows_laidOut {s : Text} {ls : List Text} (h : LaidOut s ls) : rows s = filled ls :=
  h.filled_lines

lemma mem_rows {output l : Text} :
    l ∈ rows output ↔ l ∈ lines output ∧ isBlankText l = false := by
  rw [rows, List.mem_filter, Bool.not_eq_true']

lemma rows_ne_nil_iff {output : Text} :
    rows output ≠ [] ↔ ∃ l ∈ lines output, isBlankText l = false := by
  constructor
  · intro hne
    obtain ⟨l, hl⟩ := List.exists_mem_of_ne_nil _ hne
    exact ⟨l, mem_rows.mp hl⟩
  · rintro ⟨l, hl⟩
    exact List.ne_nil_of_mem (mem_rows.mpr hl)

/-- The parts at those positions that have one. -/
lemma pick_eq (parts : List Text) (positions : List Nat) :
    pick parts positions = unwords ((positions.filter fun n => 0 < n ∧ n ≤ parts.length).map
      fun n => parts.getD (n - 1) []) := by
  rw [pick, ← List.filterMap_eq_map, List.filterMap_filter]
  congr 2
  funext n
  cases n with
  | zero => rfl
  | succ n =>
    by_cases hn : n < parts.length
    · simp [hn, Nat.succ_le_of_lt hn]
    · have hlength : ¬ n + 1 ≤ parts.length := hn
      simp [hlength, List.getElem?_eq_none (Nat.le_of_not_lt hn)]

/-- Nothing is lost of an output but its blank lines: the others are the header, if the format has
one, and the titles of the candidates, in order. Breaks and blank lines have no part in the menu,
and of fields the value has the words at the positions that there are. -/
theorem ofOutput_conserves (h : format ≠ .json) (output : Text) :
    ∃ menu, ofOutput format output = .ok menu ∧
      menu.header.toList ++ menu.candidates.map Candidate.title = filled (lines output) ∧
      (menu.header.isSome = true ↔ (∃ positions, format = .columns true positions) ∧
        ∃ l ∈ lines output, isBlankText l = false) ∧
      LaidOut output (lines output) ∧
      (∀ ls other ls', LaidOut output ls → LaidOut other ls' → filled ls = filled ls' →
        ofOutput format other = .ok menu) ∧
      ∀ positions, format = .fields positions → ∀ x ∈ menu.candidates,
        Cut IsWord IsGap (trim x.title) (words x.title) ∧
        x.value = unwords
          ((positions.filter fun n => 0 < n ∧ n ≤ (words x.title).length).map
            fun n => (words x.title).getD (n - 1) []) := by
  refine ⟨_, ofOutput_eq h output, ?_, ?_, laidOut_lines output, ?_, ?_⟩
  · dsimp only
    rw [map_title_entry]
    change _ = rows output
    cases headed format with
    | true => cases rows output <;> rfl
    | false => rfl
  · dsimp only
    rw [← headed_iff, ← rows_ne_nil_iff, ← List.isSome_head?]
    cases headed format <;> simp
  · intro ls other ls' hls hls' hsame
    have hrows : rows other = rows output := by rw [rows_laidOut hls, rows_laidOut hls', hsame]
    rw [ofOutput_eq h, hrows]
  · rintro positions rfl x hx
    obtain ⟨l, hl, rfl⟩ := List.mem_map.mp hx
    exact ⟨cut_words (mem_rows.mp hl).2, pick_eq (words l) positions⟩

theorem ofOutput_conserves_table : ∃ menu,
    ofOutput (.columns true [2]) "NAME  STATUS\n\nweb   up\r\n \x0bdb    down".toList = .ok menu ∧
      menu.header.toList ++ menu.candidates.map Candidate.title =
        (["NAME  STATUS", "web   up", "db    down"] : List Text) := by
  have hformat : Format.columns true [2] ≠ .json := Format.noConfusion
  obtain ⟨menu, hmenu, htitles, -⟩ :=
    ofOutput_conserves hformat "NAME  STATUS\n\nweb   up\r\n \x0bdb    down"
  exact ⟨menu, hmenu, htitles.trans (by decide)⟩

end Menu
end Runbook
