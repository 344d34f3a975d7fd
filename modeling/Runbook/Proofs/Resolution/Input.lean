import Mathlib.Tactic.Common
import Runbook.Proofs.Resolution.Chain
import Runbook.Proofs.Selection.Rows

/-! Standard input as it is read again. A value that is cut out of a line has no line break in it,
so that the lines of standard input are the values that were selected for it, empty ones among
them. -/
namespace Runbook

namespace Text

lemma hereditary_unbroken : Hereditary fun s => s.all (!isLineBreak ·) = true where
  empty := rfl
  part hpart h := List.all_eq_true.mpr fun c hc => List.all_eq_true.mp h c (hpart.subset hc)
  space hs ht := by
    rw [List.all_append, List.all_cons, hs, ht]
    rfl
  unbroken h := by
    refine List.all_eq_true.mpr fun c hc => ?_
    obtain ⟨d, hd, rfl⟩ := List.mem_map.mp hc
    split
    · rfl
    · exact List.all_eq_true.mp h d hd

lemma LaidOut.unbroken {s : Text} {ls : List Text} (h : LaidOut s ls) :
    ∀ l ∈ ls, l.all (!isLineBreak ·) = true := by
  induction h with
  | empty => exact List.forall_mem_nil _
  | last unbroken => exact List.forall_mem_singleton.mpr unbroken
  | line unbroken _ _ ih => exact List.forall_mem_cons.mpr ⟨unbroken, ih⟩

end Text

/-! ### Values without breaks -/

namespace Menu
open Text

/-- Columns have no characters but those of the line. -/
lemma mem_of_mem_columns {inside : Option Char} {s w : Text} {d : Char}
    (hw : w ∈ columns inside s) (hd : d ∈ w) : d ∈ s := by
  induction s generalizing inside w with
  | nil =>
    rw [columns, List.mem_singleton] at hw
    exact hw ▸ hd
  | cons c s ih =>
    rw [columns] at hw
    split at hw
    · exact List.mem_cons_of_mem c (ih hw hd)
    · split at hw
      · rcases List.mem_cons.mp hw with rfl | hw
        · cases hd
        · exact List.mem_cons_of_mem c (ih hw hd)
      · split at hw
        · rw [List.mem_singleton.mp hw, List.mem_singleton] at hd
          exact hd ▸ List.mem_cons_self
        · next v vs hcolumns =>
          rcases List.mem_cons.mp hw with rfl | hw
          · rcases List.mem_cons.mp hd with rfl | hd
            · exact List.mem_cons_self
            · exact List.mem_cons_of_mem c (ih (hcolumns ▸ List.mem_cons_self) hd)
          · exact List.mem_cons_of_mem c (ih (hcolumns ▸ List.mem_cons_of_mem v hw) hd)

lemma pick_unbroken {parts : List Text} (h : ∀ w ∈ parts, w.all (!isLineBreak ·) = true)
    (positions : List Nat) : (pick parts positions).all (!isLineBreak ·) = true := by
  refine hereditary_unbroken.unwords fun w hw => ?_
  obtain ⟨n, -, hn⟩ := List.mem_filterMap.mp hw
  split at hn
  · cases hn
  · exact h w (List.mem_of_getElem? hn)

/-- Whatever a format that goes by lines takes from a line without breaks has none either. -/
lemma entry_unbroken (format : Format) {l : Text} (h : l.all (!isLineBreak ·) = true) :
    (entry format l).value.all (!isLineBreak ·) = true := by
  unfold entry
  split
  · refine pick_unbroken (fun w hw => ?_) _
    exact hereditary_unbroken.part (infix_of_mem_words hw) h
  · refine pick_unbroken (fun w hw => List.all_eq_true.mpr fun c hc => ?_) _
    exact List.all_eq_true.mp h c ((infix_trim l).subset (mem_of_mem_columns hw hc))
  · exact h

/-- The values that are offered have no line breaks, unless they come from a JSON document. -/
theorem values_unbroken {format : Format} (hformat : format ≠ .json) {output : Text} {menu : Menu}
    (h : ofOutput format output = .ok menu) : ∀ v ∈ menu.values, v.all (!isLineBreak ·) = true := by
  rw [ofOutput_eq hformat] at h
  obtain rfl := Except.ok.inj h
  intro v hv
  obtain ⟨x, hx, rfl⟩ := List.mem_map.mp hv
  obtain ⟨l, hl, rfl⟩ := List.mem_map.mp hx
  have hline := (mem_rows.mp (List.mem_of_mem_drop hl)).1
  exact entry_unbroken format ((laidOut_lines output).unbroken l hline)

end Menu

/-! ### Selected values -/

namespace Resolution

/-- What is chosen in a selection was offered in it. -/
def FromMenu : Exchanged Question → Prop
  | ⟨.selection _ cs, .ok (.chosen values)⟩ => ∀ v ∈ values, v ∈ cs.map Candidate.value
  | _ => True

/-- The values for standard input, among those that were taken for the placeholders of a command. -/
def inputValues (taken : List (Placeholder × List Text)) : List Text :=
  (taken.filter (·.1.target = .input)).flatMap Prod.snd

lemma Taken.offered {options : SelectionOptions} {p : Placeholder} {text : Text}
    {log : List (Exchanged Question)} {values : List Text} (h : Taken options p text log values)
    (honest : ∀ x ∈ log, FromMenu x) :
    ∃ menu, Menu.ofOutput p.format text = .ok menu ∧ ∀ v ∈ values, v ∈ menu.values := by
  cases h with
  | all shaped => exact ⟨_, shaped, fun v hv => hv⟩
  | chosen shaped => exact ⟨_, shaped, honest _ List.mem_cons_self⟩

/-- Every value that was taken for a placeholder was on the menu that its format made. -/
lemma PostOrder.offered {ctx : Context} {wantedBy : Text} {ps : List Placeholder}
    {log : List (Exchanged Question)} {taken : List (Placeholder × List Text)}
    (h : PostOrder ctx wantedBy ps log taken) (honest : ∀ x ∈ log, FromMenu x) :
    ∀ t ∈ taken, t.1 ∈ ps ∧ ∃ text menu, Menu.ofOutput t.1.format text = .ok menu ∧
      ∀ v ∈ t.2, v ∈ menu.values := by
  induction h with
  | nil => exact List.forall_mem_nil _
  | @cons wantedBy text p ps d inputs below asked log values _ taken _ _ _ selected _ _ ih =>
    have hasked : ∀ x ∈ asked, FromMenu x := fun x hx => honest x (by simp [hx])
    have hlog : ∀ x ∈ log, FromMenu x := fun x hx => honest x (by simp [hx])
    obtain ⟨menu, hmenu, hvalues⟩ := selected.offered hasked
    refine List.forall_mem_cons.mpr ⟨⟨List.mem_cons_self, text, menu, hmenu, hvalues⟩, ?_⟩
    intro t ht
    obtain ⟨hps, hoffered⟩ := ih hlog t ht
    exact ⟨List.mem_cons_of_mem p hps, hoffered⟩

lemma inputValues_unbroken {ctx : Context} {wantedBy : Text} {ps : List Placeholder}
    {log : List (Exchanged Question)} {taken : List (Placeholder × List Text)}
    (h : PostOrder ctx wantedBy ps log taken) (honest : ∀ x ∈ log, FromMenu x)
    (byLines : ∀ p ∈ ps, p.target = .input → p.format ≠ .json) :
    ∀ v ∈ inputValues taken, v.all (!Text.isLineBreak ·) = true := by
  intro v hv
  obtain ⟨t, ht, hvt⟩ := List.mem_flatMap.mp hv
  obtain ⟨hmem, htarget⟩ := List.mem_filter.mp ht
  obtain ⟨hp, text, menu, hmenu, hvalues⟩ := h.offered honest t hmem
  have hformat := byLines t.1 hp (by simpa using htarget)
  exact Menu.values_unbroken hformat hmenu v (hvalues v hvt)

lemma lines_text? {i : Inputs} (h : ∀ v ∈ i.lines, v.all (!Text.isLineBreak ·) = true) :
    (i.text? = none ↔ i.lines = []) ∧ ∀ text ∈ i.text?, Text.lines text = i.lines := by
  unfold Inputs.text?
  split
  · next hnil => exact ⟨iff_of_true rfl (List.isEmpty_iff.mp hnil), fun text htext => nomatch htext⟩
  · next hne =>
    refine ⟨iff_of_false (by simp) (by simpa using hne), fun text htext => ?_⟩
    obtain rfl := Option.some.inj htext
    exact Text.lines_unlines h

/-- The standard input of a command that is resolved can be read line by line: it is missing if no
value was selected for it, and its lines are the selected values, in the order of the placeholders
and of each selection, if these placeholders go by lines and nothing is chosen that was not
offered. -/
theorem resolve_input_lines (ctx : Context) (chain : List Text) (top : Command)
    (answering : Answering Question)
    (byLines : ∀ p ∈ top.placeholders, p.target = .input → p.format ≠ .json)
    (honest : ∀ past q, FromMenu ⟨q, answering past q⟩) {inputs : Inputs}
    (succeeds : ((ctx.resolve chain top).held answering).1 = .ok inputs) :
    ∃ taken,
      PostOrder ctx top.name top.placeholders ((ctx.resolve chain top).held answering).2 taken ∧
      (inputs.text? = none ↔ inputValues taken = []) ∧
      ∀ text ∈ inputs.text?, Text.lines text = inputValues taken := by
  obtain ⟨hends, hgave⟩ := (ctx.resolve chain top).held_ends answering
  rw [succeeds] at hends
  have hlog : ∀ x ∈ ((ctx.resolve chain top).held answering).2, FromMenu x := by
    intro x hx
    obtain ⟨q, a⟩ := x
    obtain ⟨past, hpast⟩ := hgave _ hx
    change a = answering past q at hpast
    rw [hpast]
    exact honest past q
  obtain ⟨taken, horder, hholds⟩ := postOrder_of_walk (walk_of_resolve hends)
  refine ⟨taken, horder, ?_⟩
  have hlines : inputs.lines = inputValues taken := hholds.lines
  have hunbroken := inputValues_unbroken horder hlog byLines
  rw [← hlines] at hunbroken ⊢
  exact lines_text? hunbroken

/-- Fields that no line has, of all lines, and a line that is chosen after them. -/
def sparseTop : Command where
  name := "top"
  placeholders := [
    { target := .input, name := "hosts", format := .fields [3], takesAll := true },
    { target := .argument, name := "paths", format := .json, takesAll := true },
    { target := .input, name := "hosts" }]

/-- Two commands without placeholders. -/
def sparse : Context where
  index := .ofList [{ name := "hosts" }, { name := "paths" }]

/-- Every command puts out two lines that make a JSON document, too. -/
def answerQuoted : Answering Question
  | _, .output .. => .ok "[\"a\",\n\"b\"]\n"
  | _, .selection _ cs => .ok (.chosen ((cs.map Candidate.value).take 1))

theorem resolve_input_lines_sparse :
    ((sparse.resolve [] sparseTop).held answerQuoted).1 =
        .ok { lines := [[], [], "[\"a\","], arguments := ["a", "b"] } ∧
      ∃ taken, PostOrder sparse "top" sparseTop.placeholders
          ((sparse.resolve [] sparseTop).held answerQuoted).2 taken ∧
        inputValues taken = [[], [], "[\"a\",".toList] := by
  have byLines : ∀ p ∈ sparseTop.placeholders, p.target = .input → p.format ≠ .json := by decide
  have honest (past : List (Exchanged Question)) (q : Question) :
      FromMenu ⟨q, answerQuoted past q⟩ := by
    cases q with
    | output => trivial
    | selection o cs => exact fun v hv => List.mem_of_mem_take hv
  have accepted : check sparse.index [sparseTop.name] sparseTop = .ok () := by cbv
  have succeeds : ((sparse.resolve [] sparseTop).held answerQuoted).1 =
      .ok { lines := [[], [], "[\"a\","], arguments := ["a", "b"] } := by
    rw [Context.resolve_accepted accepted]
    decide +kernel
  obtain ⟨taken, horder, -, htext⟩ :=
    resolve_input_lines sparse [] sparseTop answerQuoted byLines honest succeeds
  exact ⟨succeeds, taken, horder, (htext _ rfl).symm.trans (by decide)⟩

end Resolution
end Runbook
