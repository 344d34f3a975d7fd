import Mathlib.Tactic.Common
import Runbook.CommandLine.Invocation
import Runbook.Proofs.Lookup

/-! Where the word for running a command is put into a command line: behind the options of the
program and their values, and once only. Where the last option lacks its value, the word takes its
place. -/
namespace Runbook.CommandLine

/-! ### The options of the program -/

/-- How the reading goes on after an option: with the next argument, with the value of the option
first, or not at all. -/
inductive Manner where
  | bare
  | valued
  | final
  deriving DecidableEq, Repr

/-- The manner of an option, as the state at the start shows it. -/
def Effect.manner {σ : Type} (start : σ) : Effect σ → Manner
  | .valued _ => .valued
  | .flag set =>
    match set start with
    | .ok _ => .bare
    | .error _ => .final

/-- The manner of the option that an argument is, if the grammar of the program has it. -/
def manner? (w : Text) : Option Manner :=
  (Invocation.grammar.table.lookup (optionOf w)).map (Effect.manner {})

/-- The options of a manner, as they are told apart before the grammar is used. -/
def Manner.options : Manner → List Text
  | bare => bareOptions
  | valued => valueOptions
  | final => answeredOptions

/-- The options are told apart as the grammar has them. -/
theorem manner?_eq_some_iff {w : Text} {m : Manner} :
    manner? w = some m ↔ optionOf w ∈ m.options := by
  have hdistinct : (Invocation.grammar.table.map Prod.fst).Nodup := by decide
  have hoptions : m.options = (Invocation.grammar.table.filter fun e =>
      e.2.manner {} = m).map Prod.fst := by
    cases m <;> rfl
  rw [manner?, hoptions]
  simp only [Option.map_eq_some_iff, lookup_eq_some_of_nodup hdistinct, List.mem_map,
    List.mem_filter, decide_eq_true_eq, Prod.exists, exists_and_right, exists_eq_right]

lemma manner?_of_subcommand {w : Text} (h : w ∈ subcommandWords) : manner? w = none := by
  have hall : ∀ w ∈ subcommandWords, manner? w = none := by decide
  exact hall w h

lemma contains_options (m : Manner) (w : Text) :
    m.options.contains (optionOf w) = decide (manner? w = some m) := by
  rw [Bool.eq_iff_iff, List.contains_iff_mem, ← manner?_eq_some_iff, decide_eq_true_eq]

/-! ### A step at a time -/

lemma withSubcommand_cons (w : Text) (rest : List Text) :
    withSubcommand (w :: rest) =
      if w ∈ subcommandWords then w :: rest
      else match manner? w with
        | some .bare => w :: withSubcommand rest
        | some .valued =>
          if '=' ∈ w then w :: withSubcommand rest
          else match rest with
            | [] => [w, runWord]
            | v :: rest => w :: v :: withSubcommand rest
        | some .final => w :: rest
        | none => runWord :: w :: rest := by
  have hvalued : valueOptions.contains (optionOf w) = _ := contains_options .valued w
  have hfinal : answeredOptions.contains (optionOf w) = _ := contains_options .final w
  have hbare : bareOptions.contains (optionOf w) = _ := contains_options .bare w
  rw [withSubcommand.eq_def]
  dsimp only
  rw [hvalued, hfinal, hbare]
  simp only [List.contains_iff_mem, decide_eq_true_eq]
  congr 1
  cases manner? w with
  | none => rfl
  | some m => cases m <;> rfl

/-! ### Options with their values -/

/-- Arguments that are options of the program with their values, which stand after an equals sign or
in the next argument. Only the last option may lack its value. -/
inductive Leading : (lacking : Bool) → List Text → Prop
  | nil : Leading false []
  | lone {w : Text} (option : manner? w = some .valued) (apart : '=' ∉ w) : Leading true [w]
  | bare {lacking : Bool} {w : Text} {rest : List Text} (option : manner? w = some .bare)
      (more : Leading lacking rest) : Leading lacking (w :: rest)
  | attached {lacking : Bool} {w : Text} {rest : List Text} (option : manner? w = some .valued)
      (value : '=' ∈ w) (more : Leading lacking rest) : Leading lacking (w :: rest)
  | separate {lacking : Bool} {w v : Text} {rest : List Text} (option : manner? w = some .valued)
      (apart : '=' ∉ w) (more : Leading lacking rest) : Leading lacking (w :: v :: rest)

/-- What comes next is the value of an option. -/
abbrev AwaitsValue (words : List Text) : Prop := Leading true words

/-- The argument names a sub-command, or is an option that ends the matter. -/
def Settles (w : Text) : Prop := w ∈ subcommandWords ∨ manner? w = some .final

/-- The argument belongs to the sub-command that is not named. -/
def IsForeign (w : Text) : Prop := w ∉ subcommandWords ∧ manner? w = none

namespace Leading
variable {lacking : Bool} {w v : Text} {front back rest : List Text}

lemma bare_iff (option : manner? w = some .bare) :
    Leading lacking (w :: rest) ↔ Leading lacking rest := by
  refine ⟨fun h => ?_, .bare option⟩
  cases h with
  | bare _ more => exact more
  | lone valued => exact absurd (option.symm.trans valued) (by decide)
  | attached valued => exact absurd (option.symm.trans valued) (by decide)
  | separate valued => exact absurd (option.symm.trans valued) (by decide)

lemma attached_iff (option : manner? w = some .valued) (value : '=' ∈ w) :
    Leading lacking (w :: rest) ↔ Leading lacking rest := by
  refine ⟨fun h => ?_, .attached option value⟩
  cases h with
  | bare flag more => exact absurd (option.symm.trans flag) (by decide)
  | lone _ apart => exact absurd value apart
  | attached _ _ more => exact more
  | separate _ apart => exact absurd value apart

lemma separate_iff (option : manner? w = some .valued) (apart : '=' ∉ w) :
    Leading lacking (w :: v :: rest) ↔ Leading lacking rest := by
  refine ⟨fun h => ?_, .separate option apart⟩
  cases h with
  | bare flag more => exact absurd (option.symm.trans flag) (by decide)
  | attached _ value => exact absurd value apart
  | separate _ _ more => exact more

lemma exists_manner (h : Leading lacking (w :: rest)) : ∃ m, manner? w = some m ∧ m ≠ .final := by
  cases h with
  | bare option => exact ⟨_, option, by decide⟩
  | lone option => exact ⟨_, option, by decide⟩
  | attached option => exact ⟨_, option, by decide⟩
  | separate option => exact ⟨_, option, by decide⟩

/-- After options with all their values there may be more of them. -/
lemma append_iff (h : Leading false front) :
    Leading lacking (front ++ back) ↔ Leading lacking back := by
  generalize hfalse : false = lacking at h
  induction h with
  | nil => exact Iff.rfl
  | lone => cases hfalse
  | bare option more ih => exact (bare_iff option).trans (ih hfalse)
  | attached option value more ih => exact (attached_iff option value).trans (ih hfalse)
  | separate option apart more ih => exact (separate_iff option apart).trans (ih hfalse)

end Leading

lemma not_subcommand {w : Text} {m : Manner} (h : manner? w = some m) : w ∉ subcommandWords := by
  intro hw
  rw [manner?_of_subcommand hw] at h
  cases h

/-- The options are passed over. -/
lemma withSubcommand_append {front : List Text} (h : Leading false front) (back : List Text) :
    withSubcommand (front ++ back) = front ++ withSubcommand back := by
  generalize hfalse : false = lacking at h
  induction h with
  | nil => rfl
  | lone => cases hfalse
  | bare option more ih =>
    rw [List.cons_append, withSubcommand_cons, if_neg (not_subcommand option), option]
    exact congrArg _ (ih hfalse)
  | attached option value more ih =>
    rw [List.cons_append, withSubcommand_cons, if_neg (not_subcommand option), option]
    dsimp only
    rw [if_pos value, ih hfalse]
    rfl
  | separate option apart more ih =>
    rw [List.cons_append, withSubcommand_cons, if_neg (not_subcommand option), option]
    dsimp only
    rw [if_neg apart]
    exact congrArg _ (congrArg _ (ih hfalse))

/-- What stands behind the options: nothing, a sub-command or an option that ends the matter, or the
first argument of a sub-command that is not named. -/
inductive Behind : List Text → Prop
  | nothing : Behind []
  | settled {w : Text} {rest : List Text} (settles : Settles w) : Behind (w :: rest)
  | foreign {w : Text} {rest : List Text} (foreign : IsForeign w) : Behind (w :: rest)

/-- The arguments are options up to one that lacks its value, or up to something else. -/
def IsParted (words : List Text) : Prop :=
  AwaitsValue words ∨ ∃ front back, words = front ++ back ∧ Leading false front ∧ Behind back

lemma IsParted.prepend (start : List Text) {rest : List Text} (h : IsParted rest)
    (hstart : ∀ {lacking words}, Leading lacking words → Leading lacking (start ++ words)) :
    IsParted (start ++ rest) := by
  rcases h with h | ⟨front, back, rfl, hfront, hback⟩
  · exact .inl (hstart h)
  · exact .inr ⟨start ++ front, back, (List.append_assoc ..).symm, hstart hfront, hback⟩

lemma isParted : (words : List Text) → IsParted words
  | [] => .inr ⟨[], [], rfl, .nil, .nothing⟩
  | w :: rest => by
    by_cases hw : w ∈ subcommandWords
    · exact .inr ⟨[], _, rfl, .nil, .settled (.inl hw)⟩
    · cases hm : manner? w with
      | none => exact .inr ⟨[], _, rfl, .nil, .foreign ⟨hw, hm⟩⟩
      | some m =>
        cases m with
        | final => exact .inr ⟨[], _, rfl, .nil, .settled (.inr hm)⟩
        | bare => exact (isParted rest).prepend [w] (.bare hm)
        | valued =>
          by_cases value : '=' ∈ w
          · exact (isParted rest).prepend [w] (.attached hm value)
          · cases rest with
            | nil => exact .inl (.lone hm value)
            | cons v rest => exact (isParted rest).prepend [w, v] (.separate hm value)

lemma Leading.exists_last {words : List Text} (h : Leading true words) :
    ∃ front w, words = front ++ [w] ∧ Leading false front ∧ manner? w = some .valued ∧ '=' ∉ w := by
  generalize htrue : true = lacking at h
  induction h with
  | nil => cases htrue
  | @lone w option apart => exact ⟨[], w, rfl, .nil, option, apart⟩
  | bare option more ih =>
    obtain ⟨front, w, rfl, hfront, hw⟩ := ih htrue
    exact ⟨_ :: front, w, rfl, .bare option hfront, hw⟩
  | attached option value more ih =>
    obtain ⟨front, w, rfl, hfront, hw⟩ := ih htrue
    exact ⟨_ :: front, w, rfl, .attached option value hfront, hw⟩
  | separate option apart more ih =>
    obtain ⟨front, w, rfl, hfront, hw⟩ := ih htrue
    exact ⟨_ :: _ :: front, w, rfl, .separate option apart hfront, hw⟩

/-- Nothing that stands behind options is one of them. -/
lemma Behind.not_awaitsValue {front back : List Text} (h : Behind back)
    (hfront : Leading false front) : ¬ AwaitsValue (front ++ back) := by
  intro hawaits
  have hback : Leading true back := hfront.append_iff.mp hawaits
  cases h with
  | nothing => cases hback
  | settled settles =>
    obtain ⟨m, option, hm⟩ := hback.exists_manner
    rcases settles with hw | final
    · exact not_subcommand option hw
    · exact hm (Option.some.inj (option.symm.trans final))
  | foreign foreign =>
    obtain ⟨m, option, -⟩ := hback.exists_manner
    cases option.symm.trans foreign.2

/-- Behind the options nothing changes, or the word for running a command comes first. -/
lemma withSubcommand_behind {back : List Text} (h : Behind back) :
    (∃ w rest, back = w :: rest ∧ Settles w) ∧ withSubcommand back = back ∨
      withSubcommand back = runWord :: back ∧ ∀ w ∈ back.head?, IsForeign w := by
  cases h with
  | nothing => exact .inr ⟨rfl, by simp⟩
  | @settled w rest settles =>
    refine .inl ⟨⟨w, rest, rfl, settles⟩, ?_⟩
    rw [withSubcommand_cons]
    split
    · rfl
    · next hw => rw [settles.resolve_left hw]
  | @foreign w rest foreign =>
    refine .inr ⟨?_, fun v hv => Option.some.inj hv ▸ foreign⟩
    rw [withSubcommand_cons, if_neg foreign.1, foreign.2]

/-- The word for running a command gets the place of the value that the last option lacks. -/
lemma withSubcommand_awaiting {words : List Text} (h : AwaitsValue words) :
    withSubcommand words = words ++ [runWord] ∧
      withSubcommand (words ++ [runWord]) = words ++ [runWord, runWord] := by
  obtain ⟨front, w, rfl, hfront, option, apart⟩ := h.exists_last
  have hcomplete : Leading false (front ++ [w, runWord]) :=
    hfront.append_iff.mpr (.separate option apart .nil)
  constructor
  · rw [withSubcommand_append hfront, withSubcommand_cons, if_neg (not_subcommand option), option]
    dsimp only
    rw [if_neg apart, List.append_assoc]
    rfl
  · have h := withSubcommand_append hcomplete []
    simpa [withSubcommand] using h

/-- The command line is unchanged where a sub-command is given or an option ends the matter.
Elsewhere the word for running a command is put in once, behind options of the program, and the
second time nothing changes. Only if the last option lacks its value, the word takes its place, and
the second time another one is put in. -/
theorem withSubcommand_insertion (words : List Text) :
    ((∃ front w back, words = front ++ w :: back ∧ Leading false front ∧ Settles w) ∧
        withSubcommand words = words ∨
      ∃ front back, words = front ++ back ∧ withSubcommand words = front ++ runWord :: back ∧
        (∃ lacking, Leading lacking front) ∧ (AwaitsValue front ↔ AwaitsValue words) ∧
        ∀ w ∈ back.head?, IsForeign w) ∧
      (withSubcommand (withSubcommand words) = withSubcommand words ↔ ¬ AwaitsValue words) := by
  rcases isParted words with hawaits | ⟨front, back, rfl, hfront, hback⟩
  · obtain ⟨honce, htwice⟩ := withSubcommand_awaiting hawaits
    refine ⟨.inr ⟨words, [], ?_, honce, ⟨_, hawaits⟩, Iff.rfl, by simp⟩, ?_⟩
    · exact (List.append_nil words).symm
    · rw [honce, htwice]
      simpa using hawaits
  · have hnot := hback.not_awaitsValue hfront
    have hnotFront : ¬ AwaitsValue front := fun h =>
      Behind.nothing.not_awaitsValue hfront (by rwa [List.append_nil])
    rw [withSubcommand_append hfront]
    rcases withSubcommand_behind hback with ⟨⟨w, rest, rfl, settles⟩, hsame⟩ | ⟨hput, hforeign⟩
    · have hagain : withSubcommand (front ++ w :: rest) = front ++ w :: rest := by
        rw [withSubcommand_append hfront, hsame]
      rw [hsame]
      exact ⟨.inl ⟨⟨front, w, rest, rfl, hfront, settles⟩, rfl⟩, iff_of_true hagain hnot⟩
    · have hagain : withSubcommand (front ++ runWord :: back) = front ++ runWord :: back := by
        rw [withSubcommand_append hfront, withSubcommand_cons, if_pos (by decide)]
      rw [hput]
      exact ⟨.inr ⟨front, back, rfl, rfl, ⟨_, hfront⟩, iff_of_false hnotFront hnot, hforeign⟩,
        iff_of_true hagain hnot⟩

/-- An option without its value takes the word for one, and the second time there is another. -/
theorem withSubcommand_valueless :
    AwaitsValue ["-C"] ∧ withSubcommand ["-C"] = (["-C", "run"] : List Text) ∧
      withSubcommand (withSubcommand ["-C"]) ≠ withSubcommand ["-C"] :=
  ⟨.lone (by decide) (by decide), by decide, by decide⟩

end Runbook.CommandLine
