import Runbook.Language
import Runbook.Placeholder.Basic
import Runbook.Tags

/-! Commands of a catalog, and the look-up of commands by name. -/
namespace Runbook

/-- Where a command is defined: the lines from its heading to the next one. -/
structure Location where
  path : Text
  first : Int
  last : Int
  level : Int
  deriving DecidableEq, Repr

structure Command where
  name : Text
  language : Language := .none
  source : Text := []
  placeholders : List Placeholder := []
  /-- The types of project that the command is for; it is for all when there are none. -/
  types : Tags := ∅
  description : Option Text := none
  /-- A hidden command can be named but is not offered. -/
  hidden : Bool := false
  location : Option Location := none
  /-- The command is detached when it runs. -/
  background : Bool := false
  deriving DecidableEq, Repr

/-- The source as it is shown, without the line feeds at its end. -/
def Command.shown (c : Command) : Text := Text.dropEndWhile (· == '\n') c.source

/-- Names that start with an underscore are those of hidden commands. -/
def isHiddenName (name : Text) : Bool := name.head? == some '_'

/-- Commands with distinct names, in the order of their first appearance. -/
structure Index where
  commands : List Command
  distinct : (commands.map Command.name).Nodup

namespace Index

/-- The first of the commands with a name. -/
def find? (cs : List Command) (name : Text) : Option Command :=
  cs.find? fun c => c.name = name

def get? (index : Index) (name : Text) : Option Command := find? index.commands name

/-- The commands that are the first of their name, after those with names already taken. -/
def firsts (taken : List Text) : List Command → List Command
  | [] => []
  | c :: cs =>
    if taken.contains c.name then firsts taken cs else c :: firsts (c.name :: taken) cs

theorem name_not_mem_of_mem_firsts {taken : List Text} {cs : List Command} {c : Command}
    (h : c ∈ firsts taken cs) : c.name ∉ taken := by
  induction cs generalizing taken with
  | nil => simp [firsts] at h
  | cons d ds ih =>
    unfold firsts at h
    split at h
    · exact ih h
    · next hd =>
      rcases List.mem_cons.1 h with rfl | h
      · exact fun hc => hd (List.contains_iff_mem.2 hc)
      · exact fun hc => ih h (List.mem_cons_of_mem _ hc)

theorem nodup_firsts (taken : List Text) (cs : List Command) :
    ((firsts taken cs).map Command.name).Nodup := by
  induction cs generalizing taken with
  | nil => simp [firsts]
  | cons d ds ih =>
    unfold firsts
    split
    · exact ih taken
    · refine List.nodup_cons.2 ⟨fun h => ?_, ih _⟩
      obtain ⟨c, hc, hn⟩ := List.mem_map.1 h
      exact name_not_mem_of_mem_firsts hc (hn ▸ List.mem_cons_self ..)

/-- The first command with a name wins. -/
def ofList (cs : List Command) : Index := ⟨firsts [] cs, nodup_firsts [] cs⟩

theorem find?_firsts {taken : List Text} {name : Text} (h : name ∉ taken) (cs : List Command) :
    find? (firsts taken cs) name = find? cs name := by
  induction cs generalizing taken with
  | nil => rfl
  | cons d ds ih =>
    by_cases hd : d.name = name
    · simp [firsts, find?, hd, h]
    · unfold firsts
      split
      · rw [ih h]
        simp [find?, hd]
      · have hne : name ∉ d.name :: taken := by simp [Ne.symm hd, h]
        have := ih hne
        simp only [find?] at this ⊢
        simp [hd, this]

@[simp] theorem get?_ofList (cs : List Command) (name : Text) :
    (ofList cs).get? name = find? cs name := find?_firsts (by simp) cs

def contains (index : Index) (name : Text) : Bool := (index.get? name).isSome

/-- The names, in order. -/
def names (index : Index) : List Text := index.commands.map Command.name

end Index
end Runbook
