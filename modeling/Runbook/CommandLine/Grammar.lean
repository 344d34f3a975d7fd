import Runbook.Text.Digits

/-! Command lines of options and operands. Long options may be shortened as far as no other one has
the same beginning, short ones may be written together, and a value may follow its option directly.
After two hyphens there are operands only. -/
namespace Runbook.CommandLine

/-- Why the reading of a command line ends before the program does anything. -/
inductive Stop where
  /-- Help or the version was asked for and has been given. -/
  | answered
  | misuse
  deriving DecidableEq, Repr

def Stop.exitCode : Stop → Nat
  | answered => 0
  | misuse => 2

/-- What an option does to the settings: by itself or with a value. -/
inductive Effect (σ : Type) where
  | flag (set : σ → Except Stop σ)
  | valued (set : Text → σ → Except Stop σ)

structure Switch (σ : Type) where
  names : List Text
  effect : Effect σ

/-- How many arguments an operand takes. -/
inductive Arity where
  | one
  | optional
  | many
  /-- One argument and all that follows, whatever it looks like. -/
  | rest
  deriving DecidableEq, Repr

structure Operand (σ : Type) where
  arity : Arity
  set : List Text → σ → Except Stop σ

structure Grammar (σ : Type) where
  switches : List (Switch σ)
  operands : List (Operand σ)

namespace Grammar

variable {σ : Type}

/-- The names of all options with what they do. -/
def table (g : Grammar σ) : List (Text × Effect σ) :=
  g.switches.flatMap fun s => s.names.map fun n => (n, s.effect)

/-- An option that was recognized: by which name, and with what text after it. -/
structure Found (σ : Type) where
  name : Text
  effect : Effect σ
  /-- The text written to the option in the same argument, directly or after an equals sign. -/
  attached : Option Text := none

/-- The part of an argument before its first equals sign, and that after it. -/
def cutEquals (s : Text) : Text × Option Text :=
  (s.takeWhile (· != '='), (s.dropWhile (· != '=')).tail?)

/-- The options that an argument may be meant for, other than by a full name. -/
def candidates (g : Grammar σ) (s : Text) : List (Found σ) :=
  match s with
  | '-' :: '-' :: _ =>
    let (start, value) := cutEquals s
    (g.table.filter fun e => start.isPrefixOf e.1).map fun e => ⟨e.1, e.2, value⟩
  | _ =>
    g.table.filterMap fun e =>
      if e.1 = s.take 2 then some ⟨e.1, e.2, some (s.drop 2)⟩
      else if s.isPrefixOf e.1 then some ⟨e.1, e.2, none⟩
      else none

/-- A negative number: an integer or a decimal. A line feed may follow it. -/
def isNegativeNumber (s : Text) : Bool :=
  match s with
  | '-' :: r =>
    let body := if r.getLast? = some '\n' then r.dropLast else r
    let fraction := (body.dropWhile Text.isDecimal).drop 1
    !body.isEmpty && body.all Text.isDecimal ||
      ((body.dropWhile Text.isDecimal).head? = some '.' && !fraction.isEmpty &&
        fraction.all Text.isDecimal)
  | _ => false

/-- What an argument is read as. -/
inductive Kind (σ : Type) where
  /-- The two hyphens after which there are operands only. -/
  | hyphens
  | argument
  | switch (found : Found σ)
  /-- It looks like an option, but there is none of that name. -/
  | unknown

structure Item (σ : Type) where
  word : Text
  kind : Kind σ

def twoHyphens : Text := ['-', '-']

/-- What an argument before the two hyphens is. -/
def kind (g : Grammar σ) (s : Text) : Except Stop (Kind σ) :=
  if s.head? ≠ some '-' then .ok .argument
  else match g.table.lookup s with
    | some effect => .ok (.switch ⟨s, effect, none⟩)
    | none =>
      if s = ['-'] then .ok .argument
      else
        let named := match cutEquals s with
          | (name, some v) => (g.table.lookup name).map fun e => Found.mk name e (some v)
          | (_, none) => none
        match named, g.candidates s with
        | some found, _ => .ok (.switch found)
        | none, [found] => .ok (.switch found)
        | none, [] => .ok (if isNegativeNumber s || s.contains ' ' then .argument else .unknown)
        | none, _ => .error .misuse

/-- All arguments. -/
def items (g : Grammar σ) : List Text → Except Stop (List (Item σ))
  | [] => .ok []
  | s :: rest =>
    if s = twoHyphens then .ok (⟨s, .hyphens⟩ :: rest.map fun w => ⟨w, .argument⟩)
    else
      match g.kind s with
      | .error e => .error e
      | .ok k =>
        match g.items rest with
        | .error e => .error e
        | .ok is => .ok (⟨s, k⟩ :: is)

/-- What the options written together in one argument do: effects in order, and the last option may
want the next argument. -/
structure Cluster (σ : Type) where
  sets : List (σ → Except Stop σ)
  wants : Option (Text → σ → Except Stop σ) := none

/-- An option without attached text. -/
def bare : Effect σ → Cluster σ
  | .flag set => { sets := [set] }
  | .valued set => { sets := [], wants := some set }

def Cluster.after (set : σ → Except Stop σ) (c : Cluster σ) : Cluster σ :=
  { c with sets := set :: c.sets }

/-- An option with attached text. After a short option without a value there may stand more short
options, and nothing else. -/
def attached (g : Grammar σ) (short : Bool) (effect : Effect σ) (text : Text) :
    Except Stop (Cluster σ) :=
  match effect, text with
  | .valued set, text => .ok { sets := [set text] }
  | .flag _, [] => .error .misuse
  | .flag set, c :: r =>
    match if short then g.table.lookup ['-', c] else none with
    | none => .error .misuse
    | some next =>
      let more := if r.isEmpty then .ok (bare next) else attached g true next r
      more.map (Cluster.after set)
termination_by text.length

/-- The cluster of one argument. -/
def cluster (g : Grammar σ) (f : Found σ) : Except Stop (Cluster σ) :=
  match f.attached with
  | none => .ok (bare f.effect)
  | some text => g.attached ((f.name.drop 1).head? ≠ some '-') f.effect text

/-- Effects one after another. -/
def apply (sets : List (σ → Except Stop σ)) (state : σ) : Except Stop σ :=
  sets.foldlM (fun state set => set state) state

def Item.isHyphens (i : Item σ) : Bool := match i.kind with
  | .hyphens => true
  | _ => false

def Item.isSwitch (i : Item σ) : Bool := match i.kind with
  | .switch _ => true
  | .unknown => true
  | _ => false

/-- How many items an operand takes from the front, the two hyphens around its arguments counted;
nothing if it has to take one and cannot. -/
def taken? (arity : Arity) (is : List (Item σ)) : Option Nat :=
  let before := (is.takeWhile Item.isHyphens).length
  let after (rest : List (Item σ)) : Nat := (rest.takeWhile Item.isHyphens).length
  let here : Option (List (Item σ)) := match is.drop before with
    | i :: rest => if i.isSwitch then none else some rest
    | [] => none
  match arity, here with
  | .one, some rest => some (before + 1 + after rest)
  | .optional, some rest => some (before + 1 + after rest)
  | .rest, some rest => some (before + 1 + rest.length)
  | .optional, none => some before
  | .many, _ => some (is.takeWhile (!·.isSwitch)).length
  | .one, none => none
  | .rest, none => none

/-- The shares of some operands, each from what those before it leave. -/
def shares? (is : List (Item σ)) : List Arity → Option (List Nat)
  | [] => some []
  | a :: as =>
    match taken? a is with
    | none => none
    | some n => (shares? (is.drop n) as).map (n :: ·)

/-- The shares of as many operands as can have one. -/
def shares (is : List (Item σ)) (as : List Arity) : List Nat :=
  ((List.range as.length).findSome? fun n => shares? is (as.take (as.length - n))).getD []

/-- The arguments that an operand gets: the first two hyphens are left out, except where it takes
all that follows. -/
def arguments (arity : Arity) (words : List Text) : List Text :=
  if arity = .rest then words else words.erase twoHyphens

/-- A command line in progress. -/
structure Progress (σ : Type) where
  state : σ
  /-- The operands that have no share yet. -/
  operands : List (Operand σ)
  /-- The arguments that belong to nothing. -/
  extra : List Text := []

def Progress.leave (p : Progress σ) (words : List Text) : Progress σ :=
  { p with extra := p.extra ++ words }

/-- Operands with their shares of the words at the front, and the words after them. -/
def Progress.give (p : Progress σ) (words : List Text) :
    List Nat → Except Stop (Progress σ × List Text)
  | [] => .ok (p, words)
  | n :: ns =>
    match p.operands with
    | [] => .ok (p, words)
    | o :: os =>
      match o.set (arguments o.arity (words.take n)) p.state with
      | .error e => .error e
      | .ok state => give { p with state, operands := os } (words.drop n) ns

/-- Operands get their shares of the items at the front. -/
def Progress.operate (p : Progress σ) (is : List (Item σ)) :
    Except Stop (Progress σ × List Text) :=
  p.give (is.map Item.word) (shares is (p.operands.map Operand.arity))

/-- An option and, where it wants one, its value from the items after it; the result tells how many
of these are used up. -/
def Progress.switch (p : Progress σ) (g : Grammar σ) (f : Found σ) (after : List (Item σ)) :
    Except Stop (Progress σ × Nat) :=
  match g.cluster f with
  | .error e => .error e
  | .ok c =>
    let done (sets : List (σ → Except Stop σ)) (n : Nat) : Except Stop (Progress σ × Nat) :=
      (apply sets p.state).map fun state => ({ p with state }, n)
    match c.wants, after with
    | none, _ => done c.sets 0
    | some set, ⟨v, .argument⟩ :: _ => done (c.sets ++ [set v]) 1
    | some _, _ => .error .misuse

/-- Reads items to the end. The operands take what they can of the arguments before an option, and
later arguments are then left over. -/
def run (g : Grammar σ) : Nat → List (Item σ) → Progress σ → Except Stop (Progress σ)
  | 0, _, p => .ok p
  | fuel + 1, is, p =>
    if is.any Item.isSwitch then
      match is with
      | ⟨w, .unknown⟩ :: rest => run g fuel rest (p.leave [w])
      | ⟨_, .switch f⟩ :: rest =>
        match p.switch g f rest with
        | .error e => .error e
        | .ok (p, n) => run g fuel (rest.drop n) p
      | is =>
        match p.operate is with
        | .error e => .error e
        | .ok (p, words) =>
          if words.length < is.length then run g fuel (is.drop (is.length - words.length)) p
          else
            run g fuel (is.dropWhile (!·.isSwitch))
              (p.leave ((is.takeWhile (!·.isSwitch)).map Item.word))
    else
      match p.operate is with
      | .error e => .error e
      | .ok (p, words) => .ok (p.leave words)

/-- The settings that a command line comes to, and the arguments that belong to nothing. An operand
that has to have an argument must have got it. -/
def read (g : Grammar σ) (words : List Text) (state : σ) : Except Stop (σ × List Text) :=
  match g.items words with
  | .error e => .error e
  | .ok is =>
    match g.run (words.length + 1) is { state, operands := g.operands } with
    | .error e => .error e
    | .ok p =>
      if p.operands.any fun o => o.arity = .one then .error .misuse else .ok (p.state, p.extra)

end Grammar
end Runbook.CommandLine
