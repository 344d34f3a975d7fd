import Runbook.Failure
import Runbook.Files.Tree
import Runbook.Text.Utf8

/-! Where the program runs: the files around it, its directory and its environment variables. Names of
files are limited: one with a null character leads nowhere and cannot be made absolute, and one that is
too long cannot even be asked for. -/
namespace Runbook

structure Surroundings where
  files : Tree
  /-- The current directory. -/
  directory : Place
  environment : List (Text × Text) := []
  /-- The home directory of the user, where no variable names it. -/
  home : Text := []
  /-- The home directories of accounts by name. -/
  accounts : List (Text × Text) := []

namespace Surroundings

def lookup? (s : Surroundings) (name : Text) : Option Text := s.environment.lookup name

/-- The variable unless it is unset or empty. -/
def filled? (s : Surroundings) (name : Text) : Option Text :=
  (s.lookup? name).filter (!·.isEmpty)

/-- The place that a path leads to, if it leads anywhere. -/
def find? (s : Surroundings) (p : Path) : Except Failure (Option Place) :=
  let start := if p.isAbsolute then [] else s.directory
  if p.hasNull then .ok none
  else if p.isLong || s.files.meets Path.isLongName start p.parts then .error .nameTooLong
  else .ok (s.files.walk? start p.parts)

def tree? (s : Surroundings) (p : Path) : Except Failure (Option Tree) :=
  (s.find? p).map (·.bind s.files.at?)

def has (s : Surroundings) (p : Path) : Except Failure Bool := (s.find? p).map Option.isSome

def isDirectory (s : Surroundings) (p : Path) : Except Failure Bool :=
  (s.tree? p).map (·.any Tree.isDirectory)

/-- The names in a directory with what stands there. -/
def entries (s : Surroundings) (p : Path) : Except Failure (List (Text × Tree)) :=
  (s.tree? p).map fun t => (t.map Tree.entries).getD []

/-- The ways from a directory to all directories in it, itself first. -/
def directories (s : Surroundings) (p : Path) : Except Failure (List Place) :=
  (s.tree? p).map fun t => (t.map Tree.directories).getD []

/-- The bytes of a file. -/
def content? (s : Surroundings) (p : Path) : Except Failure (Option (List UInt8)) :=
  (s.tree? p).map fun
    | some (.file bytes) => some bytes
    | _ => none

/-- The place of a path by its parts alone. -/
def place (s : Surroundings) (p : Path) : Except Failure Place :=
  if p.hasNull then .error .nulByte else .ok (p.place s.directory)

/-- The directories from a path upwards, its own first. -/
def upwards (s : Surroundings) (p : Path) : Except Failure (List Path) :=
  (s.place p).map fun place => (Path.upwards place).map Path.ofPlace

/-- The first path of a name that exists in a directory or above it. -/
def dominating? (s : Surroundings) (p : Path) (name : Text) : Except Failure (Option Path) := do
  ((← s.upwards p).map (·.child name)).findM? s.has

/-- The home directory of an account, or of the user where no name is given. -/
def homeOf? (s : Surroundings) (account : Text) : Except Failure (Option Text) :=
  if account.isEmpty then .ok (some ((s.lookup? "HOME").getD s.home))
  else if account.contains '\x00' then .error .nulByte
  else .ok (s.accounts.lookup account)

/-- A tilde at the start of a text, alone or with the name of an account, replaced by the home
directory if there is one. -/
def expandHome (s : Surroundings) (raw : Text) : Except Failure Text :=
  match raw with
  | '~' :: r =>
    (s.homeOf? (r.takeWhile (· != '/'))).map fun
      | some home =>
        let path := Text.dropEndWhile (· == '/') home ++ r.dropWhile (· != '/')
        if path.isEmpty then ['/'] else path
      | none => raw
  | _ => .ok raw

def isNameChar (c : Char) : Bool := c.isAlphanum || c == '_'

/-- A name after a dollar sign, in braces or not, and the rest of the text. -/
def reference? (s : Text) : Option (Text × Text) :=
  match s with
  | '\x7b' :: r =>
    match r.dropWhile (· != '\x7d') with
    | _ :: rest => some (r.takeWhile (· != '\x7d'), rest)
    | [] => none
  | r => if (r.takeWhile isNameChar).isEmpty then none
    else some (r.takeWhile isNameChar, r.dropWhile isNameChar)

theorem length_of_reference? {s name rest : Text} (h : reference? s = some (name, rest)) :
    rest.length ≤ s.length := by
  unfold reference? at h
  split at h
  · next r =>
    split at h
    · next d hd =>
      have hle := (r.dropWhile_suffix (· != '\x7d')).length_le
      rw [hd, List.length_cons] at hle
      simp only [Option.some.injEq, Prod.mk.injEq] at h
      rw [← h.2, List.length_cons]
      omega
    · simp at h
  · split at h
    · simp at h
    · simp only [Option.some.injEq, Prod.mk.injEq] at h
      rw [← h.2]
      exact (s.dropWhile_suffix isNameChar).length_le

/-- References to variables replaced by their values; those to unknown variables stay. -/
def expandVariables (s : Surroundings) (t : Text) : Text :=
  match t with
  | [] => []
  | '$' :: r =>
    match h : reference? r with
    | some (name, rest) =>
      have := length_of_reference? h
      match s.lookup? name with
      | some v => v ++ expandVariables s rest
      | none => '$' :: r.take (r.length - rest.length) ++ expandVariables s rest
    | none => '$' :: expandVariables s r
  | c :: r => c :: expandVariables s r
termination_by t.length
decreasing_by
  · exact Nat.lt_succ_of_le this
  · exact Nat.lt_succ_of_le this
  · exact Nat.lt_succ_self _
  · exact Nat.lt_succ_self _

/-- The path that a text stands for. -/
def expand (s : Surroundings) (raw : Text) : Except Failure Path :=
  (s.expandHome raw).map fun t => .ofText (s.expandVariables t)

end Surroundings
end Runbook
