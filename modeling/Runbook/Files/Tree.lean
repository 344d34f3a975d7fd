import Runbook.Files.Path

/-! A tree of files and directories. -/
namespace Runbook

inductive Tree where
  | file (content : List UInt8)
  | directory (entries : List (Text × Tree))
  deriving Inhabited

namespace Tree

def isFile : Tree → Bool
  | file _ => true
  | directory _ => false

def isDirectory (t : Tree) : Bool := !t.isFile

/-- The entries of a directory; a file has none. -/
def entries : Tree → List (Text × Tree)
  | file _ => []
  | directory es => es

/-- What stands under a name. -/
def child? (t : Tree) (name : Text) : Option Tree := t.entries.lookup name

/-- What stands at a place. -/
def at? (t : Tree) : Place → Option Tree
  | [] => some t
  | name :: place => (t.child? name).bind (at? · place)

/-- The place that the parts of a path lead to, if everything on the way is there. A step upwards
can be made from a directory only. -/
def walk? (t : Tree) (place : Place) : List Text → Option Place
  | [] => if (t.at? place).isSome then some place else none
  | part :: parts =>
    match t.at? place with
    | some (directory _) =>
      let next := Path.step place part
      if (t.at? next).isSome then walk? t next parts else none
    | _ => none

/-- The way of the parts of a path, as far as there is one, comes to a directory in which a name of a
kind is looked for. -/
def meets (kind : Text → Bool) (t : Tree) (place : Place) : List Text → Bool
  | [] => false
  | part :: parts =>
    match t.at? place with
    | some (directory _) =>
      let next := Path.step place part
      kind part || (t.at? next).isSome && meets kind t next parts
    | _ => false

/-- The places of all directories in a tree, its own first. -/
def directories : Tree → List Place
  | file _ => []
  | directory es => [] :: below es
where
  below : List (Text × Tree) → List Place
    | [] => []
    | (name, t) :: rest => (directories t).map (name :: ·) ++ below rest

/-- The tree with one more file or directory at a place; missing directories are made. -/
def put (t : Tree) (new : Tree) : Place → Tree
  | [] => new
  | name :: place =>
    let old := (t.child? name).getD (directory [])
    directory (replace t.entries name (put old new place))
where
  replace (es : List (Text × Tree)) (name : Text) (new : Tree) : List (Text × Tree) :=
    if (es.lookup name).isSome then es.map fun e => if e.1 = name then (name, new) else e
    else es ++ [(name, new)]

end Tree
end Runbook
