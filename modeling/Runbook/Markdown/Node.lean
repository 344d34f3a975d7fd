import Runbook.Markdown.Block

/-! The tree of a document. Trees may also be built by hand, so a node of any kind may carry text
and children. -/
namespace Runbook.Markdown

open Text

/-- A range of lines, counted from one, both ends included. -/
structure Span where
  first : Int
  last : Int
  deriving DecidableEq, Repr

inductive Kind where
  | document
  | heading (level : Int)
  | paragraph
  | codeBlock (info : Text)
  | block
  | text
  | code
  deriving DecidableEq, Repr, Inhabited

inductive Node where
  | mk (kind : Kind) (span : Option Span) (text : Text) (children : List Node)
  deriving Inhabited

namespace Node

def kind : Node → Kind
  | mk k _ _ _ => k

def text : Node → Text
  | mk _ _ t _ => t

def children : Node → List Node
  | mk _ _ _ cs => cs

def ofInline : Inline → Node
  | .text s => mk .text none s []
  | .code s => mk .code none s []

def ofBlock (b : Block) : Node :=
  let span := some ⟨b.first, b.last⟩
  match b.content with
  | .heading level title => mk (.heading level) span [] (title.map ofInline)
  | .paragraph content => mk .paragraph span [] (content.map ofInline)
  | .code info body => mk (.codeBlock info) span body []
  | .verbatim text => mk .block span text []

/-- The texts of a node and of its descendants that are not blank, trimmed, in document order. -/
def texts : Node → List Text
  | mk _ _ t cs => (if isBlankText t then [] else [trim t]) ++ textsOf cs
where
  textsOf : List Node → List Text
    | [] => []
    | n :: ns => texts n ++ textsOf ns

/-- The plain text of inline content. -/
def plainText (ns : List Node) : Text := unwords (texts.textsOf ns)

end Node

/-- The tree of a document: its blocks below one node that spans all lines. -/
def document (s : Text) : Node :=
  .mk .document (some ⟨1, max (lines s).length 1⟩) [] ((blocks s).map .ofBlock)

end Runbook.Markdown
