import Runbook.Heading
import Runbook.Language
import Runbook.Markdown.Node

/-! A document as the sequence of what matters to a catalog, in document order. -/
namespace Runbook.Catalog

open Markdown

inductive Event where
  | heading (span : Option Span) (level : Int) (heading : Heading)
  /-- A code block, with the words of its info string after the language. -/
  | source (span : Option Span) (language : Language) (words : List Text) (text : Text)
  | paragraph (span : Option Span) (text : Text)
  /-- The line after a document or another container. -/
  | finish (span : Option Span)
  deriving DecidableEq, Repr

namespace Event

/-- The first code span among the children of a heading. -/
def codeSpan? (ns : List Node) : Option Text :=
  match ns.find? (·.kind = .code) with
  | some n => some n.text
  | none => none

/-- The heading of its inline content. A code span marks a command, and an ampersand at the end of
the span one that runs in the background. -/
def headingOf (ns : List Node) : Heading :=
  let h := Heading.parse (Node.plainText ns)
  match codeSpan? ns with
  | none => h
  | some code =>
    if (Text.trim code).getLast? = some '&' then h.withFlags ["bg", "command"]
    else h.withFlags ["command"]

/-- The language and the other words of an info string. -/
def infoWords (info : Text) : Language × List Text :=
  match Text.words info with
  | [] => (.none, [])
  | w :: ws => (Language.ofTag w, ws)

/-- The end of a container that spans some lines. -/
def after (span : Option Span) : Event := .finish (span.map fun s => ⟨s.last + 1, s.last + 1⟩)

/-- The events of a tree. Inline content and blocks that are not interpreted have none unless they
have children. -/
def ofNode : Node → List Event
  | .mk kind span text children =>
    match kind with
    | .heading level => [.heading span level (headingOf children)]
    | .codeBlock info => [.source span (infoWords info).1 (infoWords info).2 text]
    | .paragraph => [.paragraph span (Node.plainText children)]
    | .document => ofNodes children ++ [after span]
    | _ => if children.isEmpty then [] else ofNodes children ++ [after span]
where
  ofNodes : List Node → List Event
    | [] => []
    | n :: ns => ofNode n ++ ofNodes ns

end Event
end Runbook.Catalog
