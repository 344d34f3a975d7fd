import Runbook.Markdown.Inline
import Runbook.Markdown.Line

/-! Documents as blocks of lines. Reading goes line by line; the state is the block whose end has
not been seen, so every line is looked at once. -/
namespace Runbook.Markdown

open Text

inductive Content where
  | heading (level : Nat) (title : List Inline)
  | paragraph (content : List Inline)
  /-- Fenced or indented code; indented code has no info string. -/
  | code (info body : Text)
  /-- Lists, quotations, markup and rules, whose content is not interpreted. -/
  | verbatim (text : Text)
  deriving DecidableEq, Repr

/-- A block with the numbers of its first and last line, counted from one. -/
structure Block where
  first : Nat
  last : Nat
  content : Content
  deriving DecidableEq, Repr

/-- The block of which the last line read is a part, as far as it has been read. -/
inductive Pending where
  | idle
  | paragraph (first : Nat) (lines : List Text)
  | fenced (first : Nat) (fence : Fence) (body : List Text)
  /-- Blank lines belong to indented code only if more of it follows them. -/
  | indented (first : Nat) (body blanks : List Text)
  | verbatim (first : Nat) (lines : List Text)
  deriving DecidableEq, Repr

/-- The lines of a paragraph as one text. -/
def paragraphText (ls : List Text) : Text := unwords (ls.map trim)

namespace Pending

/-- The block that ends with line number n, if one is open. -/
def close (n : Nat) : Pending → List Block
  | idle => []
  | paragraph first ls => [⟨first, n, .paragraph (inline (paragraphText ls))⟩]
  | fenced first f body => [⟨first, n, .code f.info (unlines body)⟩]
  | indented first body blanks => [⟨first, n - blanks.length, .code [] (unlines body)⟩]
  | verbatim first ls => [⟨first, n, .verbatim (joinWith ['\n'] ls)⟩]

/-- Line number n where no block is open: the blocks that it completes and the one it opens. -/
def begin (n : Nat) (l : Text) : List Block × Pending :=
  if isBlankText l then ([], idle)
  else match Fence.opening? l with
  | some f => ([], fenced n f [])
  | none =>
  match numbered? l with
  | some (level, title) => ([⟨n, n, .heading level (inline title)⟩], idle)
  | none =>
    if isRule l then ([⟨n, n, .verbatim l⟩], idle)
    else if isIndented l then ([], indented n [unindent l] [])
    else if opensContainer l then ([], verbatim n [l])
    else ([], paragraph n [l])

/-- A line that ends every open block but code. -/
def interrupts (l : Text) : Bool :=
  isBlankText l || (Fence.opening? l).isSome || (numbered? l).isSome

/-- Line number n after an open block: the blocks that it completes and what is open then. -/
def step (n : Nat) (l : Text) : Pending → List Block × Pending
  | idle => begin n l
  | paragraph first ls =>
    if interrupts l then restart (paragraph first ls)
    else match underline? l with
    | some level => ([⟨first, n, .heading level (inline (paragraphText ls))⟩], idle)
    | none =>
      if isRule l || opensContainer l then restart (paragraph first ls)
      else ([], paragraph first (ls ++ [l]))
  | fenced first f body =>
    if f.closes l then ([⟨first, n, .code f.info (unlines body)⟩], idle)
    else ([], fenced first f (body ++ [f.unindent l]))
  | indented first body blanks =>
    if isIndented l then ([], indented first (body ++ blanks ++ [unindent l]) [])
    else if isBlankText l then ([], indented first body (blanks ++ [[]]))
    else restart (indented first body blanks)
  | verbatim first ls =>
    if interrupts l then restart (verbatim first ls) else ([], verbatim first (ls ++ [l]))
where
  /-- The open block ends before this line, which begins anew. -/
  restart (p : Pending) : List Block × Pending :=
    (p.close (n - 1) ++ (begin n l).1, (begin n l).2)

end Pending

/-- Reads lines after n others, with a block still open. -/
def readLines (n : Nat) (p : Pending) : List Text → List Block
  | [] => p.close n
  | l :: ls => (p.step (n + 1) l).1 ++ readLines (n + 1) (p.step (n + 1) l).2 ls

/-- The blocks of a document. -/
def blocks (s : Text) : List Block := readLines 0 .idle (lines s)

end Runbook.Markdown
