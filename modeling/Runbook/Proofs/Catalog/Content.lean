import Mathlib.Tactic.Common
import Runbook.Proofs.Catalog.Heading
import Runbook.Proofs.Catalog.Location
import Runbook.Proofs.Markdown.Content

/-! What headings and code bring with them is made of parts of the document. -/
namespace Runbook
open Text

namespace Heading

lemma infix_name (s : Text) : (parse s).name <:+: s := by
  rcases parse_cases s with ⟨-, hwhole⟩ | ⟨w, rfl⟩
  · rw [hwhole]
  · rw [w.parse_eq]
    exact (infix_trim w.before).trans (List.prefix_append w.before _).isInfix

end Heading

namespace Catalog.Event
open Markdown

variable {D : Text → Prop}

/-- The name in a heading and the info string of code have a property, and so have the lines of the
code. -/
def Has (D : Text → Prop) : Event → Prop
  | .heading _ _ h => D h.name
  | .source _ _ words body => D (unwords words) ∧ ∃ ls, body = unlines ls ∧ ∀ l ∈ ls, D l
  | _ => True

lemma headingOf_name (ns : List Node) :
    (headingOf ns).name = (Heading.parse (Node.plainText ns)).name := by
  unfold headingOf
  dsimp only
  split
  · rfl
  · split <;> rfl

lemma mem_words_of_infoWords {info w : Text} (h : w ∈ (infoWords info).2) : w ∈ words info := by
  unfold infoWords at h
  split at h
  · cases h
  · next first rest hwords =>
    rw [hwords]
    exact List.mem_cons_of_mem first h

/-- Whatever the document and the parts of it have, its events have. -/
theorem document_has (hD : Hereditary D) {s : Text} (hs : D s) {e : Event}
    (h : e ∈ ofNode (document s)) : e.Has D := by
  rw [ofNode_document, List.mem_append] at h
  rcases h with h | h
  · obtain ⟨b, hb, he⟩ := List.mem_flatMap.mp h
    have hhas := blocks_has hD hs b hb
    obtain ⟨first, last, content⟩ := b
    cases content with
    | heading level title =>
      obtain rfl := List.mem_singleton.mp he
      obtain ⟨t, rfl, ht⟩ := hhas
      change D (headingOf _).name
      rw [headingOf_name]
      exact hD.part (Heading.infix_name _) (plainText_has hD (inline_has hD ht))
    | paragraph => cases List.mem_singleton.mp he; trivial
    | code info body =>
      obtain rfl := List.mem_singleton.mp he
      obtain ⟨hinfo, hbody⟩ := hhas
      refine ⟨hD.unwords fun w hw => ?_, hbody⟩
      exact hD.part (infix_of_mem_words (mem_words_of_infoWords hw)) hinfo
    | verbatim => cases he
  · cases List.mem_singleton.mp h
    trivial

end Catalog.Event
end Runbook
