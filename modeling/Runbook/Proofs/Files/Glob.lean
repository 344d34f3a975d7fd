import Mathlib.Tactic.Common
import Runbook.Files.Glob
import Runbook.Proofs.Files.Surroundings

/-! The search for what fits a pattern. The order in which directories list their entries decides at
most whether the search comes to an end, and not what comes of it. -/
namespace Runbook

lemma anyM_true {α : Type} {f : α → Except Failure Bool} {xs : List α}
    (h : xs.anyM f = .ok true) : ∃ x ∈ xs, f x = .ok true := by
  induction xs with
  | nil => cases h
  | cons x xs ih =>
    rw [List.anyM] at h
    cases hx : f x with
    | error e => rw [hx] at h; cases h
    | ok found =>
      rw [hx] at h
      cases found with
      | true => exact ⟨x, List.mem_cons_self, hx⟩
      | false =>
        obtain ⟨y, hy, hfound⟩ := ih h
        exact ⟨y, List.mem_cons_of_mem x hy, hfound⟩

lemma anyM_false {α : Type} {f : α → Except Failure Bool} {xs : List α}
    (h : xs.anyM f = .ok false) : ∀ x ∈ xs, f x = .ok false := by
  induction xs with
  | nil => exact List.forall_mem_nil _
  | cons x xs ih =>
    rw [List.anyM] at h
    cases hx : f x with
    | error e => rw [hx] at h; cases h
    | ok found =>
      rw [hx] at h
      cases found with
      | true => cases h
      | false => exact List.forall_mem_cons.mpr ⟨hx, ih h⟩

/-- Two searches through things that answer alike do not come to different ends. -/
lemma anyM_unique {α : Type} {f g : α → Except Failure Bool} {xs ys : List α}
    (there : ∀ x ∈ xs, ∃ y ∈ ys, ∀ b c, f x = .ok b → g y = .ok c → b = c)
    (back : ∀ y ∈ ys, ∃ x ∈ xs, ∀ b c, f x = .ok b → g y = .ok c → b = c) {b c : Bool}
    (hb : xs.anyM f = .ok b) (hc : ys.anyM g = .ok c) : b = c := by
  cases b with
  | true =>
    cases c with
    | true => rfl
    | false =>
      obtain ⟨x, hx, hfound⟩ := anyM_true hb
      obtain ⟨y, hy, halike⟩ := there x hx
      exact halike _ _ hfound (anyM_false hc y hy)
  | false =>
    cases c with
    | false => rfl
    | true =>
      obtain ⟨y, hy, hfound⟩ := anyM_true hc
      obtain ⟨x, hx, halike⟩ := back y hy
      exact halike _ _ (anyM_false hb x hx) hfound

namespace Glob

variable {s s' : Surroundings}

lemma found_name (s : Surroundings) (p : Path) (part : Text) (ps : List Part) :
    found s p (.name part :: ps) =
      (if ps.isEmpty then s.has (p.child part) else s.isDirectory (p.child part)).bind fun there =>
        if there then found s (p.child part) ps else .ok false := by
  rw [found]
  split <;> rfl

lemma found_wild (s : Surroundings) (p : Path) (pattern : List Piece) (ps : List Part) :
    found s p (.wild pattern :: ps) = (s.entries p).bind fun es => es.anyM fun e =>
      if (ps.isEmpty || e.2.isDirectory) && fits pattern e.1 then found s (p.child e.1) ps
      else .ok false := rfl

lemma found_deep (s : Surroundings) (p : Path) (ps : List Part) :
    found s p (.deep :: ps) = (s.directories p).bind fun ways => ways.anyM fun way =>
      found s { p with parts := p.parts ++ way } ps := rfl

/-- Where the search for a pattern comes to an end in both orders, it comes to the same end. -/
theorem found_unique (h : s.Relisted s') {parts : List Part} {p : Path} {b c : Bool}
    (hb : found s p parts = .ok b) (hc : found s' p parts = .ok c) : b = c := by
  induction parts generalizing p b c with
  | nil => exact Except.ok.inj (hb.symm.trans hc)
  | cons part ps ih =>
    cases part with
    | stop => exact Except.ok.inj (hb.symm.trans hc)
    | name part =>
      rw [found_name] at hb hc
      rw [← h.has_eq, ← h.isDirectory_eq] at hc
      obtain ⟨there, hthere, hb⟩ := bind_ok hb
      obtain ⟨there', hthere', hc⟩ := bind_ok hc
      obtain rfl := Except.ok.inj (hthere.symm.trans hthere')
      cases there with
      | true => exact ih hb hc
      | false => exact Except.ok.inj (hb.symm.trans hc)
    | wild pattern =>
      rw [found_wild] at hb hc
      obtain ⟨es, hes, hb⟩ := bind_ok hb
      obtain ⟨es', hes', hc⟩ := bind_ok hc
      -- Entries of one name lead to the same, and count alike as directories.
      have same (name : Text) (e e' : Tree) (hdirectory : e.isDirectory = e'.isDirectory) :
          ∀ b c, (if (ps.isEmpty || e.isDirectory) && fits pattern name then
              found s (p.child name) ps else .ok false) = .ok b →
            (if (ps.isEmpty || e'.isDirectory) && fits pattern name then
              found s' (p.child name) ps else .ok false) = .ok c → b = c := by
        intro b c hb hc
        rw [← hdirectory] at hc
        split at hb
        · next hfits =>
          rw [if_pos hfits] at hc
          exact ih hb hc
        · next hfits =>
          rw [if_neg hfits] at hc
          exact Except.ok.inj (hb.symm.trans hc)
      refine anyM_unique ?_ ?_ hb hc
      · intro e he
        obtain ⟨e', he', hdirectory⟩ := h.exists_entry hes hes' he
        exact ⟨(e.1, e'), he', same e.1 e.2 e' hdirectory⟩
      · intro e' he'
        obtain ⟨e, he, hdirectory⟩ := h.symm.exists_entry hes' hes he'
        exact ⟨(e'.1, e), he, same e'.1 e e'.2 hdirectory.symm⟩
    | deep =>
      rw [found_deep] at hb hc
      obtain ⟨ways, hways, hb⟩ := bind_ok hb
      obtain ⟨ways', hways', hc⟩ := bind_ok hc
      have hsame (way : Place) : way ∈ ways ↔ way ∈ ways' := h.mem_directories hways hways'
      refine anyM_unique ?_ ?_ hb hc
      · exact fun way hway => ⟨way, (hsame way).mp hway, fun _ _ => ih⟩
      · exact fun way hway => ⟨way, (hsame way).mpr hway, fun _ _ => ih⟩

end Glob
end Runbook
