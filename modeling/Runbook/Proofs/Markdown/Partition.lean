import Mathlib.Tactic.Common
import Runbook.Markdown.Node
import Runbook.Proofs.Markdown.Extent

/-! The blocks of a document take all of its lines but blank ones, and each line at most once. -/
namespace Runbook.Markdown
open Text

/-- Lines that come after n others, cut from left to right: a blank line is passed over, or the next
block takes one line or more. -/
inductive Partition : Nat → List Text → List Block → Prop
  | nil (n : Nat) : Partition n [] []
  | blank {n : Nat} {l : Text} {ls : List Text} {bs : List Block} (blank : isBlankText l = true)
      (rest : Partition (n + 1) ls bs) : Partition n (l :: ls) bs
  | block {n : Nat} {b : Block} {part ls : List Text} {bs : List Block} (nonempty : part ≠ [])
      (first : b.first = n + 1) (last : b.last = n + part.length)
      (rest : Partition (n + part.length) ls bs) : Partition n (part ++ ls) (b :: bs)

namespace Partition
variable {n : Nat} {ls : List Text} {bs : List Block}

lemma blanks {gap : List Text} (hgap : ∀ l ∈ gap, isBlankText l = true)
    (rest : Partition (n + gap.length) ls bs) : Partition n (gap ++ ls) bs := by
  induction gap generalizing n with
  | nil => exact rest
  | cons l gap ih =>
    obtain ⟨hl, hgap⟩ := List.forall_mem_cons.mp hgap
    refine .blank hl (ih hgap ?_)
    rwa [Nat.add_assoc, Nat.add_comm 1]

/-- A line that is not blank is one of those of some block. -/
theorem exists_block (h : Partition n ls bs) {i : Nat} {l : Text} (hl : ls[i]? = some l)
    (hblank : isBlankText l = false) : ∃ b ∈ bs, b.first ≤ n + i + 1 ∧ n + i + 1 ≤ b.last := by
  induction h generalizing i with
  | nil n => cases hl
  | @blank n l' ls bs blank rest ih =>
    cases i with
    | zero =>
      obtain rfl : l' = l := by simpa using hl
      rw [blank] at hblank
      cases hblank
    | succ i =>
      obtain ⟨b, hb, hfirst, hlast⟩ := ih hl
      exact ⟨b, hb, by omega, by omega⟩
  | @block n b part ls bs nonempty first last rest ih =>
    by_cases hi : i < part.length
    · exact ⟨b, List.mem_cons_self, by omega, by omega⟩
    · rw [List.getElem?_append_right (Nat.le_of_not_lt hi)] at hl
      obtain ⟨c, hc, hfirst, hlast⟩ := ih hl
      exact ⟨c, List.mem_cons_of_mem b hc, by omega, by omega⟩

end Partition

namespace Pending

/-- The lines that the open block holds, which come after m others. Blank lines at the end of
indented code are held as well, until it is known whether they belong to it. -/
def Holds (m : Nat) (held : List Text) : Pending → Prop
  | idle => held = []
  | paragraph first _ => held ≠ [] ∧ first = m + 1
  | fenced first _ _ => held ≠ [] ∧ first = m + 1
  | indented first _ blanks => ∃ code gap, held = code ++ gap ∧ code ≠ [] ∧
      gap.length = blanks.length ∧ (∀ l ∈ gap, isBlankText l = true) ∧ first = m + 1
  | verbatim first _ => held ≠ [] ∧ first = m + 1

variable {m n : Nat} {held ls : List Text} {l : Text} {p q : Pending} {bs cs : List Block}

/-- What is open takes the lines that it holds when it ends. -/
lemma Holds.close (h : p.Holds m held) (rest : Partition (m + held.length) ls cs) :
    Partition m (held ++ ls) (p.close (m + held.length) ++ cs) := by
  cases p with
  | idle =>
    obtain rfl : held = [] := h
    exact rest
  | paragraph => exact .block h.1 h.2 rfl rest
  | fenced => exact .block h.1 h.2 rfl rest
  | indented first body blanks =>
    obtain ⟨code, gap, rfl, hcode, hlength, hgap, hfirst⟩ := h
    rw [List.length_append, ← Nat.add_assoc] at rest ⊢
    rw [List.append_assoc]
    refine .block hcode hfirst ?_ (.blanks hgap rest)
    dsimp only
    omega
  | verbatim => exact .block h.1 h.2 rfl rest

/-- The lines up to one more are cut as far as no block is open, if those that will follow are. -/
def Cuts (m : Nat) (held : List Text) (l : Text) (bs : List Block) (n : Nat) (q : Pending) : Prop :=
  ∃ m' held', m' + held'.length = n ∧ q.Holds m' held' ∧
    ∀ ls cs, Partition m' (held' ++ ls) cs → Partition m (held ++ l :: ls) (bs ++ cs)

/-- A line that completes a block on its own. -/
lemma cuts_line (b : Block) (hfirst : b.first = n + 1) (hlast : b.last = n + 1) :
    Cuts n [] l [b] (n + 1) idle := by
  refine ⟨n + 1, [], rfl, rfl, fun ls cs rest => ?_⟩
  change Partition n ([l] ++ ls) (b :: cs)
  exact .block (List.cons_ne_nil l []) hfirst hlast rest

/-- A line that is held together with those before it. -/
lemma cuts_more (hlength : m + held.length = n) (h : q.Holds m (held ++ [l])) :
    Cuts m held l [] (n + 1) q := by
  refine ⟨m, held ++ [l], ?_, h, fun ls cs rest => ?_⟩
  · rw [List.length_append, List.length_singleton, ← hlength, Nat.add_assoc]
  · rwa [List.append_assoc] at rest

lemma Begins.cuts (h : Begins (n + 1) l bs q) : Cuts n [] l bs (n + 1) q := by
  have opens {q : Pending} (hq : q.Holds n [l]) : Cuts n [] l [] (n + 1) q :=
    cuts_more rfl hq
  cases h with
  | blank blank => exact ⟨n + 1, [], rfl, rfl, fun _ _ rest => .blank blank rest⟩
  | fence => exact opens ⟨List.cons_ne_nil l [], rfl⟩
  | numbered => exact cuts_line _ rfl rfl
  | rule => exact cuts_line _ rfl rfl
  | code => exact opens ⟨[l], [], rfl, List.cons_ne_nil l [], rfl, List.forall_mem_nil _, rfl⟩
  | container => exact opens ⟨List.cons_ne_nil l [], rfl⟩
  | text => exact opens ⟨List.cons_ne_nil l [], rfl⟩

/-- The step: every line is passed over, or taken by a block, or held by the open one. -/
lemma Advances.cuts (h : Advances (m + held.length) l p bs q) (hp : p.Holds m held) :
    Cuts m held l bs (m + held.length + 1) q := by
  -- The lines of a block that ends with this line are those held and this one.
  have ends {b : Block} (hfirst : b.first = m + 1) (hlast : b.last = m + held.length + 1) :
      Cuts m held l [b] (m + held.length + 1) idle := by
    refine ⟨m + held.length + 1, [], rfl, rfl, fun ls cs rest => ?_⟩
    have hpart : (held ++ [l]).length = held.length + 1 := List.length_append
    rw [List.append_cons]
    exact .block (List.append_ne_nil_of_right_ne_nil _ (List.cons_ne_nil l [])) hfirst
      (by rw [hpart]; exact hlast) (by rw [hpart]; exact rest)
  have hne : held ++ [l] ≠ [] := List.append_ne_nil_of_right_ne_nil _ (List.cons_ne_nil l [])
  cases h with
  | restart begins =>
    obtain ⟨m', held', hlength, hholds, hcut⟩ := begins.cuts
    refine ⟨m', held', hlength, hholds, fun ls cs rest => ?_⟩
    rw [List.append_assoc]
    exact hp.close (hcut ls cs rest)
  | underline => exact ends hp.2 rfl
  | text => exact cuts_more rfl ⟨hne, hp.2⟩
  | closed => exact ends hp.2 rfl
  | fenced => exact cuts_more rfl ⟨hne, hp.2⟩
  | code =>
    obtain ⟨code, gap, rfl, hcode, -, -, hfirst⟩ := hp
    exact cuts_more rfl ⟨code ++ gap ++ [l], [], by simp, hne, rfl, List.forall_mem_nil _, hfirst⟩
  | blank blank =>
    obtain ⟨code, gap, rfl, hcode, hlength, hgap, hfirst⟩ := hp
    refine cuts_more rfl ⟨code, gap ++ [l], by simp, hcode, by simp [hlength], ?_, hfirst⟩
    intro x hx
    rcases List.mem_append.mp hx with hx | hx
    · exact hgap x hx
    · rwa [List.mem_singleton.mp hx]
  | verbatim => exact cuts_more rfl ⟨hne, hp.2⟩

end Pending

/-- The lines that are held and those that follow are cut into the blocks that are read. -/
theorem readLines_partition {m : Nat} {held : List Text} {p : Pending} (h : p.Holds m held)
    (ls : List Text) : Partition m (held ++ ls) (readLines (m + held.length) p ls) := by
  induction ls generalizing m held p with
  | nil =>
    have hclose := h.close (.nil (m + held.length))
    rwa [List.append_nil (p.close _)] at hclose
  | cons l ls ih =>
    obtain ⟨m', held', hlength, hholds, hcut⟩ := (p.advances (m + held.length) l).cuts h
    have hrest := ih hholds
    rw [hlength] at hrest
    exact hcut ls _ hrest

lemma Within.pairwise {lo hi : Nat} {bs : List Block} (h : Within lo hi bs) :
    bs.Pairwise fun b c => b.last < c.first := by
  induction bs generalizing lo with
  | nil => exact .nil
  | cons b bs ih =>
    obtain ⟨-, -, hrest⟩ := h
    exact .cons (fun c hc => (hrest.bounds hc).1) (ih hrest)

/-- The line with this number is one of those of the block. -/
def Block.Covers (b : Block) (line : Nat) : Prop := b.first ≤ line ∧ line ≤ b.last

instance (b : Block) (line : Nat) : Decidable (b.Covers line) :=
  inferInstanceAs (Decidable (_ ∧ _))

/-- No line is covered by two blocks. -/
lemma Within.eq_of_covers {lo hi : Nat} {bs : List Block} (h : Within lo hi bs) {b c : Block}
    (hb : b ∈ bs) (hc : c ∈ bs) {line : Nat} (hbl : b.Covers line) (hcl : c.Covers line) :
    b = c := by
  -- A block that comes after another starts beyond the lines of that one.
  have later {lo : Nat} {b c : Block} {bs : List Block} (hrest : Within (b.last + 1) lo bs)
      (hc : c ∈ bs) (hbl : b.Covers line) : ¬ c.Covers line := by
    intro hcl
    have := (hrest.bounds hc).1
    have := hbl.2
    have := hcl.1
    omega
  induction bs generalizing lo with
  | nil => cases hb
  | cons d ds ih =>
    obtain ⟨-, -, hrest⟩ := h
    rcases List.mem_cons.mp hb with rfl | hbs <;> rcases List.mem_cons.mp hc with rfl | hcs
    · rfl
    · exact absurd hcl (later hrest hcs hbl)
    · exact absurd hbl (later hrest hbs hcl)
    · exact ih hrest hbs hcs

def Node.span : Node → Option Span
  | mk _ s _ _ => s

/-- The span of a block in the tree of its document. -/
lemma Node.span_ofBlock (b : Block) : (Node.ofBlock b).span = some ⟨b.first, b.last⟩ := by
  obtain ⟨first, last, content⟩ := b
  cases content <;> rfl

/-- The blocks of a document stand one after another within its lines. Every line is a blank one
that is passed over, or one of the lines of exactly one block, and the document spans them all. -/
theorem blocks_partition (s : Text) :
    Partition 0 (lines s) (blocks s) ∧
    (∀ b ∈ blocks s, 1 ≤ b.first ∧ b.first ≤ b.last ∧ b.last ≤ (lines s).length) ∧
    (blocks s).Pairwise (fun b c => b.last < c.first) ∧
    (∀ i l, (lines s)[i]? = some l → isBlankText l = false →
      ∃! b, b ∈ blocks s ∧ b.Covers (i + 1)) ∧
    (∀ i l, (lines s)[i]? = some l → (∀ b ∈ blocks s, ¬ b.Covers (i + 1)) →
      isBlankText l = true) ∧
    (document s).span = some ⟨1, max (lines s).length 1⟩ ∧
    (document s).children.map Node.span =
      (blocks s).map fun b => some ⟨b.first, b.last⟩ := by
  have hidle : Pending.idle.Holds 0 [] := rfl
  have hcut : Partition 0 (lines s) (blocks s) := readLines_partition hidle (lines s)
  have covered {i : Nat} {l : Text} (hl : (lines s)[i]? = some l) (hblank : isBlankText l = false) :
      ∃ b ∈ blocks s, b.Covers (i + 1) := by
    obtain ⟨b, hb, hcovers⟩ := hcut.exists_block hl hblank
    rw [Nat.zero_add] at hcovers
    exact ⟨b, hb, hcovers⟩
  refine ⟨hcut, fun b hb => ?_, (blocks_within s).pairwise, fun i l hl hblank => ?_,
    fun i l hl hnone => ?_, rfl, ?_⟩
  · obtain ⟨hfirst, hlast, hend⟩ := (blocks_within s).bounds hb
    exact ⟨hfirst, hlast, Nat.le_of_lt_succ hend⟩
  · obtain ⟨b, hb, hcovers⟩ := covered hl hblank
    exact ⟨b, ⟨hb, hcovers⟩, fun c hc => (blocks_within s).eq_of_covers hc.1 hb hc.2 hcovers⟩
  · by_contra hblank
    obtain ⟨b, hb, hcovers⟩ := covered hl (by simpa using hblank)
    exact hnone b hb hcovers
  · change ((blocks s).map Node.ofBlock).map Node.span = _
    rw [List.map_map]
    exact List.map_congr_left fun b _ => Node.span_ofBlock b

/-- Indented code with a blank line in it and others after it, a title on two lines, and a fence
without an end. -/
def leaflet : Text :=
  unlines ["    make", "", "    make test", "", " ", "More", "targets", "---", "~~~", "", "clean"]

theorem blocks_partition_leaflet :
    ((lines leaflet)[6]? = some "targets".toList ∧ isBlankText "targets".toList = false ∧
      ∃! b, b ∈ blocks leaflet ∧ b.Covers 7) ∧
    ((lines leaflet)[4]? = some " ".toList ∧ (∀ b ∈ blocks leaflet, ¬ b.Covers 5) ∧
      isBlankText " ".toList = true) := by
  have title : (lines leaflet)[6]? = some "targets".toList := by decide
  have gap : (lines leaflet)[4]? = some " ".toList := by decide
  have apart : ∀ b ∈ blocks leaflet, ¬ b.Covers 5 := by decide +kernel
  obtain ⟨-, -, -, covered, uncovered, -, -⟩ := blocks_partition leaflet
  exact ⟨⟨title, by decide, covered 6 _ title (by decide)⟩, gap, apart, uncovered 4 _ gap apart⟩

end Runbook.Markdown
