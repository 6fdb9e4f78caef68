import DStore.Index.LeftWalk
import Mathlib.Data.Fintype.EquivFin

/-!
# Walking right along the leaves

A forward scan keeps the right link of the page it has read and reads that page later, when others
may have split or unlinked pages. It passes pages that are unlinked by then.
-/

namespace DStore

open List LeafChain

/-- The loop of `WalkRightOnLeaf` over the calls of a scan: `reads` are the leaves at its successive
page reads. The pages it filters, and the page it would read next. -/
def walkRightOnLeaf : List LeafChain → Option PageId → List PageId × Option PageId
  | s :: reads, some currPage =>
    let (pages, nextPage) := walkRightOnLeaf reads (s.link currPage).next
    (if (s.link currPage).isUnlinked then pages else currPage :: pages, nextPage)
  | _, nextPage => ([], nextPage)

/-- What a walk to the right owes its caller, in places of the leaves `t` as it saw them last: it
goes right with every page, and a leaf right of its start that was live at all reads is among its
pages, or does not lie before the page it would read next. -/
structure RightNoSkip (reads : List LeafChain) (t : LeafChain) (start : PageId)
    (pages : List PageId) (nextPage : Option PageId) : Prop where
  ascending : (start :: pages).Pairwise (t.place · < t.place ·)
  visited : ∀ leaf, (∀ s ∈ reads, s.Live leaf) → t.place start < t.place leaf →
    leaf ∈ pages ∨ ∃ next, nextPage = some next ∧ t.place next ≤ t.place leaf

variable {s t : LeafChain} {reads : List LeafChain} {currPage next : PageId}

/-- The invariant holds in every reachable chain. -/
lemma LeafChain.Reachable.inv (hs : s.Reachable) : s.Inv := by
  obtain ⟨root, hroot⟩ := hs
  exact hroot.inv (oneLeaf_inv root)

/-- The right links that a page taken out of the chain starts lead to the first page of the chain
behind it. -/
lemma LeafChain.Inv.stale_right (h : s.Inv) {p : PageId} (hp : p ∈ s.leaves)
    (hout : ¬ s.InChain p) :
    ∃ q, Relation.TransGen (fun a b => (s.link a).next = some b) p q ∧ s.InChain q ∧
      s.place p < s.place q ∧ ∀ z, s.InChain z → s.place p < s.place z → s.place q ≤ s.place z := by
  -- the links go right, and there are finitely many leaves
  have htrans : IsTrans { x // x ∈ s.leaves } fun a b => s.place b < s.place a :=
    ⟨fun _ _ _ hab hbc => hbc.trans hab⟩
  have hirrefl : Std.Irrefl fun a b : { x // x ∈ s.leaves } => s.place b < s.place a :=
    ⟨fun _ => lt_irrefl _⟩
  induction hx : (⟨p, hp⟩ : { x // x ∈ s.leaves }) using
    (Finite.wellFounded_of_trans_of_irrefl fun a b : { x // x ∈ s.leaves } =>
      s.place b < s.place a).induction generalizing p with
  | _ x ih =>
    subst hx
    obtain ⟨n, hn, hnext, hlt, hfirst⟩ := h.stale_next p hp hout
    by_cases hin : s.InChain n
    · exact ⟨n, .single hnext, hin, hlt, hfirst⟩
    · obtain ⟨q, hpath, hq, hltq, hfirstq⟩ := ih ⟨n, hn⟩ hlt hn hin rfl
      refine ⟨q, .head hnext hpath, hq, hlt.trans hltq, fun z hz hgt => hfirstq z hz ?_⟩
      -- a page of the chain does not stand where the one taken out stood
      refine (hfirst z hz hgt).lt_of_ne fun heq => hin ?_
      rw [h.inj n hn z hz.1 heq]
      exact hz

/-- Whatever is split and unlinked, the links of the chain are those of its neighbours, both ways.
A leaf that was taken out has a right link, and right links lead from it to the first page of the
chain behind it. -/
theorem LeafChain.Reachable.doublyLinked (hs : s.Reachable) :
    (∀ p q, s.InChain p → ((s.link p).next = some q ↔ s.Adj p q)) ∧
    (∀ p q, s.InChain q → ((s.link q).prev = some p ↔ s.Adj p q)) ∧
    ∀ p ∈ s.leaves, ¬ s.InChain p →
      ∃ q, Relation.TransGen (fun a b => (s.link a).next = some b) p q ∧ s.InChain q ∧
        s.place p < s.place q ∧ ∀ z, s.InChain z → s.place p < s.place z →
          s.place q ≤ s.place z :=
  ⟨hs.inv.next_iff, hs.inv.prev_iff, fun _ hp hout => hs.inv.stale_right hp hout⟩

/-- Three leaves, of which the first is taken out and then the second. -/
def takenOut : ℕ → LeafChain
  | 0 => rowOfLeaves 2
  | n + 1 => ((takenOut n).unlinkFromParent (smallPage n)).unlinkFromSiblings (smallPage n)

lemma takenOut_reachable {n : ℕ} (hn : n ≤ 2) : (takenOut n).Reachable := by
  refine ⟨smallPage 0, ?_⟩
  induction n with
  | zero => exact rowOfLeaves_later (by decide)
  | succ n ih =>
    have hlt : n < 2 := by omega
    have hparent : (takenOut n).Unlink ((takenOut n).unlinkFromParent (smallPage n)) := by
      refine @LeafChain.Unlink.fromParent _ _ (smallPage (n + 1)) ?_ ?_ ?_ <;>
        interval_cases n <;> decide +kernel
    refine ((ih hlt.le).tail (.inr hparent)).tail (.inr ?_)
    refine @LeafChain.Unlink.fromSiblings _ _ (smallPage (n + 1)) ?_ ?_ ?_ ?_ <;>
      interval_cases n <;> decide +kernel

/-- The first leaf still names the second, and right links lead on to the third. -/
theorem doublyLinked_takenOut :
    ((takenOut 2).link (smallPage 0)).next = some (smallPage 1) ∧
    ¬ (takenOut 2).InChain (smallPage 1) ∧
    ∃ q, Relation.TransGen (fun a b => ((takenOut 2).link a).next = some b) (smallPage 0) q ∧
      (takenOut 2).InChain q := by
  obtain ⟨q, hpath, hq, -⟩ := (takenOut_reachable le_rfl).doublyLinked.2.2 (smallPage 0)
    (by decide +kernel) (by decide +kernel)
  exact ⟨by decide +kernel, by decide +kernel, q, hpath, hq⟩

/-- What comes later is reachable too. -/
lemma LeafChain.Reachable.later (hs : s.Reachable) (ht : Later s t) : t.Reachable := by
  obtain ⟨root, hroot⟩ := hs
  exact ⟨root, hroot.trans ht⟩

/-- Before it reads on, the walk has skipped nothing: the right link is the first page of the chain
behind the current one. -/
lemma RightNoSkip.start (hs : s.Inv) (ht : Later s t) (hcurr : currPage ∈ s.leaves) :
    RightNoSkip (s :: reads) t currPage [] (s.link currPage).next := by
  refine ⟨pairwise_singleton _ _, fun leaf hlive hgt => .inr ?_⟩
  have hleaf := hlive s mem_cons_self
  rw [ht.place hcurr, ht.place hleaf.1] at hgt
  rcases hnext : (s.link currPage).next with _ | next
  · exact absurd hgt (hs.next_none currPage hcurr hnext leaf hleaf.inChain).not_gt
  · obtain ⟨hmem, _, hfirst⟩ := hs.next_spec hcurr hnext
    refine ⟨next, rfl, ?_⟩
    rw [ht.place hmem, ht.place hleaf.1]
    exact hfirst leaf hleaf.inChain hgt

/-- The page read next is filtered, unless it is unlinked by then. -/
lemma RightNoSkip.step {pages : List PageId} {nextPage : Option PageId} {s' : LeafChain}
    (hs : s.Inv) (ht : Later s t) (hcurr : currPage ∈ s.leaves)
    (hnext : (s.link currPage).next = some next)
    (h : RightNoSkip (s' :: reads) t next pages nextPage) :
    RightNoSkip (s :: s' :: reads) t currPage
      (if (s'.link next).isUnlinked then pages else next :: pages) nextPage := by
  obtain ⟨hmem, hlt, _⟩ := hs.next_spec hcurr hnext
  rw [← ht.place hcurr, ← ht.place hmem] at hlt
  have hasc : (currPage :: next :: pages).Pairwise (t.place · < t.place ·) := by
    refine pairwise_cons.mpr ⟨fun page hpage => ?_, h.ascending⟩
    rcases mem_cons.mp hpage with rfl | hpage
    · exact hlt
    · exact hlt.trans (rel_of_pairwise_cons h.ascending hpage)
  refine ⟨?_, fun leaf hlive hgt => ?_⟩
  · split
    · exact hasc.sublist ((sublist_cons_self next pages).cons_cons currPage)
    · exact hasc
  have hleaf := hlive s mem_cons_self
  have hle : t.place next ≤ t.place leaf := by
    simpa [hnext] using (RightNoSkip.start hs ht hcurr).visited leaf hlive hgt
  rcases hle.eq_or_lt with heq | hgt'
  · -- the page read next is the leaf itself, which is not unlinked then
    rw [ht.place hmem, ht.place hleaf.1] at heq
    obtain rfl := hs.inj next hmem leaf hleaf.1 heq
    have hseen := (hlive s' (mem_cons_of_mem s mem_cons_self)).2
    simp [hseen]
  · refine (h.visited leaf (fun u hu => hlive u (mem_cons_of_mem s hu)) hgt').imp_left fun hin => ?_
    split
    · exact hin
    · exact mem_cons_of_mem next hin

/-- A forward scan skips no leaf and goes back to none, whatever is split and unlinked between its
page reads. -/
theorem walkRightOnLeaf_noSkip (s t : LeafChain) (reads : List LeafChain) (currPage : PageId)
    (hs : s.Reachable) (hcurr : currPage ∈ s.leaves) (hreads : (s :: reads).Pairwise Later)
    (ht : (s :: reads).getLast? = some t) :
    RightNoSkip (s :: reads) t currPage (walkRightOnLeaf reads (s.link currPage).next).1
      (walkRightOnLeaf reads (s.link currPage).next).2 := by
  induction reads generalizing s currPage with
  | nil =>
    obtain rfl : s = t := by simpa using ht
    simpa [walkRightOnLeaf] using RightNoSkip.start hs.inv (Later.refl s) hcurr
  | cons s' reads ih =>
    have hlater : Later s t := rel_of_pairwise_cons hreads (mem_of_getLast? (by simpa using ht))
    rcases hnext : (s.link currPage).next with _ | next
    · simpa [walkRightOnLeaf, hnext] using RightNoSkip.start hs.inv hlater hcurr
    have hs' : Later s s' := rel_of_pairwise_cons hreads mem_cons_self
    have hmem := hs'.mem (hs.inv.next_spec hcurr hnext).1
    have hrest := ih s' next (hs.later hs') hmem hreads.of_cons (by simpa using ht)
    exact hrest.step hs.inv hlater hcurr hnext

theorem walkRightOnLeaf_noSkip_two :
    RightNoSkip [twoLeaves, twoLeaves] twoLeaves (smallPage 0) [smallPage 1] none :=
  walkRightOnLeaf_noSkip twoLeaves twoLeaves [twoLeaves] (smallPage 0) twoLeaves_reachable
    (by decide) (by simp [Later.refl]) rfl

end DStore
