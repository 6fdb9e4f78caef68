import DStore.Common.Types
import Mathlib.Algebra.Order.Field.Rat
import Mathlib.Data.Finset.Max
import Mathlib.Data.List.Chain

/-!
# The chain of leaves

The sibling links of the leaves while others split and unlink them. A leaf has a place in the
key order for good: the right half of a split comes right behind the leaf that was split. A
leaf is unlinked in two steps, first from its parent, then from its siblings; after the
second it keeps its last links.
-/

namespace DStore

open Function

/-- `BtrPageLiveStatus`. -/
inductive BtrPageLiveStatus where
  | emptyNoParentNoSib
  | normalUsing
  | emptyHasParentHasSib
  | emptyNoParentHasSib
deriving DecidableEq, Repr

/-- The part of `BtrPageLinkAndStatus` a walk along the leaves reads. -/
structure LeafLink where
  prev : Option PageId
  next : Option PageId
  liveStatus : BtrPageLiveStatus
deriving DecidableEq, Repr

/-- `IsUnlinked`. -/
def LeafLink.isUnlinked (link : LeafLink) : Bool :=
  link.liveStatus == .emptyNoParentHasSib || link.liveStatus == .emptyNoParentNoSib

/-- The leaves of an index: all that have been in the chain so far, their places in the key
order, and their links. -/
structure LeafChain where
  leaves : List PageId
  place : PageId → ℚ
  link : PageId → LeafLink

namespace LeafChain

variable (s : LeafChain)

/-- The leaf is reached along the sibling links. -/
def InChain (p : PageId) : Prop :=
  p ∈ s.leaves ∧ (s.link p).liveStatus ≠ .emptyNoParentNoSib

/-- The leaf is not unlinked. -/
def Live (p : PageId) : Prop := p ∈ s.leaves ∧ (s.link p).isUnlinked = false

instance decidableInChain (p : PageId) : Decidable (s.InChain p) :=
  inferInstanceAs (Decidable (_ ∧ _))

instance decidableLive (p : PageId) : Decidable (s.Live p) :=
  inferInstanceAs (Decidable (_ ∧ _))

/-! ## What others do -/

/-- One page's link with a new right link. -/
def setNext (link : PageId → LeafLink) (p : PageId) (next : Option PageId) : PageId → LeafLink :=
  update link p { link p with next := next }

/-- One page's link with a new left link. -/
def setPrev (link : PageId → LeafLink) (p : PageId) (prev : Option PageId) : PageId → LeafLink :=
  update link p { link p with prev := prev }

/-- A split of leaf `p`: the new right page takes over the right link, and the old right
sibling links back to it. -/
def split (p new : PageId) (place : ℚ) : LeafChain where
  leaves := new :: s.leaves
  place := update s.place new place
  link :=
    let old := (s.link p).next
    let linked := setNext s.link p (some new)
    let relinked := match old with
      | none => linked
      | some right => setPrev linked right (some new)
    update relinked new ⟨some p, old, .normalUsing⟩

/-- `DoUnlinkFromParent`: the leaf stays among its siblings. -/
def unlinkFromParent (p : PageId) : LeafChain :=
  { s with link := update s.link p { s.link p with liveStatus := .emptyNoParentHasSib } }

/-- `DoUnlinkFromSiblings`: the siblings are linked to each other, the leaf keeps its links. -/
def unlinkFromSiblings (p : PageId) : LeafChain :=
  { s with
    link :=
      let right := (s.link p).next
      let left := (s.link p).prev
      let linked := match left with
        | none => s.link
        | some l => setNext s.link l right
      let relinked := match right with
        | none => linked
        | some r => setPrev linked r left
      update relinked p { s.link p with liveStatus := .emptyNoParentNoSib } }

/-- A leaf is split: it is not unlinked, and the new page comes right behind it. -/
inductive Split : LeafChain → LeafChain → Prop
  | mk {s : LeafChain} {p new : PageId} {place : ℚ} (live : s.Live p) (fresh : new ∉ s.leaves)
      (after : s.place p < place) (before : ∀ q ∈ s.leaves, s.place p < s.place q →
        place < s.place q) : Split s (s.split p new place)

/-- A step of unlinking a leaf that is not the rightmost one and whose right sibling is not
half unlinked itself. -/
inductive Unlink : LeafChain → LeafChain → Prop
  | fromParent {s : LeafChain} {p right : PageId} (live : s.Live p)
      (next : (s.link p).next = some right)
      (sibling : (s.link right).liveStatus ≠ .emptyNoParentHasSib) :
      Unlink s (s.unlinkFromParent p)
  | fromSiblings {s : LeafChain} {p right : PageId} (mem : p ∈ s.leaves)
      (half : (s.link p).liveStatus = .emptyNoParentHasSib)
      (next : (s.link p).next = some right)
      (sibling : (s.link right).liveStatus ≠ .emptyNoParentHasSib) :
      Unlink s (s.unlinkFromSiblings p)

/-- A step of another thread. -/
def Change (s s' : LeafChain) : Prop := Split s s' ∨ Unlink s s'

end LeafChain

/-! ## The links over time -/

namespace LeafChain

variable {s s' : LeafChain} {p q r new : PageId} {pl : ℚ}

/-- `q` comes right behind `p` in the chain. -/
structure Adj (s : LeafChain) (p q : PageId) : Prop where
  left : s.InChain p
  right : s.InChain q
  lt : s.place p < s.place q
  first : ∀ z, s.InChain z → s.place p < s.place z → s.place q ≤ s.place z

/-- What the links say: those of a page in the chain lead to its neighbours, and what a page
kept that has left the chain still points the right way. -/
structure Inv (s : LeafChain) : Prop where
  inj : ∀ p ∈ s.leaves, ∀ q ∈ s.leaves, s.place p = s.place q → p = q
  next_iff : ∀ p q, s.InChain p → ((s.link p).next = some q ↔ s.Adj p q)
  prev_iff : ∀ p q, s.InChain q → ((s.link q).prev = some p ↔ s.Adj p q)
  stale_next : ∀ p ∈ s.leaves, ¬ s.InChain p → ∃ n ∈ s.leaves, (s.link p).next = some n ∧
    s.place p < s.place n ∧ ∀ z, s.InChain z → s.place p < s.place z → s.place n ≤ s.place z
  stale_prev : ∀ p ∈ s.leaves, ¬ s.InChain p → (∀ n, (s.link p).prev = some n → n ∈ s.leaves) ∧
    ((s.link p).prev = none → ∀ z, s.InChain z → s.place p ≤ s.place z)

lemma Live.inChain (h : s.Live p) : s.InChain p := by
  refine ⟨h.1, fun hno => ?_⟩
  have hlive := h.2
  simp [LeafLink.isUnlinked, hno] at hlive

/-- The new leaf is linked between the split leaf and its right neighbour. -/
lemma split_link_new : (s.split p new pl).link new = ⟨some p, (s.link p).next, .normalUsing⟩ := by
  simp [split]

lemma setNext_apply {link : PageId → LeafLink} {next : Option PageId} : setNext link p next q =
    { link q with next := if q = p then next else (link q).next } := by
  by_cases hq : q = p
  · simp [setNext, hq]
  · simp [setNext, hq]

lemma setPrev_apply {link : PageId → LeafLink} {prev : Option PageId} : setPrev link p prev q =
    { link q with prev := if q = p then prev else (link q).prev } := by
  by_cases hq : q = p
  · simp [setPrev, hq]
  · simp [setPrev, hq]

/-- A split changes the right link of its leaf and the left link of the neighbour. -/
lemma split_link (hq : q ≠ new) :
    (s.split p new pl).link q =
      { prev := if (s.link p).next = some q then some new else (s.link q).prev
        next := if q = p then some new else (s.link q).next
        liveStatus := (s.link q).liveStatus } := by
  rcases hnext : (s.link p).next with _ | right
  · simp [split, hq, hnext, setNext_apply]
  · simp [split, hq, hnext, setNext_apply, setPrev_apply, eq_comm]

@[simp]
lemma split_place_new : (s.split p new pl).place new = pl := by simp [split]

lemma split_place (hq : q ≠ new) : (s.split p new pl).place q = s.place q := by
  simp [split, hq]

lemma mem_split : q ∈ (s.split p new pl).leaves ↔ q = new ∨ q ∈ s.leaves := by simp [split]

lemma inChain_split_new : (s.split p new pl).InChain new := by
  refine ⟨mem_split.mpr (.inl rfl), ?_⟩
  rw [split_link_new]
  exact BtrPageLiveStatus.noConfusion

/-- A split adds its new leaf to the chain and nothing else. -/
lemma inChain_split (hq : q ≠ new) : (s.split p new pl).InChain q ↔ s.InChain q := by
  simp [InChain, mem_split, split_link hq, hq]

lemma live_split_new : (s.split p new pl).Live new := by
  refine ⟨mem_split.mpr (.inl rfl), ?_⟩
  rw [split_link_new]
  rfl

/-- A split leaves the other leaves as live as they were. -/
lemma live_split (hq : q ≠ new) : (s.split p new pl).Live q ↔ s.Live q := by
  simp [Live, mem_split, split_link hq, hq, LeafLink.isUnlinked]

@[simp]
lemma unlinkFromParent_leaves : (s.unlinkFromParent p).leaves = s.leaves := rfl

@[simp]
lemma unlinkFromParent_place : (s.unlinkFromParent p).place = s.place := rfl

/-- Unlinking from the parent changes the live status only. -/
lemma unlinkFromParent_link : (s.unlinkFromParent p).link q = { s.link q with
    liveStatus := if q = p then .emptyNoParentHasSib else (s.link q).liveStatus } := by
  by_cases hq : q = p
  · simp [unlinkFromParent, hq]
  · simp [unlinkFromParent, hq]

/-- The leaf stays in the chain. -/
lemma inChain_unlinkFromParent (hp : s.Live p) :
    (s.unlinkFromParent p).InChain q ↔ s.InChain q := by
  by_cases hq : q = p
  · subst hq
    have hin := hp.inChain
    simp only [hin, iff_true]
    exact ⟨hin.1, by simp [unlinkFromParent]⟩
  · simp [InChain, unlinkFromParent, hq]

@[simp]
lemma unlinkFromSiblings_place : (s.unlinkFromSiblings p).place = s.place := rfl

lemma unlinkFromSiblings_link_self :
    (s.unlinkFromSiblings p).link p = { s.link p with liveStatus := .emptyNoParentNoSib } := by
  simp [unlinkFromSiblings]

/-- The neighbours of the leaf are linked to each other. -/
lemma unlinkFromSiblings_link (hq : q ≠ p) :
    (s.unlinkFromSiblings p).link q =
      { prev := if (s.link p).next = some q then (s.link p).prev else (s.link q).prev
        next := if (s.link p).prev = some q then (s.link p).next else (s.link q).next
        liveStatus := (s.link q).liveStatus } := by
  rcases hnext : (s.link p).next with _ | right <;> rcases hprev : (s.link p).prev with _ | left <;>
    simp [unlinkFromSiblings, hnext, hprev, hq, setNext_apply, setPrev_apply, eq_comm]

/-! ## Reading the links -/

/-- Nothing of the chain lies between neighbours. -/
lemma Adj.last (h : s.Adj p q) (z : PageId) (hz : s.InChain z) (hlt : s.place z < s.place q) :
    s.place z ≤ s.place p := by
  by_contra hgt
  exact absurd (h.first z hz (not_le.mp hgt)) (not_le.mpr hlt)

/-- A leaf with a leaf of the chain behind it has a right neighbour. -/
lemma exists_adj_right (hp : s.InChain p) (hq : s.InChain q) (hlt : s.place p < s.place q) :
    ∃ n, s.Adj p n := by
  obtain ⟨n, hn, hmin⟩ := (s.leaves.toFinset.filter fun z => s.InChain z ∧ s.place p < s.place z)
    |>.exists_min_image s.place ⟨q, by simp [hq, hq.1, hlt]⟩
  simp only [Finset.mem_filter, List.mem_toFinset] at hn hmin
  exact ⟨n, hp, hn.2.1, hn.2.2, fun z hz hgt => hmin z ⟨hz.1, hz, hgt⟩⟩

/-- A leaf with a leaf of the chain before it has a left neighbour. -/
lemma exists_adj_left (hp : s.InChain p) (hq : s.InChain q) (hlt : s.place p < s.place q) :
    ∃ n, s.Adj n q := by
  obtain ⟨n, hn, hmax⟩ := (s.leaves.toFinset.filter fun z => s.InChain z ∧ s.place z < s.place q)
    |>.exists_max_image s.place ⟨p, by simp [hp, hp.1, hlt]⟩
  simp only [Finset.mem_filter, List.mem_toFinset] at hn hmax
  refine ⟨n, hn.2.1, hq, hn.2.2, fun z hz hgt => ?_⟩
  by_contra hlt'
  exact absurd (hmax z ⟨hz.1, hz, not_le.mp hlt'⟩) (not_le.mpr hgt)

namespace Inv

variable (h : s.Inv)

include h

/-- The left neighbour is unique, as places are. -/
lemma adj_left_unique (hq : s.Adj p q) (hr : s.Adj r q) : p = r :=
  h.inj p hq.left.1 r hr.left.1 (le_antisymm (hr.last p hq.left hq.lt) (hq.last r hr.left hr.lt))

lemma adj_right_unique (hq : s.Adj p q) (hr : s.Adj p r) : q = r :=
  h.inj q hq.right.1 r hr.right.1 (le_antisymm (hq.first r hr.right hr.lt)
    (hr.first q hq.right hq.lt))

/-- The right link of a leaf, one taken out too, is the first page of the chain behind it. -/
lemma next_spec {n : PageId} (hp : p ∈ s.leaves) (hn : (s.link p).next = some n) :
    n ∈ s.leaves ∧ s.place p < s.place n ∧
      ∀ z, s.InChain z → s.place p < s.place z → s.place n ≤ s.place z := by
  by_cases hin : s.InChain p
  · have hadj := (h.next_iff p n hin).mp hn
    exact ⟨hadj.right.1, hadj.lt, hadj.first⟩
  · obtain ⟨m, hm, hnext, hlt, hfirst⟩ := h.stale_next p hp hin
    cases hn.symm.trans hnext
    exact ⟨hm, hlt, hfirst⟩

/-- The right link of an unlinked leaf passes no live leaf. -/
lemma next_le_of_dead {n : PageId} (hp : p ∈ s.leaves) (hn : (s.link p).next = some n)
    (hdead : (s.link p).isUnlinked = true) (hq : s.Live q) (hge : s.place p ≤ s.place q) :
    s.place n ≤ s.place q := by
  rcases hge.eq_or_lt with heq | hgt
  · have hqp := h.inj p hp q hq.1 heq
    subst hqp
    simp [hq.2] at hdead
  · exact (h.next_spec hp hn).2.2 q hq.inChain hgt

/-- A leaf without right link is the last one. -/
lemma next_none (p : PageId) (hp : p ∈ s.leaves) (hn : (s.link p).next = none) (z : PageId)
    (hz : s.InChain z) : s.place z ≤ s.place p := by
  by_contra hgt
  by_cases hin : s.InChain p
  · obtain ⟨n, hadj⟩ := exists_adj_right hin hz (not_le.mp hgt)
    cases hn.symm.trans ((h.next_iff p n hin).mpr hadj)
  · obtain ⟨m, -, hnext, -⟩ := h.stale_next p hp hin
    cases hn.symm.trans hnext

/-- Left links name leaves. -/
lemma prev_mem (p : PageId) (hp : p ∈ s.leaves) (n : PageId) (hn : (s.link p).prev = some n) :
    n ∈ s.leaves := by
  by_cases hin : s.InChain p
  · exact ((h.prev_iff n p hin).mp hn).left.1
  · exact (h.stale_prev p hp hin).1 n hn

/-- A leaf without left link is the first one. -/
lemma prev_none (p : PageId) (hp : p ∈ s.leaves) (hn : (s.link p).prev = none) (z : PageId)
    (hz : s.InChain z) : s.place p ≤ s.place z := by
  by_cases hin : s.InChain p
  · by_contra hlt
    obtain ⟨n, hadj⟩ := exists_adj_left hz hin (not_le.mp hlt)
    cases hn.symm.trans ((h.prev_iff n p hin).mpr hadj)
  · exact (h.stale_prev p hp hin).2 hn z hz

end Inv

/-! ## Steps of others keep what the links say -/

section split

variable (h : s.Inv) (live : s.Live p) (fresh : new ∉ s.leaves) (after : s.place p < pl)
  (before : ∀ q ∈ s.leaves, s.place p < s.place q → pl < s.place q)

include fresh in
lemma ne_new (hq : q ∈ s.leaves) : q ≠ new := fun hqn => fresh (hqn ▸ hq)

include h live before in
/-- A page left of the new one is the one that was split, or left of it. -/
lemma Inv.lt_of_ne (hq : q ∈ s.leaves) (hne : q ≠ p) (hlt : s.place q < pl) :
    s.place q < s.place p := by
  rcases lt_trichotomy (s.place q) (s.place p) with hqp | heq | hpq
  · exact hqp
  · exact absurd (h.inj q hq p live.1 heq) hne
  · exact absurd (before q hq hpq) hlt.le.not_gt

include fresh in
/-- The chain of a split: the new page and the old ones. -/
lemma forall_inChain_split {P : PageId → ℚ → Prop} :
    (∀ z, (s.split p new pl).InChain z → P z ((s.split p new pl).place z)) ↔
      P new pl ∧ ∀ z, s.InChain z → P z (s.place z) := by
  constructor
  · intro hall
    refine ⟨by simpa using hall new inChain_split_new, fun z hz => ?_⟩
    have hz' := ne_new fresh hz.1
    rw [← split_place hz']
    exact hall z ((inChain_split hz').mpr hz)
  · rintro ⟨hnew, hold⟩ z hz
    by_cases hzn : z = new
    · simpa [hzn] using hnew
    · rw [split_place hzn]
      exact hold z ((inChain_split hzn).mp hz)

include h live fresh after before in
/-- The new page comes between the one that was split and its right neighbour. -/
lemma Inv.adj_split {x y : PageId} : (s.split p new pl).Adj x y ↔
    x = p ∧ y = new ∨ x = new ∧ s.Adj p y ∨ x ≠ p ∧ s.Adj x y := by
  have hpn := ne_new fresh live.1
  constructor
  · rintro ⟨hx, hy, hlt, hfirst⟩
    obtain ⟨hnew, hfirst⟩ := (forall_inChain_split fresh
      (P := fun _ z => (s.split p new pl).place x < z → (s.split p new pl).place y ≤ z)).mp hfirst
    by_cases hxn : x = new <;> by_cases hyn : y = new
    · simp [hxn, hyn] at hlt
    · subst hxn
      rw [split_place_new, split_place hyn] at *
      exact .inr (.inl ⟨rfl, live.inChain, (inChain_split hyn).mp hy, after.trans hlt,
        fun z hz hgt => hfirst z hz (before z hz.1 hgt)⟩)
    · subst hyn
      rw [split_place hxn, split_place_new] at *
      refine .inl ⟨?_, rfl⟩
      by_contra hxp
      have hxp := h.lt_of_ne live before ((inChain_split hxn).mp hx).1 hxp hlt
      exact absurd (hfirst p live.inChain hxp) (not_le.mpr after)
    · rw [split_place hxn, split_place hyn] at *
      refine .inr (.inr ⟨?_, (inChain_split hxn).mp hx, (inChain_split hyn).mp hy, hlt, hfirst⟩)
      rintro rfl
      exact absurd (hnew after) (not_le.mpr (before y ((inChain_split hyn).mp hy).1 hlt))
  · rintro (⟨rfl, rfl⟩ | ⟨rfl, hadj⟩ | ⟨hxp, hadj⟩)
    · refine ⟨(inChain_split hpn).mpr live.inChain, inChain_split_new, ?_, ?_⟩ <;>
        rw [split_place_new, split_place hpn]
      · exact after
      · exact (forall_inChain_split fresh (P := fun _ z => s.place x < z → pl ≤ z)).mpr
          ⟨fun _ => le_rfl, fun z hz hgt => (before z hz.1 hgt).le⟩
    · have hyn := ne_new fresh hadj.right.1
      refine ⟨inChain_split_new, (inChain_split hyn).mpr hadj.right, ?_, ?_⟩ <;>
        rw [split_place_new, split_place hyn]
      · exact before y hadj.right.1 hadj.lt
      · exact (forall_inChain_split fresh (P := fun _ z => pl < z → s.place y ≤ z)).mpr
          ⟨fun hlt => absurd hlt (lt_irrefl _), fun z hz hgt => hadj.first z hz (after.trans hgt)⟩
    · have hxn := ne_new fresh hadj.left.1
      have hyn := ne_new fresh hadj.right.1
      refine ⟨(inChain_split hxn).mpr hadj.left, (inChain_split hyn).mpr hadj.right, ?_, ?_⟩ <;>
        rw [split_place hxn, split_place hyn]
      · exact hadj.lt
      · refine (forall_inChain_split fresh (P := fun _ z => s.place x < z → s.place y ≤ z)).mpr
          ⟨fun hlt => ?_, hadj.first⟩
        have hxp := h.lt_of_ne live before hadj.left.1 hxp hlt
        exact (hadj.first p live.inChain hxp).trans after.le

include h live fresh after before in
/-- A split keeps what the links say. -/
lemma Inv.split : (s.split p new pl).Inv := by
  have hadj := fun {x y} => h.adj_split live fresh after before (x := x) (y := y)
  have hnot : ∀ {x y}, s.Adj x y → x ≠ new ∧ y ≠ new := fun hxy =>
    ⟨ne_new fresh hxy.left.1, ne_new fresh hxy.right.1⟩
  have hpn := ne_new fresh live.1
  have hplace : ∀ x ∈ s.leaves, s.place x ≠ pl := by
    intro x hx heq
    rcases le_or_gt (s.place x) (s.place p) with hle | hgt
    · exact absurd (heq ▸ hle) (not_le.mpr after)
    · exact absurd heq (before x hx hgt).ne'
  have hstale : ∀ x, x ∈ (s.split p new pl).leaves → ¬ (s.split p new pl).InChain x →
      x ≠ new ∧ x ≠ p ∧ x ∈ s.leaves ∧ ¬ s.InChain x := by
    intro x hx hout
    have hxn : x ≠ new := by
      rintro rfl
      exact hout inChain_split_new
    rw [inChain_split hxn] at hout
    refine ⟨hxn, ?_, (mem_split.mp hx).resolve_left hxn, hout⟩
    rintro rfl
    exact hout live.inChain
  refine ⟨fun x hx y hy heq => ?_, fun x y hx => ?_, fun x y hy => ?_, fun x hx hout => ?_,
    fun x hx hout => ?_⟩
  -- places stay distinct
  · by_cases hxn : x = new <;> by_cases hyn : y = new
    · rw [hxn, hyn]
    · have hy := (mem_split.mp hy).resolve_left hyn
      simp [hxn, split_place hyn, (hplace y hy).symm] at heq
    · have hx := (mem_split.mp hx).resolve_left hxn
      simp [hyn, split_place hxn, hplace x hx] at heq
    · rw [split_place hxn, split_place hyn] at heq
      exact h.inj x ((mem_split.mp hx).resolve_left hxn) y ((mem_split.mp hy).resolve_left hyn) heq
  -- right links: of the new leaf, of the split one, of the others
  · rw [hadj]
    by_cases hxn : x = new
    · subst hxn
      rw [split_link_new, h.next_iff p y live.inChain]
      have := fun hxy : s.Adj x y => (hnot hxy).1 rfl
      tauto
    · rw [split_link hxn]
      by_cases hxp : x = p
      · simp [hxp, hpn, eq_comm]
      · simp [hxp, hxn, h.next_iff x y ((inChain_split hxn).mp hx)]
  -- left links
  · rw [hadj]
    by_cases hyn : y = new
    · subst hyn
      rw [split_link_new]
      have := fun {z} (hz : s.Adj z y) => (hnot hz).2 rfl
      grind
    · rw [split_link hyn]
      have hnext := h.next_iff p y live.inChain
      have hprev := h.prev_iff x y ((inChain_split hyn).mp hy)
      have huniq := fun {z} (hright : s.Adj p y) (hz : s.Adj z y) => h.adj_left_unique hz hright
      grind
  -- leaves out of the chain keep their links; the new leaf lies behind the split one
  · obtain ⟨hxn, hxp, hx, hout⟩ := hstale x hx hout
    obtain ⟨n, hn, hnext, hlt, hfirst⟩ := h.stale_next x hx hout
    refine ⟨n, List.mem_cons_of_mem _ hn, by simp [split_link hxn, hxp, hnext], ?_⟩
    rw [split_place hxn, split_place (ne_new fresh hn)]
    refine ⟨hlt, (forall_inChain_split fresh (P := fun _ z => s.place x < z → s.place n ≤ z)).mpr
      ⟨fun hgt => ?_, hfirst⟩⟩
    exact (hfirst p live.inChain (h.lt_of_ne live before hx hxp hgt)).trans after.le
  · obtain ⟨hxn, -, hx, hout⟩ := hstale x hx hout
    have hright : ¬ s.Adj p x := fun hright => hout hright.right
    obtain ⟨hmem, hnone⟩ := h.stale_prev x hx hout
    simp only [split_link hxn, split_place hxn, h.next_iff p x live.inChain, hright, if_false]
    refine ⟨fun n hn => List.mem_cons_of_mem _ (hmem n hn), fun hn => ?_⟩
    exact (forall_inChain_split fresh (P := fun _ z => s.place x ≤ z)).mpr
      ⟨(hnone hn p live.inChain).trans after.le, hnone hn⟩

end split

/-- Unlinking from the parent changes no sibling link. -/
lemma Inv.unlinkFromParent (h : s.Inv) (live : s.Live p) : (s.unlinkFromParent p).Inv := by
  have hin : ∀ {z}, (s.unlinkFromParent p).InChain z ↔ s.InChain z :=
    inChain_unlinkFromParent live
  have hadj : ∀ {x y}, (s.unlinkFromParent p).Adj x y ↔ s.Adj x y := fun {x y} =>
    ⟨fun ⟨hx, hy, hlt, hfirst⟩ => ⟨hin.mp hx, hin.mp hy, hlt, fun z hz => hfirst z (hin.mpr hz)⟩,
      fun ⟨hx, hy, hlt, hfirst⟩ => ⟨hin.mpr hx, hin.mpr hy, hlt, fun z hz => hfirst z (hin.mp hz)⟩⟩
  constructor <;> simp only [hin, hadj, unlinkFromParent_leaves, unlinkFromParent_place,
    unlinkFromParent_link]
  · exact h.inj
  · exact h.next_iff
  · exact h.prev_iff
  · exact h.stale_next
  · exact h.stale_prev

/-- Exactly the leaf leaves the chain. -/
lemma inChain_unlinkFromSiblings : (s.unlinkFromSiblings p).InChain q ↔ q ≠ p ∧ s.InChain q := by
  by_cases hq : q = p
  · subst hq
    simp [InChain, unlinkFromSiblings_link_self]
  · simp only [InChain, unlinkFromSiblings_link hq, ne_eq, hq, not_false_eq_true, true_and]
    rfl

/-- The neighbours of the page that is unlinked become neighbours. -/
lemma Inv.adj_unlink (h : s.Inv) (hp : s.InChain p) {x y : PageId} :
    (s.unlinkFromSiblings p).Adj x y ↔ (x ≠ p ∧ y ≠ p) ∧ (s.Adj x y ∨ s.Adj x p ∧ s.Adj p y) := by
  constructor
  · rintro ⟨hx, hy, hlt, hfirst⟩
    simp only [inChain_unlinkFromSiblings, unlinkFromSiblings_place] at hx hy hlt hfirst
    refine ⟨⟨hx.1, hy.1⟩, ?_⟩
    by_cases hin : s.place x < s.place p ∧ s.place p < s.place y
    · refine .inr ⟨⟨hx.2, hp, hin.1, fun z hz hgt => ?_⟩, hp, hy.2, hin.2, fun z hz hgt => ?_⟩
      · by_cases hzp : z = p
        · rw [hzp]
        · exact hin.2.le.trans (hfirst z ⟨hzp, hz⟩ hgt)
      · refine hfirst z ⟨?_, hz⟩ (hin.1.trans hgt)
        rintro rfl
        exact hgt.false
    · refine .inl ⟨hx.2, hy.2, hlt, fun z hz hgt => ?_⟩
      by_cases hzp : z = p
      · exact not_lt.mp fun hzy => hin ⟨hzp ▸ hgt, hzp ▸ hzy⟩
      · exact hfirst z ⟨hzp, hz⟩ hgt
  · rintro ⟨⟨hx, hy⟩, hadj | ⟨hleft, hright⟩⟩ <;>
      refine ⟨inChain_unlinkFromSiblings.mpr ⟨hx, ?_⟩, inChain_unlinkFromSiblings.mpr ⟨hy, ?_⟩, ?_,
        fun z hz hgt => ?_⟩
    · exact hadj.left
    · exact hadj.right
    · exact hadj.lt
    · exact hadj.first z (inChain_unlinkFromSiblings.mp hz).2 hgt
    · exact hleft.left
    · exact hright.right
    · exact hleft.lt.trans hright.lt
    · obtain ⟨hzp, hz⟩ := inChain_unlinkFromSiblings.mp hz
      refine hright.first z hz (lt_of_le_of_ne (hleft.first z hz hgt) fun heq => hzp ?_)
      exact (h.inj p hp.1 z hz.1 heq).symm

/-- Unlinking from the siblings keeps what the links say. -/
lemma Inv.unlinkFromSiblings (h : s.Inv) (hp : s.InChain p) (next : (s.link p).next = some r) :
    (s.unlinkFromSiblings p).Inv := by
  have hne : ∀ {x y}, s.Adj x y → x ≠ y := fun hxy heq => (heq ▸ hxy.lt).false
  have hlink := fun x (hx : x ≠ p) => unlinkFromSiblings_link (s := s) hx
  refine ⟨h.inj, fun x y hx => ?_, fun x y hy => ?_, fun x hx hout => ?_, fun x hx hout => ?_⟩
  · obtain ⟨hxp, hx⟩ := inChain_unlinkFromSiblings.mp hx
    rw [h.adj_unlink hp, hlink x hxp]
    have hnext := h.next_iff x y hx
    have hnextp := h.next_iff p y hp
    have hprevp := h.prev_iff x p hp
    have huniq := fun (hxy : s.Adj x y) (hleft : s.Adj x p) => h.adj_right_unique hxy hleft
    grind
  · obtain ⟨hyp, hy⟩ := inChain_unlinkFromSiblings.mp hy
    rw [h.adj_unlink hp, hlink y hyp]
    have hprev := h.prev_iff x y hy
    have hprevp := h.prev_iff x p hp
    have hnextp := h.next_iff p y hp
    have huniq := fun (hxy : s.Adj x y) (hright : s.Adj p y) => h.adj_left_unique hxy hright
    grind
  · by_cases hxp : x = p
    · subst hxp
      have hadj := (h.next_iff x r hp).mp next
      refine ⟨r, hadj.right.1, by rw [unlinkFromSiblings_link_self, next], hadj.lt, fun z hz => ?_⟩
      exact hadj.first z (inChain_unlinkFromSiblings.mp hz).2
    · have hout : ¬ s.InChain x := fun hin => hout (inChain_unlinkFromSiblings.mpr ⟨hxp, hin⟩)
      obtain ⟨n, hn, hnext, hlt, hfirst⟩ := h.stale_next x hx hout
      have hleft : ¬ s.Adj x p := fun hleft => hout hleft.left
      refine ⟨n, hn, by simp [hlink x hxp, h.prev_iff x p hp, hleft, hnext], hlt, fun z hz => ?_⟩
      exact hfirst z (inChain_unlinkFromSiblings.mp hz).2
  · by_cases hxp : x = p
    · subst hxp
      rw [unlinkFromSiblings_link_self]
      exact ⟨fun n hn => h.prev_mem x hx n hn, fun hn z hz =>
        h.prev_none x hx hn z (inChain_unlinkFromSiblings.mp hz).2⟩
    · have hout : ¬ s.InChain x := fun hin => hout (inChain_unlinkFromSiblings.mpr ⟨hxp, hin⟩)
      have hright : ¬ s.Adj p x := fun hright => hout hright.right
      obtain ⟨hmem, hnone⟩ := h.stale_prev x hx hout
      simp only [hlink x hxp, h.next_iff p x hp, hright, if_false]
      exact ⟨hmem, fun hn z hz => hnone hn z (inChain_unlinkFromSiblings.mp hz).2⟩

/-- Every step of another thread keeps what the links say. -/
theorem Inv.change (h : s.Inv) (step : s.Change s') : s'.Inv := by
  rcases step with ⟨live, fresh, after, before⟩ | ⟨live, -, -⟩ | ⟨mem, half, next, -⟩
  · exact h.split live fresh after before
  · exact h.unlinkFromParent live
  · exact h.unlinkFromSiblings ⟨mem, by simp [half]⟩ next

/-! ## What lasts -/

/-- The leaves after any number of steps of others. -/
def Later : LeafChain → LeafChain → Prop := Relation.ReflTransGen Change

/-- Changes remove no leaf and move none. -/
lemma Change.kept (step : s.Change s') (hq : q ∈ s.leaves) :
    q ∈ s'.leaves ∧ s'.place q = s.place q := by
  rcases step with ⟨live, fresh, after, before⟩ | ⟨live, -, -⟩ | ⟨mem, half, next, -⟩
  · exact ⟨List.mem_cons_of_mem _ hq, split_place (ne_new fresh hq)⟩
  · exact ⟨hq, rfl⟩
  · exact ⟨hq, rfl⟩

/-- No leaf comes to life by unlinking. -/
lemma live_unlinkFromParent (hq : (s.unlinkFromParent p).Live q) : s.Live q := by
  by_cases hqp : q = p
  · subst hqp
    have hlive := hq.2
    simp [unlinkFromParent, LeafLink.isUnlinked] at hlive
  · simpa [Live, unlinkFromParent, hqp] using hq

lemma live_unlinkFromSiblings (hq : (s.unlinkFromSiblings p).Live q) : s.Live q := by
  by_cases hqp : q = p
  · subst hqp
    have hlive := hq.2
    simp [unlinkFromSiblings_link_self, LeafLink.isUnlinked] at hlive
  · have hlive := hq.2
    rw [unlinkFromSiblings_link hqp] at hlive
    exact ⟨hq.1, hlive⟩

/-- A leaf that is live after a step was live before, or is the right half of a live leaf. -/
lemma Change.live (step : s.Change s') (hq : s'.Live q) :
    s.Live q ∨ ∃ p, s.Live p ∧ s.place p < s'.place q ∧
      ∀ x ∈ s.leaves, s.place p < s.place x → s'.place q < s.place x := by
  rcases step with ⟨live, fresh, after, before⟩ | ⟨live, -, -⟩ | ⟨mem, half, next, -⟩
  · rename_i p new pl
    by_cases hqn : q = new
    · subst hqn
      rw [split_place_new]
      exact .inr ⟨p, live, after, before⟩
    · exact .inl ((live_split hqn).mp hq)
  · exact .inl (live_unlinkFromParent hq)
  · exact .inl (live_unlinkFromSiblings hq)

/-- No live leaf has its place from `a` up to `b`. -/
def NoLive (s : LeafChain) (a b : ℚ) : Prop :=
  ∀ z, s.Live z → ¬(a ≤ s.place z ∧ s.place z < b)

/-- Where no leaf is live none comes to be: a new leaf stands right behind a live one. -/
lemma NoLive.change {b : ℚ} (h : s.NoLive (s.place q) b) (hq : q ∈ s.leaves)
    (step : s.Change s') : s'.NoLive (s'.place q) b := by
  rw [(step.kept hq).2]
  rintro z hz ⟨hle, hlt⟩
  rcases step.live hz with hlive | ⟨p, hp, hpz, hfirst⟩
  · rw [(step.kept hlive.1).2] at hle hlt
    exact h z hlive ⟨hle, hlt⟩
  · have hpq : s.place p < s.place q := by
      by_contra hge
      exact h p hp ⟨not_lt.mp hge, hpz.trans hlt⟩
    exact absurd (hfirst q hq hpq) (not_lt.mpr hle)

/-- No live leaf has its place left of `b`. -/
def NoLiveLeft (s : LeafChain) (b : ℚ) : Prop := ∀ z, s.Live z → b ≤ s.place z

/-- No live leaf appears left of a place that has none. -/
lemma NoLiveLeft.change {b : ℚ} (h : s.NoLiveLeft b) (step : s.Change s') : s'.NoLiveLeft b := by
  intro z hz
  rcases step.live hz with hlive | ⟨p, hp, hpz, -⟩
  · rw [(step.kept hlive.1).2]
    exact h z hlive
  · exact (h p hp).trans hpz.le

lemma Later.refl (s : LeafChain) : Later s s := Relation.ReflTransGen.refl

lemma Later.kept (h : Later s s') (hq : q ∈ s.leaves) :
    q ∈ s'.leaves ∧ s'.place q = s.place q := by
  induction h with
  | refl => exact ⟨hq, rfl⟩
  | tail _ step ih => exact ⟨(step.kept ih.1).1, (step.kept ih.1).2.trans ih.2⟩

lemma Later.mem (h : Later s s') (hq : q ∈ s.leaves) : q ∈ s'.leaves := (h.kept hq).1

lemma Later.place (h : Later s s') (hq : q ∈ s.leaves) : s'.place q = s.place q := (h.kept hq).2

/-- The invariant holds at every later time. -/
lemma Later.inv (h : Later s s') (hs : s.Inv) : s'.Inv := by
  induction h with
  | refl => exact hs
  | tail _ step ih => exact ih.change step

/-- A gap without live leaves stays one. -/
lemma Later.noLive {b : ℚ} (h : Later s s') (hq : q ∈ s.leaves)
    (hno : s.NoLive (s.place q) b) : s'.NoLive (s'.place q) b := by
  induction h with
  | refl => exact hno
  | tail hs step ih => exact ih.change (Later.mem hs hq) step

lemma Later.noLiveLeft {b : ℚ} (h : Later s s') (hno : s.NoLiveLeft b) : s'.NoLiveLeft b := by
  induction h with
  | refl => exact hno
  | tail _ step ih => exact ih.change step

end LeafChain

end DStore
