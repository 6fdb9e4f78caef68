import Mathlib.Data.Nat.SuccPred
import Mathlib.Data.Set.Function
import Mathlib.Logic.Equiv.Basic
import Mathlib.Order.Interval.Set.SuccPred
import Mathlib.Tactic.Set

/-!
# Binary heaps in an array

A max-heap of nodes ordered by a key: the root is entry 0, the children of entry `i` are
entries `2 * i + 1` and `2 * i + 2`. Nodes may be added unordered and the heap built later.
-/

/-- The first `size` entries of `nodes`. -/
structure BinaryHeap (α : Type*) where
  size : ℕ
  nodes : ℕ → α

namespace BinaryHeap

variable {α : Type*}

/-- No node. -/
def empty (d : α) : BinaryHeap α := ⟨0, fun _ => d⟩

/-- Add a node behind the last one, in no order. -/
def addUnordered (h : BinaryHeap α) (d : α) : BinaryHeap α :=
  ⟨h.size + 1, fun i => if i = h.size then d else h.nodes i⟩

/-- Exchange two entries. -/
def swapNodes (h : BinaryHeap α) (a b : ℕ) : BinaryHeap α :=
  ⟨h.size, fun i => if i = a then h.nodes b else if i = b then h.nodes a else h.nodes i⟩

/-- The node is one of the heap's. -/
def Mem (h : BinaryHeap α) (d : α) : Prop := ∃ i, i < h.size ∧ h.nodes i = d

section Nodes

variable {h : BinaryHeap α} {d e : α}

/-- Adding a node adds just that node. -/
lemma addUnordered_mem : (h.addUnordered d).Mem e ↔ h.Mem e ∨ e = d := by
  constructor
  · rintro ⟨i, hi, hnode⟩
    have hi' : i < h.size + 1 := hi
    by_cases heq : i = h.size
    · right
      rw [← hnode]
      exact if_pos heq
    · left
      refine ⟨i, by omega, ?_⟩
      rw [← hnode]
      exact (if_neg heq).symm
  · rintro (⟨i, hi, hnode⟩ | rfl)
    · exact ⟨i, Nat.lt_succ_of_lt hi, (if_neg (by omega)).trans hnode⟩
    · exact ⟨h.size, Nat.lt_succ_self _, if_pos rfl⟩

/-- A new node occurs once. -/
lemma addUnordered_injOn (hinj : Set.InjOn h.nodes (Set.Iio h.size)) (hnew : ¬ h.Mem d) :
    Set.InjOn (h.addUnordered d).nodes (Set.Iio (h.addUnordered d).size) := by
  have hlast : ∀ i ∈ Set.Iio h.size, (h.addUnordered d).nodes i = h.nodes i :=
    fun i hi => if_neg (ne_of_lt hi)
  have hself : (h.addUnordered d).nodes h.size = d := if_pos rfl
  have hsize : Set.Iio (h.addUnordered d).size = insert h.size (Set.Iio h.size) :=
    Order.Iio_succ_eq_insert h.size
  rw [hsize, Set.injOn_insert Set.self_notMem_Iio]
  refine ⟨hinj.congr fun i hi => (hlast i hi).symm, ?_⟩
  rintro ⟨i, hi, heq⟩
  rw [hlast i hi, hself] at heq
  exact hnew ⟨i, hi, heq⟩

/-- Without its last entry a heap of distinct nodes has all nodes but that one. -/
lemma mem_pred {n : ℕ} {f : ℕ → α} (hinj : Set.InjOn f (Set.Iio (n + 1))) (d : α) :
    Mem ⟨n, f⟩ d ↔ Mem ⟨n + 1, f⟩ d ∧ d ≠ f n := by
  constructor
  · rintro ⟨i, hi, rfl⟩
    exact ⟨⟨i, Nat.lt_succ_of_lt hi, rfl⟩,
      hinj.ne (Nat.lt_succ_of_lt hi) (Nat.lt_succ_self n) (ne_of_lt hi)⟩
  · rintro ⟨⟨i, hi, rfl⟩, hne⟩
    rcases Nat.lt_succ_iff_lt_or_eq.mp hi with hlt | rfl
    · exact ⟨i, hlt, rfl⟩
    · exact absurd rfl hne

end Nodes

section Sift

variable {β : Type*} [LinearOrder β] (key : α → β) (h : BinaryHeap α)

/-- The child entry `i` has to be exchanged with, 0 when there is none. -/
def swapOff (i : ℕ) : ℕ :=
  let left := 2 * i + 1
  let right := 2 * i + 2
  let off := if left < h.size ∧ key (h.nodes i) < key (h.nodes left) then left else 0
  if right < h.size ∧ key (h.nodes i) < key (h.nodes right) ∧
      (off = 0 ∨ key (h.nodes left) < key (h.nodes right)) then right
  else off

/-- Exchange entry `i` with its larger child until it has none, at most `fuel` times. -/
def siftLoop : ℕ → BinaryHeap α → ℕ → BinaryHeap α
  | 0, h, _ => h
  | fuel + 1, h, i =>
    if h.swapOff key i = 0 then h
    else siftLoop fuel (h.swapNodes (h.swapOff key i) i) (h.swapOff key i)

/-- Move entry `i` down to its place. -/
def siftDown (i : ℕ) : BinaryHeap α := siftLoop key h.size h i

/-- Sift the first `n` entries down, the last one first. -/
def buildLoop : ℕ → BinaryHeap α → BinaryHeap α
  | 0, h => h
  | n + 1, h => buildLoop n (h.siftDown key n)

/-- Order the nodes: every entry that can have a child is sifted down. -/
def build : BinaryHeap α := buildLoop key ((h.size - 2) / 2 + 1) h

/-- Remove the root. -/
def removeFirst : BinaryHeap α :=
  if h.size = 1 then ⟨0, h.nodes⟩
  else siftDown key ⟨h.size - 1, (h.swapNodes 0 (h.size - 1)).nodes⟩ 0

/-- Put `d` in place of the root. -/
def replaceFirst (d : α) : BinaryHeap α :=
  let h' : BinaryHeap α := ⟨h.size, fun i => if i = 0 then d else h.nodes i⟩
  if 1 < h.size then h'.siftDown key 0 else h'

/-- Every entry whose parent is `i` or later is at most its parent. -/
def OrderedFrom (i : ℕ) : Prop :=
  ∀ j, 0 < j → j < h.size → i ≤ (j - 1) / 2 → key (h.nodes j) ≤ key (h.nodes ((j - 1) / 2))

/-- The order a sift that has reached entry `p` relies on: only the children of `p` may be
out of order, and they are below the parent of `p`. -/
structure SiftInv (h : BinaryHeap α) (i p : ℕ) : Prop where
  le : i ≤ p
  ordered : ∀ j, 0 < j → j < h.size → i ≤ (j - 1) / 2 → (j - 1) / 2 ≠ p →
    key (h.nodes j) ≤ key (h.nodes ((j - 1) / 2))
  grand : ∀ j, 0 < j → j < h.size → (j - 1) / 2 = p → 0 < p → i ≤ (p - 1) / 2 →
    key (h.nodes j) ≤ key (h.nodes ((p - 1) / 2))

variable {key}

variable {h : BinaryHeap α} {i p : ℕ}

/-- No child is larger than entry `i`, or the one to exchange with is and none is larger than it. -/
lemma swapOff_spec (h : BinaryHeap α) (i : ℕ) :
    let AtMost (m : ℕ) := ∀ j, 0 < j → j < h.size → (j - 1) / 2 = i →
      key (h.nodes j) ≤ key (h.nodes m)
    h.swapOff key i = 0 ∧ AtMost i ∨
      h.swapOff key i < h.size ∧ (h.swapOff key i - 1) / 2 = i ∧ i < h.swapOff key i ∧
        key (h.nodes i) < key (h.nodes (h.swapOff key i)) ∧ AtMost (h.swapOff key i) := by
  have hchild : ∀ j, 0 < j → (j - 1) / 2 = i → j = 2 * i + 1 ∨ j = 2 * i + 2 := by omega
  intro AtMost
  unfold swapOff
  dsimp only
  split_ifs with hl hr hr
  · refine .inr ⟨hr.1, by omega, by omega, hr.2.1, fun j hj _ hji => ?_⟩
    rcases hchild j hj hji with rfl | rfl
    · exact (hr.2.2.resolve_left not_false).le
    · exact le_rfl
  · refine .inr ⟨hl.1, by omega, by omega, hl.2, fun j hj hjs hji => ?_⟩
    rcases hchild j hj hji with rfl | rfl
    · exact le_rfl
    · exact not_lt.mp fun hgt => hr ⟨hjs, hl.2.trans hgt, Or.inr hgt⟩
  · refine .inr ⟨hr.1, by omega, by omega, hr.2.1, fun j hj hjs hji => ?_⟩
    rcases hchild j hj hji with rfl | rfl
    · -- the left child is not larger than the parent
      exact not_lt.mp fun hgt => hl ⟨hjs, hr.2.1.trans hgt⟩
    · exact le_rfl
  · refine .inl ⟨rfl, fun j hj hjs hji => ?_⟩
    rcases hchild j hj hji with rfl | rfl
    · exact not_lt.mp fun hgt => hl ⟨hjs, hgt⟩
    · exact not_lt.mp fun hgt => hr ⟨hjs, hgt, Or.inl rfl⟩

/-- One swap moves the place where the order may fail down. -/
lemma SiftInv.step (hinv : h.SiftInv key i p) (hne : h.swapOff key p ≠ 0) :
    (h.swapNodes (h.swapOff key p) p).SiftInv key i (h.swapOff key p) := by
  obtain ⟨hs, hparent, hlt, hkey, hmax⟩ := (swapOff_spec h p).resolve_left (hne ·.1)
  have hle := hinv.le
  generalize h.swapOff key p = s at hs hparent hlt hkey hmax
  have hnode_s : (h.swapNodes s p).nodes s = h.nodes p := by simp [swapNodes]
  have hnode_p : (h.swapNodes s p).nodes p = h.nodes s := by
    simp only [swapNodes]
    rw [if_neg (by omega)]
    simp
  have hnode : ∀ k, k ≠ s → k ≠ p → (h.swapNodes s p).nodes k = h.nodes k := by
    intro k hks hkp
    simp only [swapNodes]
    rw [if_neg hks, if_neg hkp]
  refine ⟨by omega, ?_, ?_⟩
  · intro j hj hjs hij hjp
    have hjs' : j < h.size := hjs
    by_cases hpj : (j - 1) / 2 = p
    · -- a child of the hole now hangs on the larger child
      rw [hpj, hnode_p]
      by_cases hj' : j = s
      · rw [hj', hnode_s]
        exact hkey.le
      · rw [hnode j hj' (by omega)]
        exact hmax j hj hjs' hpj
    · by_cases hj' : j = p
      · subst hj'
        rw [hnode_p, hnode _ hjp (by omega)]
        exact hinv.grand s (by omega) hs hparent hj hij
      · rw [hnode j (by omega) hj', hnode _ hjp hpj]
        exact hinv.ordered j hj hjs' hij hpj
  · intro j hj hjs hji hs0 _
    have hjs' : j < h.size := hjs
    rw [hparent, hnode_p, hnode j (by omega) (by omega), ← hji]
    exact hinv.ordered j hj hjs' (by omega) (by omega)

/-- With enough fuel the loop ends in an ordered heap. -/
lemma siftLoop_ordered (fuel : ℕ) (hinv : h.SiftInv key i p)
    (hfuel : h.size ≤ p + fuel) : (siftLoop key fuel h p).OrderedFrom key i := by
  induction fuel generalizing h p with
  | zero =>
    -- the hole is past the end and has no children
    intro j hj hjs hij
    have hjs' : j < h.size := hjs
    exact hinv.ordered j hj hjs' hij (by omega)
  | succ fuel ih =>
    rw [siftLoop]
    rcases @swapOff_spec _ _ _ key h p with ⟨hzero, hmax⟩ | ⟨-, -, hlt, -⟩
    · rw [if_pos hzero]
      intro j hj hjs hij
      by_cases hjp : (j - 1) / 2 = p
      · rw [hjp]
        exact hmax j hj hjs hjp
      · exact hinv.ordered j hj hjs hij hjp
    · have hne : h.swapOff key p ≠ 0 := Nat.ne_zero_of_lt hlt
      rw [if_neg hne]
      apply ih (hinv.step hne)
      show h.size ≤ _
      omega

/-- Sifting down orders one more place. -/
lemma siftDown_ordered (hord : h.OrderedFrom key (i + 1)) :
    (h.siftDown key i).OrderedFrom key i := by
  apply siftLoop_ordered h.size _ (by omega)
  refine ⟨le_refl i, ?_, ?_⟩
  · intro j hj hjs hij hne
    exact hord j hj hjs (by omega)
  · intro j hj hjs hji hi hle
    omega

/-- A swap keeps the nodes. -/
lemma swapNodes_spec {a b : ℕ} (ha : a < h.size) (hb : b < h.size) :
    (∀ d, (h.swapNodes a b).Mem d ↔ h.Mem d) ∧
      (Set.InjOn h.nodes (Set.Iio h.size) →
        Set.InjOn (h.swapNodes a b).nodes (Set.Iio h.size)) := by
  -- the exchange is reading through an involution of the indices
  have hnodes : (h.swapNodes a b).nodes = h.nodes ∘ Equiv.swap a b := by
    funext i
    simp only [swapNodes, Function.comp_apply, Equiv.swap_apply_def]
    split_ifs <;> rfl
  have hmaps : Set.MapsTo (Equiv.swap a b) (Set.Iio h.size) (Set.Iio h.size) := by
    intro i hi
    rw [Equiv.swap_apply_def]
    split_ifs <;> assumption
  refine ⟨fun d => ⟨?_, ?_⟩, fun hinj => ?_⟩
  · rintro ⟨i, hi, rfl⟩
    exact ⟨Equiv.swap a b i, hmaps hi, (congrFun hnodes i).symm⟩
  · rintro ⟨i, hi, rfl⟩
    refine ⟨Equiv.swap a b i, hmaps hi, ?_⟩
    rw [hnodes, Function.comp_apply, Equiv.swap_apply_self]
  · rw [hnodes]
    exact hinj.comp (Equiv.injective _).injOn hmaps

variable (key) in
/-- The loop only swaps. -/
lemma siftLoop_spec (fuel : ℕ) (h : BinaryHeap α) (p : ℕ) : (siftLoop key fuel h p).size = h.size ∧
      (p < h.size → (∀ d, (siftLoop key fuel h p).Mem d ↔ h.Mem d) ∧
        (Set.InjOn h.nodes (Set.Iio h.size) →
          Set.InjOn (siftLoop key fuel h p).nodes (Set.Iio h.size))) := by
  induction fuel generalizing h p with
  | zero => exact ⟨rfl, fun _ => ⟨fun _ => Iff.rfl, id⟩⟩
  | succ fuel ih =>
    rw [siftLoop]
    split_ifs with hzero
    · exact ⟨rfl, fun _ => ⟨fun _ => Iff.rfl, id⟩⟩
    · have hs := ((swapOff_spec h p).resolve_left (hzero ·.1)).1
      obtain ⟨hsize, hrest⟩ := ih (h.swapNodes (h.swapOff key p) p) (h.swapOff key p)
      refine ⟨hsize, fun hp => ?_⟩
      obtain ⟨hmem, hinj⟩ := hrest hs
      obtain ⟨hmem', hinj'⟩ := swapNodes_spec hs hp
      exact ⟨fun d => (hmem d).trans (hmem' d), fun h => hinj (hinj' h)⟩

variable (key) in
/-- A heap of distinct nodes. -/
structure IsHeap (h : BinaryHeap α) : Prop where
  ordered : h.OrderedFrom key 0
  inj : Set.InjOn h.nodes (Set.Iio h.size)

/-- The first node has the largest key. -/
lemma IsHeap.le_first (hh : h.IsHeap key) {d : α} (hd : h.Mem d) :
    key d ≤ key (h.nodes 0) := by
  obtain ⟨i, hi, rfl⟩ := hd
  induction i using Nat.strong_induction_on with
  | _ i ih =>
    by_cases hzero : i = 0
    · rw [hzero]
    · exact (hh.ordered i (by omega) hi (Nat.zero_le _)).trans (ih _ (by omega) (by omega))

section

variable {h : BinaryHeap α} (hpos : 0 < h.size)
include hpos

lemma mem_first : h.Mem (h.nodes 0) := ⟨0, hpos, rfl⟩

/-- Sifting the first node down gives a heap of the same nodes. -/
lemma siftDown_isHeap (hord : h.OrderedFrom key 1) (hinj : Set.InjOn h.nodes (Set.Iio h.size)) :
    (h.siftDown key 0).IsHeap key ∧ ∀ d, (h.siftDown key 0).Mem d ↔ h.Mem d := by
  obtain ⟨hsize, hrest⟩ := siftLoop_spec key h.size h 0
  obtain ⟨hmem, hinj'⟩ := hrest hpos
  refine ⟨⟨siftDown_ordered hord, ?_⟩, hmem⟩
  show Set.InjOn _ (Set.Iio (siftLoop key h.size h 0).size)
  rw [hsize]
  exact hinj' hinj

/-- Building gives a heap of the same nodes. -/
lemma build_isHeap (hinj : Set.InjOn h.nodes (Set.Iio h.size)) :
    (h.build key).IsHeap key ∧ ∀ d, (h.build key).Mem d ↔ h.Mem d := by
  -- entries from `n` on are in order before entry `n - 1` is sifted
  have hloop : ∀ n (g : BinaryHeap α), n ≤ g.size → g.OrderedFrom key n →
      Set.InjOn g.nodes (Set.Iio g.size) →
      (buildLoop key n g).IsHeap key ∧ ∀ d, (buildLoop key n g).Mem d ↔ g.Mem d := by
    intro n
    induction n with
    | zero => exact fun g _ hord hg => ⟨⟨hord, hg⟩, fun _ => Iff.rfl⟩
    | succ n ih =>
      intro g hn hord hg
      obtain ⟨hsize, hrest⟩ := siftLoop_spec key g.size g n
      obtain ⟨hmem, hinj'⟩ := hrest (by omega)
      have hsize' : (g.siftDown key n).size = g.size := hsize
      obtain ⟨hheap, hmem'⟩ := ih (g.siftDown key n) (by omega) (siftDown_ordered hord)
        (by rw [hsize']; exact hinj' hg)
      exact ⟨hheap, fun d => (hmem' d).trans (hmem d)⟩
  apply hloop _ h (by omega) _ hinj
  intro j hj hjs hij
  omega

end

/-- Changing the key of the first node leaves the rest ordered. -/
lemma IsHeap.orderedFrom_one {key' : α → β} (hh : h.IsHeap key)
    (hkey : ∀ d, h.Mem d → d ≠ h.nodes 0 → key' d = key d) : h.OrderedFrom key' 1 := by
  have hother : ∀ i, 0 < i → i < h.size → key' (h.nodes i) = key (h.nodes i) := by
    intro i hi his
    apply hkey _ ⟨i, his, rfl⟩
    intro heq
    have := hh.inj (Set.mem_Iio.mpr his) (Set.mem_Iio.mpr (by omega)) heq
    omega
  intro j hj hjs hij
  rw [hother j hj hjs, hother _ (by omega) (by omega)]
  exact hh.ordered j hj hjs (Nat.zero_le _)

/-- Removing the root, whatever its key, leaves a heap of the other nodes. -/
lemma removeFirst_isHeap (hpos : 0 < h.size) (hordered : h.OrderedFrom key 1)
    (hnodes : Set.InjOn h.nodes (Set.Iio h.size)) :
    (h.removeFirst key).IsHeap key ∧ (h.removeFirst key).size = h.size - 1 ∧
      ∀ d, (h.removeFirst key).Mem d ↔ h.Mem d ∧ d ≠ h.nodes 0 := by
  obtain ⟨size, nodes⟩ := h
  obtain ⟨n, rfl⟩ := Nat.exists_eq_succ_of_ne_zero hpos.ne'
  rw [removeFirst]
  split_ifs with hone
  · obtain rfl : n = 0 := Nat.succ.inj hone
    refine ⟨⟨fun j hj hjs => ?_, fun i hi => ?_⟩, rfl, mem_pred hnodes⟩
    · exact absurd hjs (Nat.not_lt_zero _)
    · exact absurd hi (Nat.not_lt_zero _)
  · -- the last node takes the root's place, the other nodes keep theirs
    have hn : n ≠ 0 := fun h0 => hone (by rw [h0])
    obtain ⟨hswap, hinj⟩ := swapNodes_spec hpos (Nat.lt_succ_self n)
    set f := (swapNodes ⟨n + 1, nodes⟩ 0 n).nodes with hf
    have hlast : f n = nodes 0 := by simp [hf, swapNodes, hn]
    have hord : OrderedFrom key ⟨n, f⟩ 1 := by
      intro j hj hjs hij
      have hjs : j < n := hjs
      have hnode : ∀ i, 0 < i → i ≤ j → f i = nodes i := by
        intro i hi hij
        simp only [hf, swapNodes]
        rw [if_neg (by omega), if_neg (by omega)]
      show key (f j) ≤ key (f _)
      rw [hnode j hj le_rfl, hnode _ (by omega) (by omega)]
      exact hordered j hj (Nat.lt_succ_of_lt hjs) hij
    obtain ⟨hheap, hmem⟩ := siftDown_isHeap (show 0 < (⟨n, f⟩ : BinaryHeap α).size from
      Nat.pos_of_ne_zero hn) hord ((hinj hnodes).mono (Set.Iio_subset_Iio n.le_succ))
    refine ⟨hheap, (siftLoop_spec key n ⟨n, f⟩ 0).1, fun d => (hmem d).trans ?_⟩
    rw [mem_pred (hinj hnodes), hlast]
    exact and_congr_left fun _ => hswap d

/-- So does putting the first node back with a changed key. -/
lemma replaceFirst_isHeap (hpos : 0 < h.size) (hord : h.OrderedFrom key 1)
    (hinj : Set.InjOn h.nodes (Set.Iio h.size)) :
    (h.replaceFirst key (h.nodes 0)).IsHeap key ∧
      ∀ d, (h.replaceFirst key (h.nodes 0)).Mem d ↔ h.Mem d := by
  have hsame : (⟨h.size, fun i => if i = 0 then h.nodes 0 else h.nodes i⟩ : BinaryHeap α) = h := by
    cases h
    simp only [mk.injEq, true_and]
    funext i
    split_ifs with hi
    · rw [hi]
    · rfl
  simp only [replaceFirst, hsame]
  split_ifs with hone
  · exact siftDown_isHeap hpos hord hinj
  · refine ⟨⟨fun j hj hjs _ => ?_, hinj⟩, fun _ => Iff.rfl⟩
    omega

end Sift

end BinaryHeap
