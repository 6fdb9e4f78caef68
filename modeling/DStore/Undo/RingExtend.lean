import DStore.Undo.PageRing

/-!
# A failed ring extension

What `ExtendSpaceIfNeeded` leaves behind when it fails: the links of the ring in memory and the
ring that replay of the kept log gives.
-/

namespace DStore

open UndoPages Function

variable {st : RingWrite}

/-- The links of the pages on `ring` close it to one doubly linked cycle. -/
structure UndoPages.IsRing (pages : UndoPages) (ring : Cycle PageId) : Prop where
  nodup : ring.Nodup
  chain : ring.Chain fun p q => pages.next p = q ∧ pages.prev q = p

/-- The page an extent puts into the ring at place `i`. -/
def extentPage (firstPageId : PageId) (i : ℕ) : PageId := (firstPageId.plus 1).plus i

/-- `Segment::Extend` hands out pages that are not in use. -/
def ExtendEnv.Fresh (env : ExtendEnv) (ring : Cycle PageId) : Prop :=
  ∀ firstPageId, env.extent = some firstPageId →
    ∀ i, i < undoZoneExtentSize - 1 → extentPage firstPageId i ∉ ring

/-- If the extension fails, the links of the ring are those before; in any case replay of the log
that was kept gives the links in memory. -/
def UndoZone.FailureAtomic (zone : UndoZone) (env : ExtendEnv) (ring : Cycle PageId) : Prop :=
  ((zone.extendSpaceIfNeeded env).succ = false → ∀ p ∈ ring,
    (zone.extendSpaceIfNeeded env).zone.pages.next p = zone.pages.next p ∧
      (zone.extendSpaceIfNeeded env).zone.pages.prev p = zone.pages.prev p) ∧
  ∀ p,
    (redoUndoRing zone.pages (zone.extendSpaceIfNeeded env).wal).next p =
        (zone.extendSpaceIfNeeded env).zone.pages.next p ∧
      (redoUndoRing zone.pages (zone.extendSpaceIfNeeded env).wal).prev p =
        (zone.extendSpaceIfNeeded env).zone.pages.prev p

section Pages

variable {pages : UndoPages} {p q : PageId} {header : UndoRecordPageHeader}

lemma UndoPages.next_setNext (p' : PageId) :
    (pages.setNext p q).next p' = if p' = p then q else pages.next p' := by
  simp only [next, setNext, update_apply]
  split <;> rfl

@[simp] lemma UndoPages.prev_setNext {p' : PageId} :
    (pages.setNext p q).prev p' = pages.prev p' :=
  apply_update_of_eq (fun page : UndoRecordPage => page.header.prev) (by rfl)

@[simp] lemma UndoPages.next_setPrev {p' : PageId} :
    (pages.setPrev p q).next p' = pages.next p' :=
  apply_update_of_eq (fun page : UndoRecordPage => page.header.next) (by rfl)

lemma UndoPages.prev_setPrev (p' : PageId) :
    (pages.setPrev p q).prev p' = if p' = p then q else pages.prev p' := by
  simp only [prev, setPrev, update_apply]
  split <;> rfl

@[simp] lemma UndoPages.mem_setNext : (pages.setNext p q).mem = pages.mem :=
  funext fun _ => apply_update_of_eq UndoRecordPage.data (by rfl)

@[simp] lemma UndoPages.mem_setPrev : (pages.setPrev p q).mem = pages.mem :=
  funext fun _ => apply_update_of_eq UndoRecordPage.data (by rfl)

end Pages

section Loop

variable {firstFreePageId next : PageId} {readOk : ℕ → Bool}

/-- The loop succeeds if it reads every page, leaves other pages alone, and logs what it writes. -/
lemma putNewPagesLoop_spec {left i : ℕ} {prevPageId : PageId} :
    ((putNewPagesLoop firstFreePageId next readOk left i prevPageId st).2 ↔
      ∀ j, i ≤ j → j < i + left → readOk j) ∧
    (∀ p, (∀ j, i ≤ j → j < i + left → p ≠ firstFreePageId.plus j) →
      (putNewPagesLoop firstFreePageId next readOk left i prevPageId st).1.pages p = st.pages p) ∧
    ∀ pages, st.pages = redoUndoRing pages st.wal →
      (putNewPagesLoop firstFreePageId next readOk left i prevPageId st).1.pages =
        redoUndoRing pages
          (putNewPagesLoop firstFreePageId next readOk left i prevPageId st).1.wal := by
  induction left generalizing i prevPageId st with
  | zero =>
    refine ⟨iff_of_true rfl fun j hij hj => ?_, fun _ _ => rfl, fun _ h => h⟩
    omega
  | succ left ih =>
    unfold putNewPagesLoop
    by_cases hread : readOk i = false
    · rw [if_pos hread]
      refine ⟨iff_of_false Bool.false_ne_true fun hall => ?_, fun _ _ => rfl, fun _ h => h⟩
      rw [hall i (Nat.le_refl i) (by omega)] at hread
      cases hread
    · rw [if_neg hread]
      refine ⟨ih.1.trans ⟨fun hall j hij hj => ?_, fun hall j hij hj => ?_⟩, fun p hp => ?_,
        fun pages h => ih.2.2 pages ?_⟩
      · rcases Nat.eq_or_lt_of_le hij with rfl | hlt
        · simpa using hread
        · exact hall j hlt (by omega)
      · exact hall j (by omega) (by omega)
      · rw [ih.2.1 p fun j hij hj => hp j (by omega) (by omega)]
        exact update_of_ne (hp i (Nat.le_refl i) (by omega)) _ _
      · dsimp only
        rw [redoUndoRing, List.foldl_append, h]
        rfl

/-- Only pages of the extent are written. -/
lemma putNewPagesIntoRing_of_ne {prev p : PageId}
    (hp : ∀ j, j < undoZoneExtentSize - 1 → p ≠ firstFreePageId.plus j) :
    (putNewPagesIntoRing prev firstFreePageId next readOk st).1.pages p = st.pages p := by
  refine putNewPagesLoop_spec.2.1 p fun j _ hj => hp j ?_
  rwa [Nat.zero_add] at hj

end Loop

section Extend

variable {prevPageId firstFreePageId lastFreePageId : PageId} {readOk : ℕ → Bool}

/-- The extension succeeds if it reads every page, and logs what it writes. -/
lemma extendUndoPageRing_spec {pages : UndoPages} :
    ((extendUndoPageRing prevPageId firstFreePageId lastFreePageId readOk ⟨pages, []⟩).2 ↔
      ∀ i, i < undoZoneExtentSize + 1 → readOk i) ∧
    (extendUndoPageRing prevPageId firstFreePageId lastFreePageId readOk ⟨pages, []⟩).1.pages =
      redoUndoRing pages
        (extendUndoPageRing prevPageId firstFreePageId lastFreePageId readOk
          ⟨pages, []⟩).1.wal := by
  unfold extendUndoPageRing
  by_cases hprev : readOk 0 = false
  · rw [if_pos hprev]
    refine ⟨iff_of_false Bool.false_ne_true fun hall => ?_, rfl⟩
    rw [hall 0 (by decide)] at hprev
    cases hprev
  rw [if_neg hprev]
  by_cases hnext : readOk 1 = false
  · rw [if_pos hnext]
    refine ⟨iff_of_false Bool.false_ne_true fun hall => ?_, rfl⟩
    rw [hall 1 (by decide)] at hnext
    cases hnext
  rw [if_neg hnext, putNewPagesIntoRing]
  refine ⟨putNewPagesLoop_spec.1.trans ?_, putNewPagesLoop_spec.2.2 pages rfl⟩
  simp only [undoZoneExtentSize_eq]
  constructor
  · intro hall i hi
    rcases i with _ | _ | i
    · simpa using hprev
    · simpa using hnext
    · exact hall i (Nat.zero_le i) (by omega)
  · intro hall j _ hj
    exact hall (j + 2) (by omega)

/-- If the first read succeeds, the page before is linked to the extent. -/
lemma extendUndoPageRing_next (hread : readOk 0)
    (hprev : ∀ i, i < undoZoneExtentSize - 1 → prevPageId ≠ firstFreePageId.plus i) :
    (extendUndoPageRing prevPageId firstFreePageId lastFreePageId readOk st).1.pages.next
      prevPageId = firstFreePageId := by
  unfold extendUndoPageRing
  rw [hread, if_neg (by decide)]
  by_cases hnext : readOk 1 = false
  · rw [if_pos hnext]
    exact (next_setNext prevPageId).trans (if_pos rfl)
  · rw [if_neg hnext]
    unfold next
    rw [putNewPagesIntoRing_of_ne hprev]
    show ((st.pages.setNext prevPageId firstFreePageId).setPrev _ lastFreePageId).next
      prevPageId = firstFreePageId
    rw [next_setPrev, next_setNext, if_pos rfl]

end Extend

section Atomic

variable {zone : UndoZone} {env : ExtendEnv} {ring : Cycle PageId}

/-- With room left nothing is done. -/
lemma extendSpaceIfNeeded_of_ne (h : zone.needCheckPageId ≠ zone.undoRecyclePageId) :
    zone.extendSpaceIfNeeded env = ⟨zone, [], true⟩ := if_pos h

/-- Without an extent the call fails and changes nothing. -/
lemma extendSpaceIfNeeded_of_none (h : zone.needCheckPageId = zone.undoRecyclePageId)
    (hextent : env.extent = none) : zone.extendSpaceIfNeeded env = ⟨zone, [], false⟩ := by
  unfold UndoZone.extendSpaceIfNeeded
  rw [if_neg (not_not.mpr h), hextent]

section

variable {firstPageId : PageId} (h : zone.needCheckPageId = zone.undoRecyclePageId)
    (hextent : env.extent = some firstPageId)
include h hextent

/-- With an extent the ring is extended. -/
lemma extendSpaceIfNeeded_of_some :
    zone.extendSpaceIfNeeded env =
      let written := extendUndoPageRing zone.nextAppendUndoPtr.pageId (firstPageId.plus 1)
        (firstPageId.plus (undoZoneExtentSize - 1)) env.readOk ⟨zone.pages, []⟩
      if written.2 = true then
        ⟨{ zone with pages := written.1.pages, needCheckPageId := firstPageId.plus 1 },
          written.1.wal, true⟩
      else ⟨{ zone with pages := written.1.pages }, [], false⟩ := by
  unfold UndoZone.extendSpaceIfNeeded
  rw [if_neg (not_not.mpr h), hextent]
  dsimp only
  split
  · rename_i st hst
    rw [hst]
    rfl
  · rename_i st hst
    rw [hst]
    rfl

/-- If the first read fails, nothing is changed. -/
lemma extendSpaceIfNeeded_of_read_zero
    (hread : env.readOk 0 = false) : zone.extendSpaceIfNeeded env = ⟨zone, [], false⟩ := by
  rw [extendSpaceIfNeeded_of_some h hextent]
  unfold extendUndoPageRing
  rw [if_pos hread]
  rfl

end

/-- A call that changes nothing is atomic. -/
lemma failureAtomic_of_unchanged {succ : Bool}
    (h : zone.extendSpaceIfNeeded env = ⟨zone, [], succ⟩) : zone.FailureAtomic env ring := by
  unfold UndoZone.FailureAtomic
  rw [h]
  exact ⟨fun _ _ _ => ⟨rfl, rfl⟩, fun _ => ⟨rfl, rfl⟩⟩

/-- Links stay in the ring. -/
lemma UndoPages.IsRing.next_mem {pages : UndoPages} {p : PageId} (h : pages.IsRing ring)
    (hp : p ∈ ring) : pages.next p ∈ ring := by
  obtain ⟨q, hq, hnext, -⟩ := LinkedRing.exists_mem_of_chain h.chain hp
  rwa [hnext]

/-- `ExtendSpaceIfNeeded` is atomic exactly if it does not reach the first change, or every buffer
it reads after that can be read. -/
theorem extend_failure_atomic_iff (zone : UndoZone) (env : ExtendEnv) (ring : Cycle PageId)
    (hring : zone.pages.IsRing ring) (happend : zone.nextAppendUndoPtr.pageId ∈ ring)
    (hfresh : env.Fresh ring) :
    zone.FailureAtomic env ring ↔
      zone.needCheckPageId ≠ zone.undoRecyclePageId ∨ env.extent = none ∨
        env.readOk 0 = false ∨ ∀ i, i < undoZoneExtentSize + 1 → env.readOk i = true := by
  by_cases hneed : zone.needCheckPageId ≠ zone.undoRecyclePageId
  · exact iff_of_true (failureAtomic_of_unchanged (extendSpaceIfNeeded_of_ne hneed)) (Or.inl hneed)
  rw [not_not] at hneed
  cases hextent : env.extent with
  | none =>
    exact iff_of_true (failureAtomic_of_unchanged (extendSpaceIfNeeded_of_none hneed hextent))
      (Or.inr (Or.inl rfl))
  | some firstPageId =>
    by_cases hread : env.readOk 0 = false
    · exact iff_of_true
        (failureAtomic_of_unchanged (extendSpaceIfNeeded_of_read_zero hneed hextent hread))
        (Or.inr (Or.inr (Or.inl hread)))
    by_cases hall : ∀ i, i < undoZoneExtentSize + 1 → env.readOk i = true
    -- all reads succeed, so the call does
    · refine iff_of_true ?_ (Or.inr (Or.inr (Or.inr hall)))
      unfold UndoZone.FailureAtomic
      rw [extendSpaceIfNeeded_of_some hneed hextent]
      dsimp only
      rw [if_pos (extendUndoPageRing_spec.1.mpr hall)]
      refine ⟨fun hfail => Bool.noConfusion hfail, fun p => ?_⟩
      dsimp only
      rw [← extendUndoPageRing_spec.2]
      exact ⟨rfl, rfl⟩
    · refine iff_of_false (fun hatomic => ?_) ?_
      · -- the link of the append page has left the ring
        have hprev : ∀ i, i < undoZoneExtentSize - 1 →
            zone.nextAppendUndoPtr.pageId ≠ (firstPageId.plus 1).plus i := by
          intro i hi heq
          apply hfresh firstPageId hextent i hi
          rwa [extentPage, ← heq]
        have hlink := hatomic.1
        rw [extendSpaceIfNeeded_of_some hneed hextent] at hlink
        dsimp only at hlink
        rw [if_neg fun hsucc => hall (extendUndoPageRing_spec.1.mp hsucc)] at hlink
        have hnext := (hlink rfl _ happend).1
        rw [extendUndoPageRing_next (by simpa using hread) hprev] at hnext
        apply hfresh firstPageId hextent 0 (by decide)
        have hzero : extentPage firstPageId 0 = firstPageId.plus 1 := by
          simp [extentPage, PageId.plus]
        rw [hzero, hnext]
        exact hring.next_mem happend
      · rintro (h | h | h | h)
        · exact h hneed
        · cases h
        · exact hread h
        · exact hall h

end Atomic

/-- A zone of two pages whose records have reached the second one. -/
def twoPageZone : UndoZone where
  nextAppendUndoPtr := ⟨⟨1, 2⟩, 64⟩
  needCheckPageId := ⟨1, 1⟩
  undoRecyclePageId := ⟨1, 1⟩
  pages := fun p =>
    { header :=
        { version := 0
          cur := p
          prev := if p = ⟨1, 1⟩ then ⟨1, 2⟩ else ⟨1, 1⟩
          next := if p = ⟨1, 1⟩ then ⟨1, 2⟩ else ⟨1, 1⟩ }
      data := fun _ => 0 }

/-- Its ring. -/
def twoPageRing : Cycle PageId := ([⟨1, 1⟩, ⟨1, 2⟩] : List PageId)

lemma twoPageZone_isRing : twoPageZone.pages.IsRing twoPageRing where
  nodup := by decide
  chain := by
    unfold twoPageRing
    rw [Cycle.chain_coe_cons]
    simp [next, prev, twoPageZone]

lemma twoPageRing_fresh (readOk : ℕ → Bool) :
    (ExtendEnv.mk (some ⟨1, 100⟩) readOk).Fresh twoPageRing := by
  intro firstPageId hextent i hi
  cases hextent
  revert i
  decide

/-- The buffer of the append page cannot be read, so that the call fails; and a call that reads
every buffer. -/
theorem twoPageZone_extend_atomic :
    (twoPageZone.extendSpaceIfNeeded ⟨some ⟨1, 100⟩, fun i => i != 0⟩).succ = false ∧
      twoPageZone.FailureAtomic ⟨some ⟨1, 100⟩, fun i => i != 0⟩ twoPageRing ∧
      twoPageZone.FailureAtomic ⟨some ⟨1, 100⟩, fun _ => true⟩ twoPageRing :=
  ⟨by decide,
    (extend_failure_atomic_iff twoPageZone _ twoPageRing twoPageZone_isRing (by decide)
      (twoPageRing_fresh _)).mpr (Or.inr (Or.inr (Or.inl rfl))),
    (extend_failure_atomic_iff twoPageZone _ twoPageRing twoPageZone_isRing (by decide)
      (twoPageRing_fresh _)).mpr (Or.inr (Or.inr (Or.inr fun _ _ => rfl)))⟩

/-- The buffer of the page after the append page cannot be read: the append page stays linked to
the unused extent, and replay does not give that link. -/
theorem extend_next_read_fails :
    twoPageZone.pages.IsRing twoPageRing ∧
      (ExtendEnv.mk (some ⟨1, 100⟩) fun i => i != 1).Fresh twoPageRing ∧
      (twoPageZone.extendSpaceIfNeeded ⟨some ⟨1, 100⟩, fun i => i != 1⟩).succ = false ∧
      (twoPageZone.extendSpaceIfNeeded ⟨some ⟨1, 100⟩, fun i => i != 1⟩).zone.pages.next ⟨1, 2⟩ =
        ⟨1, 101⟩ ∧
      ¬ twoPageZone.FailureAtomic ⟨some ⟨1, 100⟩, fun i => i != 1⟩ twoPageRing := by
  have hnext : (twoPageZone.extendSpaceIfNeeded
      ⟨some ⟨1, 100⟩, fun i => i != 1⟩).zone.pages.next ⟨1, 2⟩ = ⟨1, 101⟩ := by decide
  refine ⟨twoPageZone_isRing, twoPageRing_fresh _, by decide, hnext, fun hatomic => ?_⟩
  have hlink := (hatomic.1 (by decide) ⟨1, 2⟩ (by decide)).1
  rw [hnext] at hlink
  exact absurd hlink (by decide)

end DStore
