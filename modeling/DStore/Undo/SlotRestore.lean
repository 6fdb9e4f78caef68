import DStore.Undo.SlotRing

/-!
# Restoring the slot ring

After a restart the two ends of the ring are inferred from the slot pages. The next free id is
found by following the page counters while they grow. The first id to recycle is looked for by
the status of the last slot of each page, from the page of the next free id on around the ring;
a recycling pass then moves it up. The undo space is restored from the last pointer into it, which
is searched for from the next free id down.
-/

namespace DStore

open UInt32

/-- The `k`-th slot page of a zone. -/
def txnSlotPageAt (startPage : PageId) (k : ℕ) : PageId :=
  { fileId := startPage.fileId, blockId := startPage.blockId + ofNat k }

/-- `UndoZoneTrxManager::AdvanceTrxSlotPageId`. -/
def advanceTrxSlotPageId (startPage trxSlotPageId : PageId) : PageId :=
  let blockId := trxSlotPageId.blockId + 1
  { trxSlotPageId with
    blockId :=
      if blockId - startPage.blockId = ofNat trxPagesPerZone then startPage.blockId
      else blockId }

/-- Step 1 of `Restore`: the counter of each page, as long as it exceeds the one before. -/
def restoreNextFree (startPage : PageId) (pages : TxnSlotPages) : ℕ :=
  PagedRing.climb (fun i => (pages (txnSlotPageAt startPage i)).nextFreeLogicSlotId)
    trxPagesPerZone 0 0

/-- The last slot of a page holds a transaction that has not been recycled. -/
def lastSlotInUse (page : TransactionSlotPage) : Prop :=
  (page.slots (trxPageSlotsNum - 1)).status ≠ .unknown ∧
    (page.slots (trxPageSlotsNum - 1)).status ≠ .frozen

instance (page : TransactionSlotPage) : Decidable (lastSlotInUse page) :=
  inferInstanceAs (Decidable (_ ∧ _))

/-- The loop of step 3 of `Restore`: the index `i` and the page `tmpId` it ends with, when `left`
pages remain. -/
def findRecyclePage (startPage : PageId) (pages : TxnSlotPages) : ℕ → ℕ → PageId → ℕ × PageId
  | 0, i, tmpId => (i, tmpId)
  | left + 1, i, tmpId =>
    if lastSlotInUse (pages tmpId) then (i, tmpId)
    else findRecyclePage startPage pages left (i + 1) (advanceTrxSlotPageId startPage tmpId)

/-- Step 3 of `Restore`: the id recycling starts at. -/
def restoreRecycleStart (startPage : PageId) (pages : TxnSlotPages) (nextFreeLogicSlotId : ℕ) :
    ℕ :=
  let found := findRecyclePage startPage pages trxPagesPerZone 0
    (getTxnSlotPageId startPage nextFreeLogicSlotId)
  if found.1 = 0 then
    -- both ends are on one page, and recycling is at a later slot of it
    ((pages found.2).slots (getSlotId nextFreeLogicSlotId)).logicSlotId
  else if found.1 = trxPagesPerZone then
    -- both ends are on one page, and recycling is at an earlier slot of it
    nextFreeLogicSlotId - nextFreeLogicSlotId % trxPageSlotsNum
  else ((pages found.2).slots 0).logicSlotId

/-- `RecycleTxnSlots` on the two counters as they are. -/
def recycleTxnSlotsFrom (zoneId : ℕ) (startPage : PageId) (recycleMinCsn : ℕ)
    (recycleLogicSlotId nextFreeLogicSlotId : ℕ) (pages : TxnSlotPages) : RecycleState :=
  finishRecycle zoneId startPage recycleMinCsn recycleLogicSlotId
    (recycleLoop zoneId startPage recycleMinCsn (nextFreeLogicSlotId - recycleLogicSlotId)
      { pages := pages
        recycleLogicSlotId := recycleLogicSlotId
        lockedPage := false
        firstSlot := 0
        restoreUndoPtr := invalidUndoRecPtr
        recycleUndoPtr := invalidUndoRecPtr
        nextToBeRecycledIsCommitted := false
        wal := [] })

/-- The check of step 2 of `Restore`, which stops the process: the slot of the next free id is
already taken by that id or a later one. -/
def nextFreeTaken (startPage : PageId) (pages : TxnSlotPages) (nextFreeLogicSlotId : ℕ) : Prop :=
  (txnSlot startPage pages nextFreeLogicSlotId).logicSlotId ≠ 0 ∧
    nextFreeLogicSlotId ≤ (txnSlot startPage pages nextFreeLogicSlotId).logicSlotId

instance (startPage : PageId) (pages : TxnSlotPages) (nextFreeLogicSlotId : ℕ) :
    Decidable (nextFreeTaken startPage pages nextFreeLogicSlotId) :=
  inferInstanceAs (Decidable (_ ∧ _))

/-- `UndoZoneTrxManager::Restore`: the next free id and the state of the recycling pass, which
holds the first id to recycle and the slot pages; `none` when the process stops. -/
def restoreSlots (zoneId : ℕ) (startPage : PageId) (recycleMinCsn : ℕ) (pages : TxnSlotPages) :
    Option (ℕ × RecycleState) :=
  let next := restoreNextFree startPage pages
  if nextFreeTaken startPage pages next then none
  else
    some (next, recycleTxnSlotsFrom zoneId startPage recycleMinCsn
      (restoreRecycleStart startPage pages next) next pages)

/-! ## Page ids of the ring -/

lemma trxPageSlotsNum_eq : trxPageSlotsNum = 169 := rfl

lemma trxPagesPerZone_eq : trxPagesPerZone = 127 := rfl

/-- The slot pages of a zone are distinct. -/
lemma txnSlotPageAt_inj {startPage : PageId} {j k : ℕ} (hj : j < trxPagesPerZone)
    (hk : k < trxPagesPerZone) (h : txnSlotPageAt startPage j = txnSlotPageAt startPage k) :
    j = k := by
  rw [trxPagesPerZone_eq] at hj hk
  have hblock := (UInt32.add_right_inj _).mp (congrArg PageId.blockId h)
  have htoNat := congrArg UInt32.toNat hblock
  have hsize : ∀ i, i < 127 → (ofNat i).toNat = i := fun i hi =>
    toNat_ofNat_of_lt' (Nat.lt_trans hi (by decide))
  rwa [hsize j hj, hsize k hk] at htoNat

/-- The walk over the slot pages wraps at the end of the zone. -/
lemma advance_txnSlotPageAt (startPage : PageId) {k : ℕ} (hk : k < trxPagesPerZone) :
    advanceTrxSlotPageId startPage (txnSlotPageAt startPage k) =
      txnSlotPageAt startPage ((k + 1) % trxPagesPerZone) := by
  rw [trxPagesPerZone_eq] at hk ⊢
  unfold advanceTrxSlotPageId txnSlotPageAt
  have hsub : startPage.blockId + ofNat k + 1 - startPage.blockId = ofNat (k + 1) := by
    rw [UInt32.ofNat_add, UInt32.add_assoc, UInt32.add_comm, UInt32.add_sub_cancel]
    rfl
  have hwrap : ofNat (k + 1) = ofNat trxPagesPerZone ↔ k + 1 = 127 := by
    constructor
    · intro h
      have htoNat := congrArg UInt32.toNat h
      rwa [toNat_ofNat_of_lt' (Nat.lt_trans (show k + 1 < 128 by omega) (by decide)),
        toNat_ofNat_of_lt' (by decide)] at htoNat
    · intro h
      rw [h, trxPagesPerZone_eq]
  dsimp only
  rw [hsub]
  by_cases hlast : k + 1 = 127
  · rw [if_pos (hwrap.mpr hlast), hlast]
    simp
  · rw [if_neg (fun h => hlast (hwrap.mp h)), Nat.mod_eq_of_lt (by omega), UInt32.ofNat_add,
      UInt32.add_assoc]
    rfl

/-- After a lap the slots are used again. -/
lemma txnSlot_add_lap (startPage : PageId) (pages : TxnSlotPages) (l : ℕ) :
    txnSlot startPage pages (l + trxPagesPerZone * trxPageSlotsNum) =
      txnSlot startPage pages l := by
  have hpage : (l + trxPagesPerZone * trxPageSlotsNum) / trxPageSlotsNum % trxPagesPerZone =
      l / trxPageSlotsNum % trxPagesPerZone := by
    rw [Nat.add_mul_div_right _ _ trxPageSlotsNum_pos, Nat.add_mod_right]
  have hslot : getSlotId (l + trxPagesPerZone * trxPageSlotsNum) = getSlotId l :=
    Nat.add_mul_mod_self_right _ _ _
  unfold txnSlot getTxnSlotPageId
  rw [hpage, hslot]

/-- What the search for the recycle page returns. -/
lemma findRecyclePage_spec (startPage : PageId) (pages : TxnSlotPages) (k : ℕ) (left i : ℕ) :
    let found := findRecyclePage startPage pages left i
      (txnSlotPageAt startPage ((k + i) % trxPagesPerZone))
    found.2 = txnSlotPageAt startPage ((k + found.1) % trxPagesPerZone) ∧
      i ≤ found.1 ∧ found.1 ≤ i + left ∧
      (∀ j, i ≤ j → j < found.1 →
        ¬ lastSlotInUse (pages (txnSlotPageAt startPage ((k + j) % trxPagesPerZone)))) ∧
      (found.1 < i + left → lastSlotInUse (pages found.2)) := by
  induction left generalizing i with
  | zero =>
    exact ⟨rfl, Nat.le_refl _, Nat.le_refl _, fun j h1 h2 => absurd h2 (Nat.not_lt.mpr h1),
      fun h => absurd h (Nat.lt_irrefl _)⟩
  | succ left ih =>
    unfold findRecyclePage
    split_ifs with hused
    · exact ⟨rfl, Nat.le_refl _, Nat.le_add_right _ _,
        fun j h1 h2 => absurd h2 (Nat.not_lt.mpr h1), fun _ => hused⟩
    · rw [advance_txnSlotPageAt startPage (Nat.mod_lt _ (by decide)), Nat.mod_add_mod,
        Nat.add_assoc k i 1]
      obtain ⟨hpage, hlow, hhigh, hfree, hstop⟩ := ih (i + 1)
      refine ⟨hpage, by omega, by omega, fun j hj hlt => ?_, fun hlt => hstop (by omega)⟩
      rcases Nat.eq_or_lt_of_le hj with rfl | hj
      · exact hused
      · exact hfree j hj hlt

/-! ## The two ends of the ring -/

namespace SlotZone

variable {zone : SlotZone} {csnMax : ℕ}

section

variable (h : zone.RingInv csnMax)
include h

/-- The next free id is found on the pages. -/
lemma RingInv.restoreNextFree_eq :
    restoreNextFree zone.mgr.startPage zone.pages = zone.mgr.nextFreeLogicSlotId := by
  have hpages : 0 < trxPagesPerZone := by decide
  refine PagedRing.LastOnPage.climb_eq (N := trxPageSlotsNum)
    ⟨fun k _ => h.counters.le _, fun k hk hne => ?_, fun l hl => ?_⟩
    trxPageSlotsNum_pos hpages
  · exact txnSlotPageAt_inj (Nat.mod_lt _ hpages) hk (h.counters.last _ hne)
  · exact h.counters.above l hl

/-- It is free. -/
lemma RingInv.not_nextFreeTaken :
    ¬ nextFreeTaken zone.mgr.startPage zone.pages zone.mgr.nextFreeLogicSlotId := by
  rintro ⟨hne, hle⟩
  by_cases hlap : zone.mgr.nextFreeLogicSlotId < trxPagesPerZone * trxPageSlotsNum
  · have hzero := h.unused _ (Nat.le_refl _) hlap
    rw [slot] at hzero
    rw [hzero] at hne
    exact hne rfl
  · obtain ⟨l, hl⟩ := Nat.exists_eq_add_of_le' (Nat.not_lt.mp hlap)
    have hpos : 0 < trxPagesPerZone * trxPageSlotsNum := by decide
    have hname := h.named l (by omega) (by omega)
    rw [slot] at hname
    rw [hl, txnSlot_add_lap, hname] at hle
    omega

/-- Which pages, from that of the next free id on, have their last slot in use. -/
lemma RingInv.lastSlotInUse_iff {i : ℕ} (hi : i < trxPagesPerZone) :
    lastSlotInUse (zone.pages (txnSlotPageAt zone.mgr.startPage
        ((zone.mgr.nextFreeLogicSlotId / trxPageSlotsNum + i) % trxPagesPerZone))) ↔
      trxPagesPerZone ≤ zone.mgr.nextFreeLogicSlotId / trxPageSlotsNum + i ∧
        zone.mgr.recycleLogicSlotId <
          (zone.mgr.nextFreeLogicSlotId / trxPageSlotsNum + i + 1 - trxPagesPerZone) *
            trxPageSlotsNum := by
  set q := zone.mgr.nextFreeLogicSlotId / trxPageSlotsNum with hq
  have hlast : ∀ e, e / trxPageSlotsNum % trxPagesPerZone = (q + i) % trxPagesPerZone →
      e % trxPageSlotsNum = trxPageSlotsNum - 1 →
      (zone.pages (txnSlotPageAt zone.mgr.startPage ((q + i) % trxPagesPerZone))).slots
        (trxPageSlotsNum - 1) = zone.slot e := by
    intro e hpage hslot
    rw [← hpage, ← hslot]
    rfl
  have hlive := zone.mgr.live_le
  have hrecycle := zone.mgr.recycle_le
  have hframe := h.frozen
  have hlives := h.live
  have hunused := h.unused
  unfold lastSlotInUse
  simp only [trxPageSlotsNum_eq, trxPagesPerZone_eq] at *
  by_cases hlap : q + i < 127
  · -- the first lap has not come to this page yet
    rw [hlast ((q + i + 1) * 169 - 1) (by omega) (by omega), hunused _ (by omega) (by omega)]
    simp only [TransactionSlot.zero, ne_eq, not_true_eq_false, false_and, false_iff]
    omega
  · rw [hlast ((q + i + 1 - 127) * 169 - 1) (by omega) (by omega)]
    by_cases hrec : zone.mgr.recycleLogicSlotId ≤ (q + i + 1 - 127) * 169 - 1
    · have hbusy := hlives _ hrec (by omega)
      exact ⟨fun _ => ⟨by omega, by omega⟩, fun _ => hbusy⟩
    · have hfrozen := hframe ((q + i + 1 - 127) * 169 - 1) (by omega) (by omega)
      exact ⟨fun hbusy => absurd hfrozen.1 hbusy.2, fun hlt => by omega⟩

/-- Recycling starts at an id of the last lap that is not above `recycleLogicSlotId`. -/
lemma RingInv.restoreRecycleStart_bounds :
    restoreRecycleStart zone.mgr.startPage zone.pages zone.mgr.nextFreeLogicSlotId ≤
        zone.mgr.recycleLogicSlotId ∧
      zone.mgr.nextFreeLogicSlotId ≤
        restoreRecycleStart zone.mgr.startPage zone.pages zone.mgr.nextFreeLogicSlotId +
          trxPagesPerZone * trxPageSlotsNum := by
  obtain ⟨hpage, -, hhigh, hfree, hstop⟩ := findRecyclePage_spec zone.mgr.startPage zone.pages
    (zone.mgr.nextFreeLogicSlotId / trxPageSlotsNum) trxPagesPerZone 0
  have hlive := zone.mgr.live_le
  have hnamed := h.named
  rw [Nat.add_zero] at hpage hhigh hfree hstop
  unfold restoreRecycleStart
  rw [show getTxnSlotPageId zone.mgr.startPage zone.mgr.nextFreeLogicSlotId =
    txnSlotPageAt zone.mgr.startPage
      (zone.mgr.nextFreeLogicSlotId / trxPageSlotsNum % trxPagesPerZone) from rfl]
  dsimp only
  set found := findRecyclePage zone.mgr.startPage zone.pages trxPagesPerZone 0
    (txnSlotPageAt zone.mgr.startPage
      (zone.mgr.nextFreeLogicSlotId / trxPageSlotsNum % trxPagesPerZone)) with hfound
  set q := zone.mgr.nextFreeLogicSlotId / trxPageSlotsNum with hq
  -- the page that is found is the one of these ids
  have hslotAt : ∀ l, l / trxPageSlotsNum % trxPagesPerZone = (q + found.1) % trxPagesPerZone →
      (zone.pages found.2).slots (l % trxPageSlotsNum) = zone.slot l := by
    intro l hl
    rw [hpage, ← hl]
    rfl
  have hfound : found.1 < trxPagesPerZone → trxPagesPerZone ≤ q + found.1 ∧
      zone.mgr.recycleLogicSlotId <
        (q + found.1 + 1 - trxPagesPerZone) * trxPageSlotsNum := by
    intro hlt
    have hused := hstop (by omega)
    rw [hpage] at hused
    exact (h.lastSlotInUse_iff hlt).mp hused
  -- the pages passed over are recycled to their last slot
  have hbefore : ∀ j, j < found.1 → j < trxPagesPerZone →
      ¬ (trxPagesPerZone ≤ q + j ∧
        zone.mgr.recycleLogicSlotId < (q + j + 1 - trxPagesPerZone) * trxPageSlotsNum) := by
    intro j hj hlt hused
    exact hfree j (Nat.zero_le j) hj ((h.lastSlotInUse_iff hlt).mpr hused)
  unfold getSlotId
  split_ifs with hzero hall
  · -- the id at the slot of the next free one, a lap before it
    have hused := hfound (by rw [hzero]; decide)
    have hname := hnamed (zone.mgr.nextFreeLogicSlotId - trxPagesPerZone * trxPageSlotsNum)
    have hslot := hslotAt (zone.mgr.nextFreeLogicSlotId - trxPagesPerZone * trxPageSlotsNum)
    simp only [trxPageSlotsNum_eq, trxPagesPerZone_eq] at *
    rw [show zone.mgr.nextFreeLogicSlotId % 169 =
      (zone.mgr.nextFreeLogicSlotId - 127 * 169) % 169 by omega, hslot (by omega),
      hname (by omega) (by omega)]
    omega
  · -- every other page is recycled to its end
    have hprev := hbefore (trxPagesPerZone - 1) (by rw [hall]; decide) (by decide)
    simp only [trxPageSlotsNum_eq, trxPagesPerZone_eq] at *
    omega
  · -- the first id of the found page
    have hused := hfound (by omega)
    have hprev := hbefore (found.1 - 1) (by omega) (by omega)
    have hname := hnamed ((q + found.1 - trxPagesPerZone) * trxPageSlotsNum)
    have hslot := hslotAt ((q + found.1 - trxPagesPerZone) * trxPageSlotsNum)
    simp only [trxPageSlotsNum_eq, trxPagesPerZone_eq] at *
    rw [Nat.mul_mod_left] at hslot
    rw [hslot (by omega), hname (by omega) (by omega)]
    omega

end

/-- Zone and start page never change. -/
lemma Reachable.mgr_eq {zoneId : ℕ} {startPage : PageId}
    (h : Reachable zoneId startPage csnMax zone) :
    zone.mgr.zoneId = zoneId ∧ zone.mgr.startPage = startPage := by
  induction h with
  | initial => exact ⟨rfl, rfl⟩
  | @step zone call _ _ _ ih =>
    cases call with
    | allocSlot =>
      show zone.allocSlot.mgr.zoneId = zoneId ∧ zone.allocSlot.mgr.startPage = startPage
      unfold allocSlot
      split_ifs
      · exact ih
      · exact ih
    | setSlotUndoPtr _ _ _ => exact ih
    | commitPending _ _ => exact ih
    | commitCommitted _ _ _ _ => exact ih
    | rollbackTxnSlot _ _ => exact ih
    | recycleTxnSlots _ => exact ih

end SlotZone

/-- The slot of a transaction that has not ended, or whose changes some snapshot of
`recycleMinCsn` or later may have to undo. -/
def TransactionSlot.Needed (slot : TransactionSlot) (recycleMinCsn : ℕ) : Prop :=
  slot.status = .inProgress ∨ slot.status = .pendingCommit ∨
    slot.status = .committed ∧ ¬ slot.csn < recycleMinCsn

/-- A slot that can be recycled is no longer needed. -/
lemma Recyclable.not_needed {slot : TransactionSlot} {recycleMinCsn : ℕ}
    (h : Recyclable recycleMinCsn slot) (hcsn : commitSeqNoFirstNormal ≤ recycleMinCsn) :
    ¬ slot.Needed recycleMinCsn := by
  rintro (hrun | hpending | ⟨-, hnot⟩)
  · exact h.1 hrun
  · exact h.2.1 hpending
  · rcases h.2.2 with hinvalid | hlt
    · rw [hinvalid] at hnot
      exact hnot hcsn
    · exact hnot hlt

/-- `Restore` on the slot pages any history leaves behind, with a recycle csn (which is never
below the first normal one) not below those used before: the next free id comes back, the first
id to recycle is not above it and not below the one before, the ids of the last lap below it are
frozen, and no slot still needed is below it. -/
theorem slot_ring_restored {zoneId : ℕ} {startPage : PageId} {csnMax : ℕ} {zone : SlotZone}
    (h : SlotZone.Reachable zoneId startPage csnMax zone) (recycleMinCsn : ℕ)
    (hmax : csnMax ≤ recycleMinCsn) (hnormal : commitSeqNoFirstNormal ≤ recycleMinCsn) :
    ∃ st, restoreSlots zoneId startPage recycleMinCsn zone.pages =
        some (zone.mgr.nextFreeLogicSlotId, st) ∧
      st.recycleLogicSlotId ≤ zone.mgr.nextFreeLogicSlotId ∧
      zone.mgr.recycleLogicSlotId ≤ st.recycleLogicSlotId ∧
      (∀ l, l < st.recycleLogicSlotId →
        zone.mgr.nextFreeLogicSlotId ≤ l + trxPagesPerZone * trxPageSlotsNum →
        (txnSlot startPage st.pages l).logicSlotId = l ∧
          (txnSlot startPage st.pages l).status = .frozen) ∧
      ∀ l, l < zone.mgr.nextFreeLogicSlotId →
        zone.mgr.nextFreeLogicSlotId ≤ l + trxPagesPerZone * trxPageSlotsNum →
        (zone.slot l).Needed recycleMinCsn → st.recycleLogicSlotId ≤ l := by
  have hinv := h.ringInv
  obtain ⟨hzone, hstart⟩ := h.mgr_eq
  obtain ⟨hlow, hwindow⟩ := hinv.restoreRecycleStart_bounds
  have hrecycle := zone.mgr.recycle_le
  rw [hstart] at hlow hwindow
  set start := restoreRecycleStart startPage zone.pages zone.mgr.nextFreeLogicSlotId with hstartDef
  -- the counters recycling starts from are those of a proper ring
  let mgr : UndoZoneTrxManager :=
    { zoneId := zoneId
      startPage := startPage
      recycleLogicSlotId := start
      nextFreeLogicSlotId := zone.mgr.nextFreeLogicSlotId
      recycle_le := Nat.le_trans hlow hrecycle
      live_le := hwindow }
  let st := recycleTxnSlots recycleMinCsn mgr zone.pages invalidUndoRecPtr invalidUndoRecPtr
  have hspec : RunSpec mgr recycleMinCsn zone.pages st := recycleTxnSlots_spec _ _ _ _ _
  have hle : start ≤ st.recycleLogicSlotId := hspec.le
  have hnext : st.recycleLogicSlotId ≤ zone.mgr.nextFreeLogicSlotId := hspec.le_next
  have hslot : ∀ l, txnSlot startPage zone.pages l = zone.slot l := fun l => by
    rw [SlotZone.slot, hstart]
  -- below the start everything was frozen before, above it the pass freezes
  have hslots : ∀ l, l < zone.mgr.nextFreeLogicSlotId →
      zone.mgr.nextFreeLogicSlotId ≤ l + trxPagesPerZone * trxPageSlotsNum →
      txnSlot startPage st.pages l =
        if start ≤ l ∧ l < st.recycleLogicSlotId then { zone.slot l with status := .frozen }
        else zone.slot l := by
    intro l hl hwin
    rw [← hslot]
    exact hspec.frozen.txnSlot_eq (a := zone.mgr.nextFreeLogicSlotId -
      trxPagesPerZone * trxPageSlotsNum) ⟨by omega, by omega⟩
      (fun i (hi : start ≤ i) hir => ⟨by omega, by omega⟩)
  -- a slot frozen before is recyclable again
  have hagain : ∀ l, l < zone.mgr.recycleLogicSlotId →
      zone.mgr.nextFreeLogicSlotId ≤ l + trxPagesPerZone * trxPageSlotsNum →
      Recyclable recycleMinCsn (zone.slot l) := by
    intro l hl hwin
    obtain ⟨hfrozen, hcsn⟩ := hinv.frozen l hl hwin
    rw [Recyclable, hfrozen]
    exact ⟨by rintro ⟨⟩, by rintro ⟨⟩, hcsn.imp id fun hlt => Nat.lt_of_lt_of_le hlt hmax⟩
  refine ⟨st, ?_, hnext, ?_, fun l hl hwin => ?_, fun l hl hwin hneed => ?_⟩
  · unfold restoreSlots
    rw [← hstart, hinv.restoreNextFree_eq]
    dsimp only
    rw [if_neg hinv.not_nextFreeTaken, hstart]
    rfl
  · -- so the pass does not stop at one
    by_contra hback
    rcases hspec.stop with hend | hstop
    · have hend : st.recycleLogicSlotId = zone.mgr.nextFreeLogicSlotId := hend
      omega
    · apply hstop
      show Recyclable recycleMinCsn (txnSlot startPage zone.pages st.recycleLogicSlotId)
      rw [hslot]
      exact hagain _ (by omega) (by omega)
  · rw [hslots l (by omega) hwin]
    have hname := hinv.named l (by omega) hwin
    split_ifs with hmem
    · exact ⟨hname, rfl⟩
    · exact ⟨hname, (hinv.frozen l (by omega) hwin).1⟩
  · by_contra hbelow
    have hrec : Recyclable recycleMinCsn (zone.slot l) := by
      by_cases hmem : start ≤ l
      · rw [← hslot]
        exact hspec.recycled l hmem (by omega)
      · exact hagain l (by omega) hwin
    exact hrec.not_needed hnormal hneed

/-- One transaction committed and recycled, the next one running. -/
def oneRecycledZone : SlotZone :=
  ((((((SlotZone.initial 0 ⟨1, 1⟩).step .allocSlot).step (.commitPending 0 5)).step
    (.commitCommitted 0 .default 6 ⟨1, 0, 100⟩)).step (.recycleTxnSlots 7)).step .allocSlot)

/-- The restart of such a zone finds the next free id 2 and stops at the running transaction. -/
theorem oneRecycledZone_restored :
    ∃ st, restoreSlots 0 ⟨1, 1⟩ 7 oneRecycledZone.pages = some (2, st) ∧
      st.recycleLogicSlotId = 1 ∧ (txnSlot ⟨1, 1⟩ st.pages 0).status = .frozen := by
  have hreach : SlotZone.Reachable 0 ⟨1, 1⟩ 7 oneRecycledZone := by
    refine .step (.step (.step (.step (.step .initial ?_ ?_) ?_ ?_) ?_ ?_) ?_ ?_) ?_ ?_ <;> decide
  have hnext : oneRecycledZone.mgr.nextFreeLogicSlotId = 2 := by decide
  have hrecycle : oneRecycledZone.mgr.recycleLogicSlotId = 1 := by decide
  have hrunning : (oneRecycledZone.slot 1).status = .inProgress := by decide
  obtain ⟨st, hst, hle, hge, hfrozen, hneeded⟩ := slot_ring_restored hreach 7 (by decide)
    (by decide)
  rw [hnext] at hst hle hfrozen hneeded
  rw [hrecycle] at hge
  have hstop := hneeded 1 (by decide) (by decide) (Or.inl hrunning)
  exact ⟨st, hst, by omega, (hfrozen 0 (by omega) (by decide)).2⟩

/-! ## The slot of a running transaction -/

/-- The slot a call writes to. -/
def SlotCall.logicSlotId : SlotCall → Option ℕ
  | .setSlotUndoPtr id _ _ | .commitPending id _ | .commitCommitted id _ _ _
  | .rollbackTxnSlot id _ => some id
  | .allocSlot | .recycleTxnSlots _ => none

namespace SlotZone

variable {zone zone' : SlotZone} {id : ℕ}

/-- A call that does not come from the transaction of slot `id`. -/
def OtherCall (id : ℕ) (zone zone' : SlotZone) : Prop :=
  ∃ call : SlotCall, zone.Fits call ∧ call.logicSlotId ≠ some id ∧ zone' = zone.step call

/-- A call for another slot leaves an active one. -/
lemma OtherCall.active (hcall : OtherCall id zone zone') (h : zone.Active id) :
    zone'.Active id ∧ zone'.slot id = zone.slot id := by
  obtain ⟨call, hfits, hother, rfl⟩ := hcall
  obtain ⟨hlow, hhigh, hstatus⟩ := h
  have hlive := zone.mgr.live_le
  have hid : InLap zone.mgr.recycleLogicSlotId id := ⟨hlow, by omega⟩
  have hmodify : ∀ other f, zone.Active other → some other ≠ some id →
      (zone.modifySlot other f).slot id = zone.slot id := by
    intro other f ⟨hotherLow, hotherHigh, _⟩ hne
    rw [modifySlot_slot ⟨hotherLow, by omega⟩ hid, if_neg (by rintro rfl; exact hne rfl)]
  suffices hkept : (zone.step call).mgr.recycleLogicSlotId ≤ id ∧
      id < (zone.step call).mgr.nextFreeLogicSlotId ∧ (zone.step call).slot id = zone.slot id from
    ⟨⟨hkept.1, hkept.2.1, by rwa [hkept.2.2]⟩, hkept.2.2⟩
  cases call with
  | allocSlot =>
    rw [step]
    by_cases hfree : zone.mgr.hasFreeSlot
    · have hroom : _ < _ := hfree
      rw [allocSlot_recycle hfree, allocSlot_next hfree,
        allocSlot_slot hfree ⟨zone.mgr.recycle_le, by omega⟩ hid, if_neg hhigh.ne]
      exact ⟨hlow, by omega, rfl⟩
    · rw [allocSlot_of_full hfree]
      exact ⟨hlow, hhigh, rfl⟩
  | setSlotUndoPtr other | commitPending other | commitCommitted other | rollbackTxnSlot other =>
    exact ⟨hlow, hhigh, hmodify other _ hfits hother⟩
  | recycleTxnSlots csn =>
    -- recycling stops before a transaction that has not ended
    have hstop : (zone.recycleTxnSlots csn).mgr.recycleLogicSlotId ≤ id := by
      by_contra hlt
      have hrec := (zone.recycled_spec csn).recycled id hlow (not_le.mp hlt)
      exact hstatus.elim hrec.1 hrec.2.1
    rw [step, recycleTxnSlots_slot (fun i hi hi' => ⟨hi, by omega⟩) hid, if_neg (by omega)]
    exact ⟨hstop, hhigh, rfl⟩

/-- Other transactions and recycling leave the slot of a running transaction as it is. -/
theorem Active.kept_by_others (h : zone.Active id)
    (hrun : Relation.ReflTransGen (OtherCall id) zone zone') :
    zone'.Active id ∧ zone'.slot id = zone.slot id := by
  induction hrun with
  | refl => exact ⟨h, rfl⟩
  | tail _ hcall ih =>
    obtain ⟨hactive, hslot⟩ := hcall.active ih.1
    exact ⟨hactive, hslot.trans ih.2⟩

/-- A recycling stops at slot 1. -/
theorem kept_by_others_recycle : (oneRecycledZone.step (.recycleTxnSlots 9)).Active 1 :=
  (Active.kept_by_others (by decide) (.single ⟨.recycleTxnSlots 9, trivial, by decide, rfl⟩)).1

end SlotZone

/-! ## The last pointer into the undo space -/

/-- The `uint64` before `n`. -/
def prevUInt64 (n : ℕ) : ℕ := (n + (2 ^ 64 - 1)) % 2 ^ 64

/-- The slot pages of a zone, from `m_startPage` on. -/
structure TxnSlotRing where
  startPage : PageId
  pages : TxnSlotPages

namespace TxnSlotRing

variable (ring : TxnSlotRing)

/-- The page of a slot. -/
def pageOf (id : ℕ) : TransactionSlotPage := ring.pages (getTxnSlotPageId ring.startPage id)

/-- The slot's last record in the undo space. -/
def spaceTail (id : ℕ) : UndoRecPtr := ((ring.pageOf id).slots (getSlotId id)).spaceTailUndoPtr

/-- The loop of `GetLastSpaceUndoRecPtr`, with the page it has locked: the pointer it returns and
the slots it visits. -/
def lastSpaceLoop (headUndoSlotId : ℕ) :
    ℕ → ℕ → Option TransactionSlotPage → Option (UndoRecPtr × List ℕ)
  | 0, _, _ => none
  | steps + 1, tail, locked =>
    if headUndoSlotId ≤ tail then
      let page := locked.getD (ring.pageOf tail)
      let lastPtr := (page.slots (getSlotId tail)).spaceTailUndoPtr
      if lastPtr ≠ invalidUndoRecPtr then some (lastPtr, [tail])
      else
        let next := prevUInt64 tail
        let locked := if next % trxPageSlotsNum = trxPageSlotsNum - 1 then none else some page
        (lastSpaceLoop headUndoSlotId steps next locked).map fun r => (r.1, tail :: r.2)
    else some (invalidUndoRecPtr, [])

/-- `GetLastSpaceUndoRecPtr`, if it tests the condition of the loop `steps` times at most. -/
def getLastSpaceUndoRecPtr (recycleLogicSlotId nextFreeLogicSlotId : UInt64)
    (firstAppendSlotId : Option UInt64) (steps : ℕ) : Option (UndoRecPtr × List ℕ) :=
  ring.lastSpaceLoop (firstAppendSlotId.getD recycleLogicSlotId).toNat steps
    (prevUInt64 nextFreeLogicSlotId.toNat) none

/-- No slot of the window has a pointer. -/
def NoPtr (head next : ℕ) : Prop :=
  ∀ j, head ≤ j → j < next → ring.spaceTail j = invalidUndoRecPtr

/-- The highest slot of the window that has a pointer. -/
def LastPtr (head next id : ℕ) : Prop :=
  head ≤ id ∧ id < next ∧ ring.spaceTail id ≠ invalidUndoRecPtr ∧ ring.NoPtr (id + 1) next

/-- The search ends in as many rounds as there are slots in the window, visits no others, and finds
the pointer of the highest slot that has one. -/
def FindsLastPtr (recycle next : UInt64) : Prop :=
  ∃ ptr visited, ring.getLastSpaceUndoRecPtr recycle next none
      (next.toNat - recycle.toNat + 1) = some (ptr, visited) ∧
    (∀ id ∈ visited, recycle.toNat ≤ id ∧ id < next.toNat) ∧
    ((∃ id, ring.LastPtr recycle.toNat next.toNat id ∧ ptr = ring.spaceTail id) ∨
      ptr = invalidUndoRecPtr ∧ ring.NoPtr recycle.toNat next.toNat)

variable {ring} {head next tail : ℕ} {locked : Option TransactionSlotPage}

/-- A slot without pointer extends the range without one. -/
lemma NoPtr.succ (h : ring.NoPtr head tail) (hptr : ring.spaceTail tail = invalidUndoRecPtr) :
    ring.NoPtr head (tail + 1) := by
  intro j hj hj'
  rcases Nat.lt_succ_iff_lt_or_eq.mp hj' with hlow | rfl
  · exact h j hj hlow
  · exact hptr

/-- The page stays locked unless the slot before is the last one of another page. -/
lemma pageOf_prev (htail : tail < 2 ^ 64) : ∀ page ∈ (if prevUInt64 tail % trxPageSlotsNum =
    trxPageSlotsNum - 1 then none else some (ring.pageOf tail)), page = ring.pageOf (tail - 1) := by
  intro page hpage
  split at hpage
  · cases hpage
  next hborder =>
    have hsame : tail / trxPageSlotsNum = (tail - 1) / trxPageSlotsNum := by
      simp only [trxPageSlotsNum_eq, prevUInt64] at *
      omega
    rw [← Option.mem_some_iff.mp hpage]
    simp only [pageOf, getTxnSlotPageId, hsame]

/-- The loop over the `n` slots below `next` finds the last pointer, or comes to the slot before
them. -/
lemma lastSpaceLoop_window (n : ℕ) (hnext : next = head + n) (hlt : next < 2 ^ 64)
    (hlocked : ∀ page ∈ locked, page = ring.pageOf (next - 1)) :
    ∃ visited, (∀ id ∈ visited, head ≤ id ∧ id < next) ∧
      ((∃ id, ring.LastPtr head next id ∧
        ring.lastSpaceLoop head (n + 1) (prevUInt64 next) locked =
          some (ring.spaceTail id, visited)) ∨
      ring.NoPtr head next ∧
        ∃ locked', ring.lastSpaceLoop head (n + 1) (prevUInt64 next) locked =
          (ring.lastSpaceLoop head 1 (prevUInt64 head) locked').map
            fun r => (r.1, visited ++ r.2)) := by
  induction n generalizing next locked with
  | zero =>
    subst hnext
    exact ⟨[], by simp, .inr ⟨fun j hj hj' => by omega, locked, by simp⟩⟩
  | succ n ih =>
    obtain ⟨tail, rfl⟩ : ∃ tail, next = tail + 1 := ⟨head + n, hnext⟩
    have htail : prevUInt64 (tail + 1) = tail := by
      unfold prevUInt64
      omega
    have hpage : locked.getD (ring.pageOf tail) = ring.pageOf tail := by
      cases locked with
      | none => rfl
      | some page => exact hlocked page rfl
    have hhead : head ≤ tail := by omega
    rw [htail, lastSpaceLoop, if_pos hhead, hpage]
    dsimp only
    rw [← spaceTail]
    by_cases hptr : ring.spaceTail tail = invalidUndoRecPtr
    · obtain ⟨visited, hvisited, hloop⟩ := @ih tail _ (by omega) (by omega)
        (pageOf_prev (by omega))
      refine ⟨tail :: visited, List.forall_mem_cons.mpr ⟨by omega, fun id hid => ?_⟩, ?_⟩
      · have := hvisited id hid
        omega
      rcases hloop with ⟨id, ⟨hle, hid, hvalid, hnone⟩, heq⟩ | ⟨hnone, locked', heq⟩
      · refine .inl ⟨id, ⟨hle, by omega, hvalid, hnone.succ hptr⟩, ?_⟩
        rw [if_neg (not_not.mpr hptr), heq]
        rfl
      · refine .inr ⟨hnone.succ hptr, locked', ?_⟩
        rw [if_neg (not_not.mpr hptr), heq, Option.map_map]
        rfl
    · refine ⟨[tail], by simp; omega, .inl ⟨tail, ⟨by omega, by omega, hptr, ?_⟩, if_pos hptr⟩⟩
      exact fun j hj hj' => by omega

/-- `GetLastSpaceUndoRecPtr` is right exactly if the window does not start at slot 0, or a slot in
it has a pointer. -/
theorem getLastSpaceUndoRecPtr_iff (ring : TxnSlotRing) (recycle next : UInt64)
    (hle : recycle ≤ next) : ring.FindsLastPtr recycle next ↔
      recycle ≠ 0 ∨ ∃ id < next.toNat, ring.spaceTail id ≠ invalidUndoRecPtr := by
  have hlt := next.toNat_lt
  have hwindow : next.toNat = recycle.toNat + (next.toNat - recycle.toNat) :=
    (Nat.add_sub_cancel' hle).symm
  obtain ⟨visited, hvisited, ⟨id, hid, hloop⟩ | ⟨hnone, locked', hloop⟩⟩ :=
    @lastSpaceLoop_window ring _ _ none _ hwindow hlt (by simp)
  · exact iff_of_true ⟨_, visited, hloop, hvisited, .inl ⟨id, hid, rfl⟩⟩
      (.inr ⟨id, hid.2.1, hid.2.2.1⟩)
  by_cases hzero : recycle = 0
  · -- the slot before is that of the largest `uint64`
    subst hzero
    refine iff_of_false ?_ (by simpa using fun j hj => hnone j (Nat.zero_le j) hj)
    rintro ⟨ptr, rest, hrun, hrest, -⟩
    obtain ⟨last, hlast, heq⟩ := Option.map_eq_some_iff.mp (hloop.symm.trans hrun)
    rw [lastSpaceLoop, if_pos (by decide)] at hlast
    dsimp only at hlast
    split at hlast
    · cases hlast
      cases heq
      have := hrest (prevUInt64 0) (by simp)
      simp only [prevUInt64] at *
      omega
    · simp [lastSpaceLoop] at hlast
  · have hpos : recycle.toNat ≠ 0 := fun h => hzero (UInt64.toNat_inj.mp h)
    refine iff_of_true ⟨_, visited, hloop.trans ?_, hvisited, .inr ⟨rfl, hnone⟩⟩ (.inl hzero)
    rw [lastSpaceLoop, if_neg]
    · simp
    · unfold prevUInt64
      omega

/-- A zone with three allocated slots, of which only the second has written undo. -/
def threeSlotZone : SlotZone :=
  ((((SlotZone.initial 0 ⟨1, 1⟩).step .allocSlot).step .allocSlot).step
    (.setSlotUndoPtr 1 ⟨⟨3, 4⟩, 100⟩ true)).step .allocSlot

/-- The search passes the third slot and finds the pointer of the second; with the second slot
recycled it finds none. -/
theorem getLastSpaceUndoRecPtr_threeSlots :
    FindsLastPtr ⟨⟨1, 1⟩, threeSlotZone.pages⟩ 0 3 ∧
      FindsLastPtr ⟨⟨1, 1⟩, threeSlotZone.pages⟩ 2 3 :=
  ⟨(getLastSpaceUndoRecPtr_iff _ 0 3 (by decide)).mpr (.inr ⟨1, by decide, by decide⟩),
    (getLastSpaceUndoRecPtr_iff _ 2 3 (by decide)).mpr (.inl (by decide))⟩

/-- In a zone that was never used the search reads the slot of the largest `uint64`. -/
theorem getLastSpaceUndoRecPtr_unused :
    ¬FindsLastPtr ⟨⟨1, 1⟩, (SlotZone.initial 0 ⟨1, 1⟩).pages⟩ 0 0 := by
  rintro ⟨ptr, visited, hrun, hwindow, -⟩
  have hread : getLastSpaceUndoRecPtr ⟨⟨1, 1⟩, (SlotZone.initial 0 ⟨1, 1⟩).pages⟩ 0 0 none 1 =
      some (⟨⟨0, 0⟩, 0⟩, [2 ^ 64 - 1]) := by decide +kernel
  cases hread.symm.trans hrun
  exact absurd (hwindow (2 ^ 64 - 1) (by simp)).2 (by decide)

end TxnSlotRing

end DStore
