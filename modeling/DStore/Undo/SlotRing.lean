import DStore.Undo.RecycleRedo

/-!
# The slot ring of a zone over its life

`AllocSlot`, `SetSlotUndoPtr`, `Commit`, `RollbackTxnSlot` and `RecycleTxnSlots` on the slots of
one zone, and what every history of them keeps: the ids of the last lap are on the pages under
their own names, those below `recycleLogicSlotId` are frozen, the others are not, and the counter
of each page is one above the last id allocated on it.
-/

namespace DStore

open TransactionSlot Function UndoZoneTrxManager

/-! ## The calls on a zone's slots -/

/-- `UndoZoneTrxManager::HasFreeSlot`. -/
def UndoZoneTrxManager.hasFreeSlot (mgr : UndoZoneTrxManager) : Prop :=
  mgr.nextFreeLogicSlotId - mgr.recycleLogicSlotId < trxPagesPerZone * trxPageSlotsNum

instance (mgr : UndoZoneTrxManager) : Decidable mgr.hasFreeSlot :=
  inferInstanceAs (Decidable (_ < _))

/-- `CsnMode`, as `CsnMgr::GetCsnMode` answers it. -/
inductive CsnMode where
  | default
  | broadcast
  | globalClock
deriving DecidableEq, Repr

/-- `WalGroupLsnInfo`: where a group of records went. -/
structure WalGroupLsnInfo where
  walId : WalId
  startPlsn : ℕ
  endPlsn : ℕ
deriving DecidableEq, Repr

namespace TransactionSlot

variable (slot : TransactionSlot)

/-- `TransactionSlot::SetWalInfo`: the parameter `txnCommitWalId` is a `uint16`. -/
def setWalInfo (txnCommitWalId : WalId) (txnCommitEndPlsn : ℕ) : TransactionSlot :=
  { slot with
    walId := txnCommitWalId.toUInt16.toUInt64
    commitEndPlsn := txnCommitEndPlsn }

/-- `UndoZoneTrxManager::SetSlotUndoPtr` on the slot. -/
def setUndoPtr (undoRecPtr : UndoRecPtr) (insertUndoFlag : Bool) : TransactionSlot :=
  { slot with
    curTailUndoPtr := undoRecPtr
    spaceTailUndoPtr := if insertUndoFlag then undoRecPtr else slot.spaceTailUndoPtr }

/-- `UndoZoneTrxManager::Commit<TXN_STATUS_PENDING_COMMIT>` on the slot. -/
def commitPending (csn : ℕ) : TransactionSlot :=
  { slot with csn := csn, status := .pendingCommit }

/-- `UndoZoneTrxManager::Commit<TXN_STATUS_COMMITTED>` on the slot. In broadcast mode the csn is
the one the pending commit has set. -/
def commitCommitted (csnMode : CsnMode) (csn : ℕ)
    (walGroupPtr : WalGroupLsnInfo) : TransactionSlot :=
  setWalInfo
    { slot with
      csn := if csnMode = .broadcast then slot.csn else csn
      status := .committed }
    walGroupPtr.walId walGroupPtr.endPlsn

/-- `UndoZoneTrxManager::RollbackTxnSlot` on the slot. -/
def rollback (csn : ℕ) : TransactionSlot :=
  { slot with csn := csn, status := .aborted }

end TransactionSlot

/-- Change the slot of a logic id in place. -/
def modifyTxnSlot (startPage : PageId) (pages : TxnSlotPages) (logicSlotId : ℕ)
    (f : TransactionSlot → TransactionSlot) : TxnSlotPages :=
  let pageId := getTxnSlotPageId startPage logicSlotId
  let slotId := getSlotId logicSlotId
  Function.update pages pageId
    { pages pageId with
      slots := Function.update (pages pageId).slots slotId (f ((pages pageId).slots slotId)) }

/-- `TransactionSlotPage::SetNextFreeLogicSlotId` on the page of a logic id. -/
def setPageNextFree (startPage : PageId) (pages : TxnSlotPages) (logicSlotId next : ℕ) :
    TxnSlotPages :=
  let pageId := getTxnSlotPageId startPage logicSlotId
  Function.update pages pageId { pages pageId with nextFreeLogicSlotId := next }

/-- A zone's slot manager and its slot pages. -/
structure SlotZone where
  mgr : UndoZoneTrxManager
  pages : TxnSlotPages

/-- The calls made on the slots of a zone. A transaction names its slot by the logic id. -/
inductive SlotCall where
  | allocSlot
  | setSlotUndoPtr (logicSlotId : ℕ) (undoRecPtr : UndoRecPtr) (insertUndoFlag : Bool)
  | commitPending (logicSlotId csn : ℕ)
  | commitCommitted (logicSlotId : ℕ) (csnMode : CsnMode) (csn : ℕ)
      (walGroupPtr : WalGroupLsnInfo)
  | rollbackTxnSlot (logicSlotId csn : ℕ)
  | recycleTxnSlots (recycleMinCsn : ℕ)

namespace SlotZone

variable (zone : SlotZone)

/-- The slot of a logic id. -/
def slot (logicSlotId : ℕ) : TransactionSlot := txnSlot zone.mgr.startPage zone.pages logicSlotId

/-- A zone after `UndoZoneTrxManager::Init` has cleared its slot pages. -/
def initial (zoneId : ℕ) (startPage : PageId) : SlotZone where
  mgr :=
    { zoneId := zoneId
      startPage := startPage
      recycleLogicSlotId := 0
      nextFreeLogicSlotId := 0
      recycle_le := Nat.le_refl 0
      live_le := Nat.zero_le _ }
  pages := fun _ => { nextFreeLogicSlotId := 0, slots := fun _ => TransactionSlot.zero }

/-- Change one slot. -/
def modifySlot (logicSlotId : ℕ) (f : TransactionSlot → TransactionSlot) : SlotZone :=
  { zone with pages := modifyTxnSlot zone.mgr.startPage zone.pages logicSlotId f }

/-- `UndoZoneTrxManager::AllocSlot`; a full zone is left as it is. -/
def allocSlot : SlotZone :=
  if hfree : zone.mgr.hasFreeSlot then
    let id := zone.mgr.nextFreeLogicSlotId
    { mgr :=
        { zone.mgr with
          nextFreeLogicSlotId := id + 1
          recycle_le := Nat.le_succ_of_le zone.mgr.recycle_le
          live_le := by
            have := zone.mgr.recycle_le
            unfold hasFreeSlot at hfree
            omega }
      pages := setPageNextFree zone.mgr.startPage
        (modifyTxnSlot zone.mgr.startPage zone.pages id fun _ => TransactionSlot.init id)
        id (id + 1) }
  else zone

/-- `UndoZoneTrxManager::RecycleTxnSlots` as `UndoZone::Recycle` calls it. -/
def recycled (recycleMinCsn : ℕ) : RecycleState :=
  DStore.recycleTxnSlots recycleMinCsn zone.mgr zone.pages invalidUndoRecPtr invalidUndoRecPtr

lemma recycled_spec (recycleMinCsn : ℕ) :
    RunSpec zone.mgr recycleMinCsn zone.pages (zone.recycled recycleMinCsn) :=
  recycleTxnSlots_spec zone.mgr zone.pages recycleMinCsn invalidUndoRecPtr invalidUndoRecPtr

/-- The zone after `RecycleTxnSlots`. -/
def recycleTxnSlots (recycleMinCsn : ℕ) : SlotZone :=
  have hspec := recycleTxnSlots_spec zone.mgr zone.pages recycleMinCsn invalidUndoRecPtr
    invalidUndoRecPtr
  { mgr :=
      { zone.mgr with
        recycleLogicSlotId := (zone.recycled recycleMinCsn).recycleLogicSlotId
        recycle_le := hspec.le_next
        live_le := Nat.le_trans zone.mgr.live_le (Nat.add_le_add_right hspec.le _) }
    pages := (zone.recycled recycleMinCsn).pages }

/-- One call. -/
def step : SlotCall → SlotZone
  | .allocSlot => zone.allocSlot
  | .setSlotUndoPtr id ptr insertUndoFlag =>
    zone.modifySlot id fun slot => slot.setUndoPtr ptr insertUndoFlag
  | .commitPending id csn => zone.modifySlot id fun slot => slot.commitPending csn
  | .commitCommitted id csnMode csn walGroupPtr =>
    zone.modifySlot id fun slot => slot.commitCommitted csnMode csn walGroupPtr
  | .rollbackTxnSlot id csn => zone.modifySlot id fun slot => slot.rollback csn
  | .recycleTxnSlots recycleMinCsn => zone.recycleTxnSlots recycleMinCsn

/-- The slot of a transaction that has not ended. -/
def Active (logicSlotId : ℕ) : Prop :=
  zone.mgr.recycleLogicSlotId ≤ logicSlotId ∧ logicSlotId < zone.mgr.nextFreeLogicSlotId ∧
    ((zone.slot logicSlotId).status = .inProgress ∨
      (zone.slot logicSlotId).status = .pendingCommit)

instance (logicSlotId : ℕ) : Decidable (zone.Active logicSlotId) :=
  inferInstanceAs (Decidable (_ ∧ _ ∧ _))

/-- What callers keep to: a transaction writes to its own slot, until it has ended. -/
def Fits : SlotCall → Prop
  | .setSlotUndoPtr id _ _ => zone.Active id
  | .commitPending id _ => zone.Active id
  | .commitCommitted id _ _ _ => zone.Active id
  | .rollbackTxnSlot id _ => zone.Active id
  | .allocSlot => True
  | .recycleTxnSlots _ => True

instance : (call : SlotCall) → Decidable (zone.Fits call)
  | .setSlotUndoPtr id _ _ => inferInstanceAs (Decidable (zone.Active id))
  | .commitPending id _ => inferInstanceAs (Decidable (zone.Active id))
  | .commitCommitted id _ _ _ => inferInstanceAs (Decidable (zone.Active id))
  | .rollbackTxnSlot id _ => inferInstanceAs (Decidable (zone.Active id))
  | .allocSlot => inferInstanceAs (Decidable True)
  | .recycleTxnSlots _ => inferInstanceAs (Decidable True)

end SlotZone

/-! ## What a call changes -/

section Effects

variable {startPage : PageId} {pages pages' : TxnSlotPages} {id l a : ℕ}
  {f : TransactionSlot → TransactionSlot}

/-- The window of one lap from `a`. -/
def InLap (a l : ℕ) : Prop := a ≤ l ∧ l < a + trxPagesPerZone * trxPageSlotsNum

/-- A changed slot is seen under the ids that share it. -/
lemma txnSlot_modifyTxnSlot (l : ℕ) : txnSlot startPage (modifyTxnSlot startPage pages id f) l =
    if getTxnSlotPageId startPage l = getTxnSlotPageId startPage id ∧ getSlotId l = getSlotId id
    then f (txnSlot startPage pages id) else txnSlot startPage pages l := by
  unfold txnSlot modifyTxnSlot
  by_cases hpage : getTxnSlotPageId startPage l = getTxnSlotPageId startPage id
  · simp [hpage, update_apply]
  · simp [hpage]

/-- In one lap only the id itself does. -/
lemma txnSlot_modifyTxnSlot_inLap (hid : InLap a id) (hl : InLap a l) :
    txnSlot startPage (modifyTxnSlot startPage pages id f) l =
      if l = id then f (txnSlot startPage pages id) else txnSlot startPage pages l := by
  have hsame : getTxnSlotPageId startPage l = getTxnSlotPageId startPage id ∧
      getSlotId l = getSlotId id ↔ l = id :=
    ⟨fun h => id_eq_of_same_slot hl hid h.1 h.2, fun h => by rw [h]; exact ⟨rfl, rfl⟩⟩
  rw [txnSlot_modifyTxnSlot, if_congr hsame rfl rfl]

@[simp] lemma modifyTxnSlot_nextFree (p : PageId) :
    (modifyTxnSlot startPage pages id f p).nextFreeLogicSlotId = (pages p).nextFreeLogicSlotId :=
  apply_update_of_eq TransactionSlotPage.nextFreeLogicSlotId (by rfl)

@[simp] lemma txnSlot_setPageNextFree (next : ℕ) :
    txnSlot startPage (setPageNextFree startPage pages id next) l = txnSlot startPage pages l :=
  apply_update_of_eq (fun page : TransactionSlotPage => page.slots (getSlotId l)) (by rfl)

lemma setPageNextFree_nextFree (next : ℕ) (p : PageId) :
    (setPageNextFree startPage pages id next p).nextFreeLogicSlotId =
      if p = getTxnSlotPageId startPage id then next else (pages p).nextFreeLogicSlotId := by
  unfold setPageNextFree
  by_cases hp : p = getTxnSlotPageId startPage id
  · rw [if_pos hp, hp, update_self]
  · rw [if_neg hp, update_of_ne hp]

/-- Recycling freezes the slots of its range and no others. -/
lemma FrozenExactly.txnSlot_eq {r r' : ℕ}
    (h : FrozenExactly (Covers startPage r r') pages pages') (hl : InLap a l)
    (hrun : ∀ i, r ≤ i → i < r' → InLap a i) :
    txnSlot startPage pages' l =
      if r ≤ l ∧ l < r' then { txnSlot startPage pages l with status := .frozen }
      else txnSlot startPage pages l := by
  unfold txnSlot
  split_ifs with hmem
  · exact (h _ _).1 ⟨l, hmem.1, hmem.2, rfl, rfl⟩
  · refine (h _ _).2 ?_
    rintro ⟨i, hri, hir, hpage, hslot⟩
    have hil : i = l := id_eq_of_same_slot (hrun i hri hir) hl hpage hslot
    exact hmem ⟨hil ▸ hri, hil ▸ hir⟩

lemma freezeTxnSlot_nextFree (st : RecycleState) (p : PageId) :
    ((freezeTxnSlot startPage st).pages p).nextFreeLogicSlotId =
      (st.pages p).nextFreeLogicSlotId :=
  apply_update_of_eq TransactionSlotPage.nextFreeLogicSlotId (by rfl)

lemma recycleLoop_nextFree (zoneId recycleMinCsn n : ℕ) (st : RecycleState) (p : PageId) :
    ((recycleLoop zoneId startPage recycleMinCsn n st).pages p).nextFreeLogicSlotId =
      (st.pages p).nextFreeLogicSlotId := by
  refine @recycleLoop_invariant _ _ _ (fun st' => (st'.pages p).nextFreeLogicSlotId =
    (st.pages p).nextFreeLogicSlotId) (fun _ _ _ h => h) (fun st' h => ?_) n st rfl
  rw [(loopBody_eq zoneId startPage recycleMinCsn st').1, freezeTxnSlot_nextFree, h]

lemma finishRecycle_pages (zoneId recycleMinCsn r : ℕ) (st : RecycleState) :
    (finishRecycle zoneId startPage recycleMinCsn r st).pages = st.pages := by
  unfold finishRecycle generateWalForRecycle
  split_ifs <;> rfl

end Effects

/-! ## The invariant of the ring -/

/-- The page counters of a zone that has allocated the ids below `next`: each is one above the
last of them on its page. -/
structure PageCounters (startPage : PageId) (pages : TxnSlotPages) (next : ℕ) : Prop where
  le : ∀ p, (pages p).nextFreeLogicSlotId ≤ next
  last : ∀ p, (pages p).nextFreeLogicSlotId ≠ 0 →
    getTxnSlotPageId startPage ((pages p).nextFreeLogicSlotId - 1) = p
  above : ∀ l, l < next → l < (pages (getTxnSlotPageId startPage l)).nextFreeLogicSlotId

section

variable {startPage : PageId} {pages pages' : TxnSlotPages} {next : ℕ}
    (h : PageCounters startPage pages next)
include h

/-- Only the counters of the pages count. -/
lemma PageCounters.congr
    (heq : ∀ p, (pages' p).nextFreeLogicSlotId = (pages p).nextFreeLogicSlotId) :
    PageCounters startPage pages' next where
  le p := by
    rw [heq]
    exact h.le p
  last p := by
    rw [heq]
    exact h.last p
  above l := by
    rw [heq]
    exact h.above l

/-- Allocation counts its page up. -/
lemma PageCounters.alloc (heq : ∀ p, (pages' p).nextFreeLogicSlotId =
      if p = getTxnSlotPageId startPage next then next + 1 else (pages p).nextFreeLogicSlotId) :
    PageCounters startPage pages' (next + 1) where
  le p := by
    rw [heq]
    split_ifs
    · exact Nat.le_refl _
    · exact Nat.le_succ_of_le (h.le p)
  last p := by
    rw [heq]
    split_ifs with hp
    · intro _
      rw [Nat.add_sub_cancel, hp]
    · exact h.last p
  above l hl := by
    rw [heq]
    split_ifs with hp
    · exact hl
    · have hne : l ≠ next := fun heql => hp (by rw [heql])
      exact h.above l (by omega)

end

namespace SlotZone

variable {zone : SlotZone} {csnMax id l a recycleMinCsn : ℕ} {f : TransactionSlot → TransactionSlot}

/-- What holds between calls, when all recycling so far used csns up to `csnMax`. -/
structure RingInv (zone : SlotZone) (csnMax : ℕ) : Prop where
  /-- the ids of the last lap are where their names say -/
  named : ∀ l, l < zone.mgr.nextFreeLogicSlotId →
    zone.mgr.nextFreeLogicSlotId ≤ l + trxPagesPerZone * trxPageSlotsNum →
    (zone.slot l).logicSlotId = l
  /-- recycled ids are frozen -/
  frozen : ∀ l, l < zone.mgr.recycleLogicSlotId →
    zone.mgr.nextFreeLogicSlotId ≤ l + trxPagesPerZone * trxPageSlotsNum →
    (zone.slot l).status = .frozen ∧
      ((zone.slot l).csn = invalidCsn ∨ (zone.slot l).csn < csnMax)
  /-- the others are not -/
  live : ∀ l, zone.mgr.recycleLogicSlotId ≤ l → l < zone.mgr.nextFreeLogicSlotId →
    (zone.slot l).status ≠ .unknown ∧ (zone.slot l).status ≠ .frozen
  /-- in the first lap the rest of the ring is as it was initialised -/
  unused : ∀ l, zone.mgr.nextFreeLogicSlotId ≤ l → l < trxPagesPerZone * trxPageSlotsNum →
    zone.slot l = TransactionSlot.zero
  counters : PageCounters zone.mgr.startPage zone.pages zone.mgr.nextFreeLogicSlotId

/-- The invariant holds at the start. -/
lemma ringInv_initial (zoneId : ℕ) (startPage : PageId) :
    (initial zoneId startPage).RingInv csnMax where
  named l hl := absurd hl (Nat.not_lt_zero l)
  frozen l hl := absurd hl (Nat.not_lt_zero l)
  live l _ hl := absurd hl (Nat.not_lt_zero l)
  unused _ _ _ := rfl
  counters :=
    { le := fun _ => Nat.le_refl 0
      last := fun _ hne => absurd rfl hne
      above := fun l hl => absurd hl (Nat.not_lt_zero l) }

/-- A slot is changed alone within a lap. -/
lemma modifySlot_slot (hid : InLap a id) (hl : InLap a l) :
    (zone.modifySlot id f).slot l = if l = id then f (zone.slot id) else zone.slot l :=
  txnSlot_modifyTxnSlot_inLap hid hl

/-- A transaction's write to its own slot. -/
lemma RingInv.modifySlot (h : zone.RingInv csnMax) (hactive : zone.Active id)
    (hname : ∀ slot, (f slot).logicSlotId = slot.logicSlotId)
    (hstatus : ∀ slot : TransactionSlot, slot.status ≠ .unknown → slot.status ≠ .frozen →
      (f slot).status ≠ .unknown ∧ (f slot).status ≠ .frozen) :
    (zone.modifySlot id f).RingInv csnMax := by
  obtain ⟨hlow, hhigh, -⟩ := hactive
  have hlive := zone.mgr.live_le
  -- the two laps that matter: the last one, and the first one while it lasts
  have hlap : ∀ l, l < zone.mgr.nextFreeLogicSlotId →
      zone.mgr.nextFreeLogicSlotId ≤ l + trxPagesPerZone * trxPageSlotsNum →
      (zone.modifySlot id f).slot l = if l = id then f (zone.slot id) else zone.slot l := by
    intro l hl hwin
    refine modifySlot_slot (a := zone.mgr.nextFreeLogicSlotId -
      trxPagesPerZone * trxPageSlotsNum) ⟨by omega, by omega⟩ ⟨by omega, by omega⟩
  refine ⟨fun l hl hwin => ?_, fun l hl hwin => ?_, fun l hl hnext => ?_,
    fun l hl hring => ?_, h.counters.congr fun p => modifyTxnSlot_nextFree p⟩
  · rw [hlap l hl hwin]
    split_ifs with heq
    · rw [hname, heq]
      exact h.named id hhigh (by omega)
    · exact h.named l hl hwin
  · have hl' : l < zone.mgr.recycleLogicSlotId := hl
    rw [hlap l (by omega) hwin, if_neg (by omega)]
    exact h.frozen l hl hwin
  · have hl' : zone.mgr.recycleLogicSlotId ≤ l := hl
    rw [hlap l hnext (by omega)]
    split_ifs with heq
    · exact hstatus _ (h.live id hlow hhigh).1 (h.live id hlow hhigh).2
    · exact h.live l hl hnext
  · have hl' : zone.mgr.nextFreeLogicSlotId ≤ l := hl
    rw [modifySlot_slot (a := 0) ⟨by omega, by omega⟩ ⟨by omega, by omega⟩, if_neg (by omega)]
    exact h.unused l hl hring

lemma modifySlot_slot_or (id l : ℕ) (f : TransactionSlot → TransactionSlot) :
    (zone.modifySlot id f).slot l = zone.slot l ∨
      (zone.modifySlot id f).slot l = f (zone.slot id) := by
  unfold slot modifySlot
  rw [txnSlot_modifyTxnSlot]
  exact (ite_eq_or_eq _ _ _).symm

/-- A full ring allocates nothing. -/
lemma allocSlot_of_full (hfull : ¬ zone.mgr.hasFreeSlot) : zone.allocSlot = zone := by
  rw [allocSlot, dif_neg hfull]

section Alloc

variable (hfree : zone.mgr.hasFreeSlot)
include hfree

lemma allocSlot_next :
    zone.allocSlot.mgr.nextFreeLogicSlotId = zone.mgr.nextFreeLogicSlotId + 1 := by
  rw [allocSlot, dif_pos hfree]

lemma allocSlot_recycle : zone.allocSlot.mgr.recycleLogicSlotId = zone.mgr.recycleLogicSlotId := by
  rw [allocSlot, dif_pos hfree]

lemma allocSlot_startPage : zone.allocSlot.mgr.startPage = zone.mgr.startPage := by
  rw [allocSlot, dif_pos hfree]

lemma allocSlot_pages : zone.allocSlot.pages = setPageNextFree zone.mgr.startPage
      (modifyTxnSlot zone.mgr.startPage zone.pages zone.mgr.nextFreeLogicSlotId
        fun _ => init zone.mgr.nextFreeLogicSlotId)
      zone.mgr.nextFreeLogicSlotId (zone.mgr.nextFreeLogicSlotId + 1) := by
  rw [allocSlot, dif_pos hfree]

/-- An allocated slot is initialised and the others stay. -/
lemma allocSlot_slot (hnext : InLap a zone.mgr.nextFreeLogicSlotId) (hl : InLap a l) :
    zone.allocSlot.slot l =
      if l = zone.mgr.nextFreeLogicSlotId then
        init zone.mgr.nextFreeLogicSlotId
      else zone.slot l := by
  unfold slot
  rw [allocSlot_startPage hfree, allocSlot_pages hfree, txnSlot_setPageNextFree]
  exact txnSlot_modifyTxnSlot_inLap hnext hl

lemma allocSlot_slot_or (l : ℕ) : zone.allocSlot.slot l = zone.slot l ∨
      zone.allocSlot.slot l = init zone.mgr.nextFreeLogicSlotId := by
  unfold slot
  rw [allocSlot_startPage hfree, allocSlot_pages hfree, txnSlot_setPageNextFree]
  exact modifySlot_slot_or _ l _

end Alloc

/-- Allocation keeps the invariant. -/
lemma RingInv.allocSlot (h : zone.RingInv csnMax) : zone.allocSlot.RingInv csnMax := by
  by_cases hfree : zone.mgr.hasFreeSlot
  swap
  · rwa [allocSlot_of_full hfree]
  have hrecycle := zone.mgr.recycle_le
  have hroom : zone.mgr.nextFreeLogicSlotId <
      zone.mgr.recycleLogicSlotId + trxPagesPerZone * trxPageSlotsNum := by
    unfold hasFreeSlot at hfree
    omega
  -- the new id enters the last lap, and the id one lap before leaves it
  have hlap : ∀ l, l < zone.mgr.nextFreeLogicSlotId + 1 →
      zone.mgr.nextFreeLogicSlotId + 1 ≤ l + trxPagesPerZone * trxPageSlotsNum →
      zone.allocSlot.slot l =
        if l = zone.mgr.nextFreeLogicSlotId then
          init zone.mgr.nextFreeLogicSlotId
        else zone.slot l := by
    intro l hl hwin
    refine allocSlot_slot hfree (a := zone.mgr.nextFreeLogicSlotId + 1 -
      trxPagesPerZone * trxPageSlotsNum) ⟨by omega, by omega⟩ ⟨by omega, by omega⟩
  refine ⟨?_, ?_, ?_, ?_, ?_⟩
  · rw [allocSlot_next hfree]
    intro l hl hwin
    rw [hlap l hl hwin]
    split_ifs with heq
    · rw [heq]
      rfl
    · exact h.named l (by omega) (by omega)
  · rw [allocSlot_next hfree, allocSlot_recycle hfree]
    intro l hl hwin
    rw [hlap l (by omega) hwin, if_neg (by omega)]
    exact h.frozen l hl (by omega)
  · rw [allocSlot_next hfree, allocSlot_recycle hfree]
    intro l hl hnext
    rw [hlap l hnext (by omega)]
    split_ifs with heq
    · exact ⟨by simp [init], by simp [init]⟩
    · exact h.live l hl (by omega)
  · rw [allocSlot_next hfree]
    intro l hl hring
    rw [allocSlot_slot hfree (a := 0) ⟨by omega, by omega⟩ ⟨by omega, by omega⟩,
      if_neg (by omega)]
    exact h.unused l (by omega) hring
  · rw [allocSlot_next hfree, allocSlot_startPage hfree, allocSlot_pages hfree]
    refine h.counters.alloc fun p => ?_
    rw [setPageNextFree_nextFree, modifyTxnSlot_nextFree]

/-- Recycling freezes the slots it passes. -/
lemma recycleTxnSlots_slot
    (hrun : ∀ i, zone.mgr.recycleLogicSlotId ≤ i → i < zone.mgr.nextFreeLogicSlotId → InLap a i)
    (hl : InLap a l) :
    (zone.recycleTxnSlots recycleMinCsn).slot l =
      if zone.mgr.recycleLogicSlotId ≤ l ∧
          l < (zone.recycleTxnSlots recycleMinCsn).mgr.recycleLogicSlotId then
        { zone.slot l with status := .frozen }
      else zone.slot l := by
  have hspec := zone.recycled_spec recycleMinCsn
  exact hspec.frozen.txnSlot_eq hl
    (fun i hri hir => hrun i hri (Nat.lt_of_lt_of_le hir hspec.le_next))

lemma recycleTxnSlots_slot_or (zone : SlotZone) (recycleMinCsn l : ℕ) :
    (zone.recycleTxnSlots recycleMinCsn).slot l = zone.slot l ∨
      (zone.recycleTxnSlots recycleMinCsn).slot l = { zone.slot l with status := .frozen } := by
  have hspec := zone.recycled_spec recycleMinCsn
  by_cases hcovers : Covers zone.mgr.startPage zone.mgr.recycleLogicSlotId
      (zone.recycled recycleMinCsn).recycleLogicSlotId
      (getTxnSlotPageId zone.mgr.startPage l) (getSlotId l)
  · exact Or.inr ((hspec.frozen _ _).1 hcovers)
  · exact Or.inl ((hspec.frozen _ _).2 hcovers)

/-- Recycling keeps the invariant. -/
lemma RingInv.recycleTxnSlots (h : zone.RingInv csnMax)
    (hcsn : recycleMinCsn ≤ csnMax) : (zone.recycleTxnSlots recycleMinCsn).RingInv csnMax := by
  have hspec := zone.recycled_spec recycleMinCsn
  have hle := hspec.le
  have hnextLe := hspec.le_next
  have hlive := zone.mgr.live_le
  have hlap : ∀ l, l < zone.mgr.nextFreeLogicSlotId →
      zone.mgr.nextFreeLogicSlotId ≤ l + trxPagesPerZone * trxPageSlotsNum →
      (zone.recycleTxnSlots recycleMinCsn).slot l =
        if zone.mgr.recycleLogicSlotId ≤ l ∧
            l < (zone.recycled recycleMinCsn).recycleLogicSlotId then
          { zone.slot l with status := .frozen }
        else zone.slot l := by
    intro l hl hwin
    exact recycleTxnSlots_slot (a := zone.mgr.nextFreeLogicSlotId -
      trxPagesPerZone * trxPageSlotsNum) (fun i _ _ => ⟨by omega, by omega⟩) ⟨by omega, by omega⟩
  refine ⟨fun l hl hwin => ?_, fun l hl hwin => ?_, fun l hl hnext => ?_,
    fun l hl hring => ?_, h.counters.congr fun p => ?_⟩
  · rw [hlap l hl hwin]
    split_ifs with hmem
    · exact h.named l hl hwin
    · exact h.named l hl hwin
  · have hl' : l < (zone.recycled recycleMinCsn).recycleLogicSlotId := hl
    rw [hlap l (by omega) hwin]
    split_ifs with hmem
    · have hrec := hspec.recycled l hmem.1 hmem.2
      exact ⟨rfl, hrec.2.2.imp id fun hlt => Nat.lt_of_lt_of_le hlt hcsn⟩
    · exact h.frozen l (by omega) hwin
  · have hl' : (zone.recycled recycleMinCsn).recycleLogicSlotId ≤ l := hl
    rw [hlap l hnext (by omega), if_neg (by omega)]
    exact h.live l (by omega) hnext
  · have hl' : zone.mgr.nextFreeLogicSlotId ≤ l := hl
    rw [recycleTxnSlots_slot (a := 0) (fun i _ _ => ⟨by omega, by omega⟩) ⟨by omega, by omega⟩,
      if_neg (fun hmem => ?_)]
    · exact h.unused l hl hring
    · have hlt : l < (zone.recycled recycleMinCsn).recycleLogicSlotId := hmem.2
      omega
  · simp only [SlotZone.recycleTxnSlots, recycled, DStore.recycleTxnSlots, finishRecycle_pages,
      recycleLoop_nextFree]

end SlotZone

/-- The csn a recycling call uses. -/
def SlotCall.recycleCsn : SlotCall → ℕ
  | .recycleTxnSlots recycleMinCsn => recycleMinCsn
  | _ => 0

namespace SlotZone

variable {zone : SlotZone} {csnMax : ℕ}

/-- Every call keeps the invariant. -/
lemma RingInv.step {call : SlotCall} (h : zone.RingInv csnMax) (hfits : zone.Fits call)
    (hcsn : call.recycleCsn ≤ csnMax) : (zone.step call).RingInv csnMax := by
  cases call with
  | allocSlot => exact h.allocSlot
  | setSlotUndoPtr id ptr flag => exact h.modifySlot hfits (fun _ => rfl) fun _ h1 h2 => ⟨h1, h2⟩
  | commitPending id csn =>
    exact h.modifySlot hfits (fun _ => rfl) fun _ _ _ =>
      ⟨by simp [commitPending], by simp [commitPending]⟩
  | commitCommitted id csnMode csn walGroupPtr =>
    exact h.modifySlot hfits (fun _ => rfl) fun _ _ _ =>
      ⟨by simp [commitCommitted, setWalInfo],
        by simp [commitCommitted, setWalInfo]⟩
  | rollbackTxnSlot id csn =>
    exact h.modifySlot hfits (fun _ => rfl) fun _ _ _ =>
      ⟨by simp [rollback], by simp [rollback]⟩
  | recycleTxnSlots recycleMinCsn => exact h.recycleTxnSlots hcsn

/-- A larger csn bound is weaker. -/
lemma RingInv.mono {csnMax' : ℕ} (h : zone.RingInv csnMax) (hle : csnMax ≤ csnMax') :
    zone.RingInv csnMax' where
  named := h.named
  frozen l hl hwin := ⟨(h.frozen l hl hwin).1,
    (h.frozen l hl hwin).2.imp id fun hlt => Nat.lt_of_lt_of_le hlt hle⟩
  live := h.live
  unused := h.unused
  counters := h.counters

/-- No call makes an ended transaction active again. -/
lemma Active.of_step {call : SlotCall} {l : ℕ} (hfits : zone.Fits call)
    (h : (zone.step call).Active l) : zone.Active l ∨ zone.mgr.nextFreeLogicSlotId ≤ l := by
  have hlive := zone.mgr.live_le
  have hmodify : ∀ id f, zone.Active id → (zone.modifySlot id f).Active l →
      zone.Active l ∨ zone.mgr.nextFreeLogicSlotId ≤ l := by
    rintro id f hid ⟨hlow, hhigh, hstatus⟩
    have hidRange := hid
    obtain ⟨hidLow, hidHigh, -⟩ := hidRange
    have hlow' : zone.mgr.recycleLogicSlotId ≤ l := hlow
    have hhigh' : l < zone.mgr.nextFreeLogicSlotId := hhigh
    by_cases heq : l = id
    · rw [heq]
      exact Or.inl hid
    · rw [modifySlot_slot (a := zone.mgr.recycleLogicSlotId) ⟨by omega, by omega⟩
        ⟨by omega, by omega⟩, if_neg heq] at hstatus
      exact Or.inl ⟨hlow', hhigh', hstatus⟩
  cases call with
  | allocSlot =>
    by_cases hnext : zone.mgr.nextFreeLogicSlotId ≤ l
    · exact Or.inr hnext
    by_cases hfree : zone.mgr.hasFreeSlot
    · have hroom := hfree
      unfold hasFreeSlot at hroom
      obtain ⟨hlow, -, hstatus⟩ : zone.allocSlot.Active l := h
      rw [allocSlot_recycle hfree] at hlow
      rw [allocSlot_slot hfree (a := zone.mgr.recycleLogicSlotId) ⟨zone.mgr.recycle_le, by omega⟩
        ⟨by omega, by omega⟩, if_neg (by omega)] at hstatus
      exact Or.inl ⟨hlow, by omega, hstatus⟩
    · rw [step, allocSlot_of_full hfree] at h
      exact Or.inl h
  | setSlotUndoPtr id ptr flag => exact hmodify id _ hfits h
  | commitPending id csn => exact hmodify id _ hfits h
  | commitCommitted id csnMode csn walGroupPtr => exact hmodify id _ hfits h
  | rollbackTxnSlot id csn => exact hmodify id _ hfits h
  | recycleTxnSlots csn =>
    obtain ⟨hlow, hhigh, hstatus⟩ := h
    have hspec := zone.recycled_spec csn
    have hle := hspec.le
    have hlow' : (zone.recycled csn).recycleLogicSlotId ≤ l := hlow
    have hhigh' : l < zone.mgr.nextFreeLogicSlotId := hhigh
    rcases zone.recycleTxnSlots_slot_or csn l with hkeep | hfrozen
    · rw [step, hkeep] at hstatus
      exact Or.inl ⟨by omega, hhigh', hstatus⟩
    · rw [step, hfrozen] at hstatus
      rcases hstatus with hstatus | hstatus
      · exact TrxSlotStatus.noConfusion hstatus
      · exact TrxSlotStatus.noConfusion hstatus

/-- The zones a history of calls leads to, when its recycling used csns up to `csnMax`. -/
inductive Reachable (zoneId : ℕ) (startPage : PageId) (csnMax : ℕ) : SlotZone → Prop
  | initial : Reachable zoneId startPage csnMax (SlotZone.initial zoneId startPage)
  | step {zone : SlotZone} {call : SlotCall} (h : Reachable zoneId startPage csnMax zone)
      (hfits : zone.Fits call) (hcsn : call.recycleCsn ≤ csnMax) :
      Reachable zoneId startPage csnMax (zone.step call)

/-- Every history keeps the invariant. -/
theorem Reachable.ringInv {zoneId : ℕ} {startPage : PageId}
    (h : Reachable zoneId startPage csnMax zone) : zone.RingInv csnMax := by
  induction h with
  | initial => exact ringInv_initial zoneId startPage
  | step _ hfits hcsn ih => exact ih.step hfits hcsn

end SlotZone

end DStore
