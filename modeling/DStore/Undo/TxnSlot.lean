import DStore.Common.Types

/-!
# Transaction slots of an undo zone

A zone keeps its transaction slots on a ring of `trxPagesPerZone` pages with
`trxPageSlotsNum` slots each. Slots are named by unbounded logic ids; the page of an id
and its position on that page are the id modulo the ring. The zone's live ids are
`[recycleLogicSlotId, nextFreeLogicSlotId)`.
-/

namespace DStore

/-- `TRX_PAGE_SLOTS_NUM`: `(BLCKSZ - TRX_PAGE_HEADER_SIZE) / TRX_SLOT_SIZE`. -/
def trxPageSlotsNum : ℕ := (8192 - (42 + 16)) / 48

/-- `TRX_PAGES_PER_ZONE`. -/
def trxPagesPerZone : ℕ := 128 - 1

/-- `WalId`: the id of a WAL stream. -/
abbrev WalId := UInt64

/-- `INVALID_WAL_ID`. -/
def invalidWalId : WalId := 0xFFFFFFFFFFFFFFFF

/-- `INVALID_PLSN`: positions in a WAL stream are naturals. -/
def invalidPlsn : ℕ := 0

/-- `TransactionSlot`. -/
structure TransactionSlot where
  curTailUndoPtr : UndoRecPtr
  spaceTailUndoPtr : UndoRecPtr
  csn : ℕ
  status : TrxSlotStatus
  logicSlotId : ℕ
  commitEndPlsn : ℕ
  walId : WalId
deriving DecidableEq, Repr

/-- A slot of a page that `InitTxnSlotPage` has cleared. -/
def TransactionSlot.zero : TransactionSlot where
  curTailUndoPtr := ⟨⟨0, 0⟩, 0⟩
  spaceTailUndoPtr := ⟨⟨0, 0⟩, 0⟩
  csn := 0
  status := .unknown
  logicSlotId := 0
  commitEndPlsn := 0
  walId := 0

/-- `TransactionSlot::Init`. -/
def TransactionSlot.init (logicSlotId : ℕ) : TransactionSlot where
  curTailUndoPtr := invalidUndoRecPtr
  spaceTailUndoPtr := invalidUndoRecPtr
  csn := invalidCsn
  status := .inProgress
  logicSlotId := logicSlotId
  commitEndPlsn := invalidPlsn
  walId := invalidWalId

/-- `TransactionSlotPage`: the counter of its header and the array `m_slots`, read below
`trxPageSlotsNum` only. -/
structure TransactionSlotPage where
  nextFreeLogicSlotId : ℕ
  slots : ℕ → TransactionSlot

/-- `TransactionSlotPage::GetSlotId`. -/
def getSlotId (logicSlotId : ℕ) : ℕ := logicSlotId % trxPageSlotsNum

/-- `GetTransactionSlot(slotId)->SetTrxSlotStatus(status)`. -/
def TransactionSlotPage.setTrxSlotStatus (page : TransactionSlotPage) (slotId : ℕ)
    (status : TrxSlotStatus) : TransactionSlotPage :=
  { page with
    slots := Function.update page.slots slotId { page.slots slotId with status := status } }

/-- The slot pages of a zone, by page id. -/
abbrev TxnSlotPages := PageId → TransactionSlotPage

/-- `UndoZoneTrxManager`: the ring counters of a zone. `HasFreeSlot` guards every
`AllocSlot`, so the live ids never lap the ring. -/
structure UndoZoneTrxManager where
  zoneId : ℕ
  startPage : PageId
  recycleLogicSlotId : ℕ
  nextFreeLogicSlotId : ℕ
  recycle_le : recycleLogicSlotId ≤ nextFreeLogicSlotId
  live_le : nextFreeLogicSlotId ≤ recycleLogicSlotId + trxPagesPerZone * trxPageSlotsNum

/-- `GetTxnSlotPageId`. -/
def getTxnSlotPageId (startPage : PageId) (logicSlotId : ℕ) : PageId :=
  { fileId := startPage.fileId
    blockId := startPage.blockId +
      UInt32.ofNat (logicSlotId / trxPageSlotsNum % trxPagesPerZone) }

/-- The slot a logic id names. -/
def txnSlot (startPage : PageId) (pages : TxnSlotPages) (logicSlotId : ℕ) : TransactionSlot :=
  (pages (getTxnSlotPageId startPage logicSlotId)).slots (getSlotId logicSlotId)

/-- The outputs of `IsSlotRecyclable`: its result and what it does to the two reference
parameters. -/
structure RecyclableCheck where
  recyclable : Bool
  tailUndoPtr : UndoRecPtr
  nextToBeRecycledIsCommitted : Bool
deriving DecidableEq, Repr

/-- `UndoZoneTrxManager::IsSlotRecyclable` on the slot it reads. -/
def isSlotRecyclable (slot : TransactionSlot) (recycleMinCsn : ℕ)
    (tailUndoPtr : UndoRecPtr) (nextToBeRecycledIsCommitted : Bool) : RecyclableCheck :=
  if slot.status = .inProgress ∨ slot.status = .pendingCommit then
    ⟨false, slot.spaceTailUndoPtr, nextToBeRecycledIsCommitted⟩
  else if slot.csn = invalidCsn ∨ slot.csn < recycleMinCsn then
    ⟨true, tailUndoPtr, nextToBeRecycledIsCommitted⟩
  else
    ⟨false, slot.spaceTailUndoPtr, true⟩

/-- `WalRecordRecycleSlot`, with the page id of its header. -/
structure WalRecordRecycleSlot where
  pageId : PageId
  zoneId : ℕ
  recycleCsn : ℕ
  lastRecycleLogicSlotId : ℕ
  newRecycleLogicSlotId : ℕ
deriving DecidableEq, Repr

/-- The locals of `RecycleTxnSlots`, the slot pages it writes and the records it has put
into the log. `firstSlot` is `firstSlotRecycleLogitSlotId`. -/
structure RecycleState where
  pages : TxnSlotPages
  recycleLogicSlotId : ℕ
  lockedPage : Bool
  firstSlot : ℕ
  restoreUndoPtr : UndoRecPtr
  recycleUndoPtr : UndoRecPtr
  nextToBeRecycledIsCommitted : Bool
  wal : List WalRecordRecycleSlot

variable (zoneId : ℕ) (startPage : PageId) (recycleMinCsn : ℕ) (st : RecycleState)

/-- `GenerateWalForRecycle`: one record for the page of the range's first slot. -/
def generateWalForRecycle : RecycleState :=
  { st with
    wal := st.wal ++
      [{ pageId := getTxnSlotPageId startPage st.firstSlot
         zoneId := zoneId
         recycleCsn := recycleMinCsn
         lastRecycleLogicSlotId := st.firstSlot
         newRecycleLogicSlotId := st.recycleLogicSlotId }] }

/-- The part of the loop body that locks the page of the current slot. -/
def lockTxnSlotPage : RecycleState :=
  if st.lockedPage then st
  else { st with lockedPage := true, firstSlot := st.recycleLogicSlotId }

/-- Step 2 of the loop body: freeze the slot, remember its undo tail, advance. -/
def freezeTxnSlot : RecycleState :=
  let pageId := getTxnSlotPageId startPage st.recycleLogicSlotId
  let curSlotId := getSlotId st.recycleLogicSlotId
  let tail := ((st.pages pageId).slots curSlotId).spaceTailUndoPtr
  { st with
    pages := Function.update st.pages pageId
      ((st.pages pageId).setTrxSlotStatus curSlotId .frozen)
    recycleUndoPtr := if tail ≠ invalidUndoRecPtr then tail else st.recycleUndoPtr
    recycleLogicSlotId := st.recycleLogicSlotId + 1 }

/-- Step 3 of the loop body: at a page boundary, log the page and unlock it. -/
def switchTxnSlotPage : RecycleState :=
  if st.recycleLogicSlotId % trxPageSlotsNum = 0 then
    { generateWalForRecycle zoneId startPage recycleMinCsn st with lockedPage := false }
  else st

/-- The loop of `RecycleTxnSlots`, on the number of ids left below
`nextFreeLogicSlotId`. -/
def recycleLoop : ℕ → RecycleState → RecycleState
  | 0, st => st
  | n + 1, st =>
    let chk := isSlotRecyclable (txnSlot startPage st.pages st.recycleLogicSlotId)
      recycleMinCsn st.restoreUndoPtr st.nextToBeRecycledIsCommitted
    let st := { st with restoreUndoPtr := chk.tailUndoPtr
                        nextToBeRecycledIsCommitted := chk.nextToBeRecycledIsCommitted }
    if chk.recyclable then
      recycleLoop n (switchTxnSlotPage zoneId startPage recycleMinCsn
        (freezeTxnSlot startPage (lockTxnSlotPage st)))
    else st

/-- The tail of `RecycleTxnSlots`: log the page still locked, if the range moved. -/
def finishRecycle (oldRecycleLogicSlotId : ℕ) (st : RecycleState) : RecycleState :=
  if st.lockedPage then
    let st := if st.recycleLogicSlotId ≠ oldRecycleLogicSlotId
      then generateWalForRecycle zoneId startPage recycleMinCsn st else st
    { st with lockedPage := false }
  else st

/-- `UndoZoneTrxManager::RecycleTxnSlots`. -/
def recycleTxnSlots (mgr : UndoZoneTrxManager) (pages : TxnSlotPages)
    (restoreUndoPtr recycleUndoPtr : UndoRecPtr) : RecycleState :=
  finishRecycle mgr.zoneId mgr.startPage recycleMinCsn mgr.recycleLogicSlotId
    (recycleLoop mgr.zoneId mgr.startPage recycleMinCsn
      (mgr.nextFreeLogicSlotId - mgr.recycleLogicSlotId)
      { pages := pages
        recycleLogicSlotId := mgr.recycleLogicSlotId
        lockedPage := false
        firstSlot := 0
        restoreUndoPtr := restoreUndoPtr
        recycleUndoPtr := recycleUndoPtr
        nextToBeRecycledIsCommitted := false
        wal := [] })

/-- The loop of `WalRecordRecycleSlot::Redo`: freeze `count` slots from `tempSlotId`. -/
def redoFreeze : ℕ → ℕ → TransactionSlotPage → TransactionSlotPage
  | 0, _, page => page
  | count + 1, tempSlotId, page =>
    redoFreeze count (tempSlotId + 1) (page.setTrxSlotStatus tempSlotId .frozen)

/-- `WalRecordRecycleSlot::Redo`. -/
def WalRecordRecycleSlot.redo (rec : WalRecordRecycleSlot) (page : TransactionSlotPage) :
    TransactionSlotPage :=
  let startSlotId := getSlotId rec.lastRecycleLogicSlotId
  let endSlotId := getSlotId rec.newRecycleLogicSlotId
  redoFreeze (endSlotId - startSlotId) startSlotId page

/-- Replay: each record in log order on the page its header names. -/
def redoRecycle (wal : List WalRecordRecycleSlot) (pages : TxnSlotPages) : TxnSlotPages :=
  wal.foldl (fun pages rec => Function.update pages rec.pageId (rec.redo (pages rec.pageId)))
    pages

end DStore
