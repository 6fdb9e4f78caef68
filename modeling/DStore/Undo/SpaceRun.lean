import DStore.Undo.SlotRing
import DStore.Undo.UndoRing

/-!
# The undo space of a zone over its life

Transactions of a zone write undo records, one transaction at a time, and `Recycle` gives the pages
of transactions whose slots are recycled back to the ring. The state keeps, for the proofs, every
record ever placed and where it is in the log of all undo of the zone.
-/

namespace DStore

/-- A record placed by a transaction: where, and the bytes that were written for it. -/
structure PlacedRecord where
  logicSlotId : ℕ
  undoRecPtr : UndoRecPtr
  record : RawUndoRecord
  context : UndoContext
  written : List ByteRange
  position : ℕ

/-- The undo space of a zone with its transaction slots. -/
structure UndoSpace where
  zone : UndoZone
  slots : SlotZone
  placed : List PlacedRecord
  tail : ℕ

/-- The calls of transactions and of the recycler. -/
inductive UndoStep where
  /-- A call on the slots that writes no undo. -/
  | slotCall (call : SlotCall)
  /-- `TransactionMgr::ExtendUndoSpaceIfNeeded` and then `TransactionMgr::InsertUndoRecord`;
  `slotOk` tells whether `SetSlotUndoPtr` succeeds. -/
  | insertUndoRecord (logicSlotId : ℕ) (record : RawUndoRecord) (extendEnv : ExtendEnv)
      (insertEnv : InsertEnv) (slotOk : Bool)
  /-- `UndoZone::Recycle` by a thread with the given undo context. -/
  | recycle (recycleMinCsn : ℕ) (context : UndoContext)

/-- `UndoZone::RecycleUndoPage`. The walk along the ring before the assignment only counts pages
for a log message. -/
def UndoZone.recycleUndoPage (zone : UndoZone) (endPtr : UndoRecPtr) : UndoZone :=
  { zone with undoRecyclePageId := endPtr.pageId }

namespace UndoSpace

variable (st : UndoSpace)

/-- A zone right after `UndoZone::Init`. -/
def initial (pages : UndoPages) (firstPageId : PageId) (zoneId : ℕ) (startPage : PageId) :
    UndoSpace where
  zone := UndoZone.initUndoRecordSpace pages firstPageId
  slots := SlotZone.initial zoneId startPage
  placed := []
  tail := 0

/-- What the two calls of a transaction do to the record space, if the extension succeeds. -/
def inserted (record : RawUndoRecord) (extendEnv : ExtendEnv) (insertEnv : InsertEnv) :
    Option InsertResult :=
  if (st.zone.extendSpaceIfNeeded extendEnv).succ then
    (st.zone.extendSpaceIfNeeded extendEnv).zone.insertUndoRecord record insertEnv
  else none

/-- One step. -/
def step : UndoStep → UndoSpace
  | .slotCall call => { st with slots := st.slots.step call }
  | .insertUndoRecord id record extendEnv insertEnv slotOk =>
    match st.inserted record extendEnv insertEnv with
    | none => { st with zone := (st.zone.extendSpaceIfNeeded extendEnv).zone }
    | some result =>
      if result.undoRecPtr = invalidUndoRecPtr then { st with zone := result.zone }
      else
        { zone := result.zone
          slots :=
            if slotOk then st.slots.step (.setSlotUndoPtr id result.undoRecPtr true) else st.slots
          placed := st.placed ++ [{
            logicSlotId := id
            undoRecPtr := result.undoRecPtr
            record := record
            context := insertEnv.context
            written := result.written
            position := st.tail }]
          tail := st.tail + record.getRecordSize }
  | .recycle recycleMinCsn context =>
    let recycleUndoPtr := (st.slots.recycled recycleMinCsn).recycleUndoPtr
    let st := { st with slots := st.slots.recycleTxnSlots recycleMinCsn }
    if recycleUndoPtr = invalidUndoRecPtr then st
    else
      match st.zone.pages.readUndoRecord recycleUndoPtr context with
      | none => st
      | some (_, recordSize) =>
        { st with
          zone := st.zone.recycleUndoPage
            (st.zone.pages.getNextUndoRecPtr recycleUndoPtr recordSize) }

/-- The bytes of undo pages a step writes records to. -/
def writtenBy : UndoStep → List ByteRange
  | .insertUndoRecord _ record extendEnv insertEnv _ =>
    match st.inserted record extendEnv insertEnv with
    | none => []
    | some result => result.written
  | .slotCall _ => []
  | .recycle _ _ => []

/-- What callers keep to. A zone belongs to one transaction at a time, and only inserts move the
tail of a slot's records. `ExtendSpaceIfNeeded` panics above the free space of a page, and an extent
handed out by the segment is not in use. -/
def Fits : UndoStep → Prop
  | .slotCall .allocSlot => ∀ id, ¬ st.slots.Active id
  | .slotCall (.setSlotUndoPtr id _ insertUndoFlag) =>
    st.slots.Active id ∧ insertUndoFlag = false
  | .slotCall (.recycleTxnSlots _) => False
  | .slotCall (.commitPending id _) => st.slots.Active id
  | .slotCall (.commitCommitted id _ _ _) => st.slots.Active id
  | .slotCall (.rollbackTxnSlot id _) => st.slots.Active id
  | .insertUndoRecord id record extendEnv _ _ =>
    st.slots.Active id ∧ record.getRecordSize ≤ undoRecordPageMaxFreeSpace ∧
      ∀ ring, st.zone.pages.IsRing ring → st.zone.nextAppendUndoPtr.pageId ∈ ring →
        extendEnv.Fresh ring
  | .recycle _ _ => True

/-- An extension that the step makes does not fail partway: it is not needed, or there is no
extent, or the append page cannot be read, or every buffer can. -/
def ExtendsWhole : UndoStep → Prop
  | .insertUndoRecord _ _ extendEnv _ _ =>
    st.zone.needCheckPageId ≠ st.zone.undoRecyclePageId ∨ extendEnv.extent = none ∨
      extendEnv.readOk 0 = false ∨
      ∀ i, i < undoZoneExtentSize + 1 → extendEnv.readOk i = true
  | .slotCall _ => True
  | .recycle _ _ => True

/-- The states of a run from `UndoZone::Init` on whose steps all meet `ok`. -/
inductive Reachable (start : UndoSpace) (ok : UndoSpace → UndoStep → Prop) : UndoSpace → Prop
  | start : Reachable start ok start
  | step {st : UndoSpace} {s : UndoStep} (h : Reachable start ok st) (hfits : st.Fits s)
      (hok : ok st s) : Reachable start ok (st.step s)

/-- The pages form one doubly linked cycle with the append page and the recycle page on it. -/
def RingIntact : Prop :=
  ∃ ring, st.zone.pages.IsRing ring ∧ st.zone.nextAppendUndoPtr.pageId ∈ ring ∧
    st.zone.undoRecyclePageId ∈ ring

/-- A step writes to no byte of a record whose transaction slot is not recycled. -/
def SparesLive (s : UndoStep) : Prop :=
  ∀ q ∈ st.placed, st.slots.mgr.recycleLogicSlotId ≤ q.logicSlotId → ∀ p off,
    InRanges q.written p off → ¬ InRanges (st.writtenBy s) p off

end UndoSpace

end DStore
