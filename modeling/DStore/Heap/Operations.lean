import DStore.Heap.TupleDiff

/-!
# Heap operations

What insert, batch insert, delete and the updates do to one page. Each operation changes the
page and forms its undo record; it then either enters the record's pointer in the TD, or, if
the record could not be stored, takes its change back (`HandleErrorWhenGetUndoBuffer`).
-/

namespace DStore

open HeapDiskTuple

/-- `HeapPage::MaxDefaultTupleSpace`. -/
def maxDefaultTupleSpace : ℕ := 7936

/-- `MAX_ITEM_OFFSET_NUMBER`. -/
def maxItemOffsetNumber : ℕ := 2048

/-- A tuple to be stored: its disk image and size. Larger tuples are split first. -/
structure HeapTuple where
  diskTuple : ByteMem
  size : ℕ
  header_le : heapDiskTupHeaderSize ≤ size
  size_le : size ≤ maxDefaultTupleSpace

/-- The transaction that changes a page: its TD there, its xid and the running command. -/
structure HeapWriter where
  tdId : ℕ
  xid : Xid
  cid : ℕ
deriving DecidableEq, Repr

/-- `UndoRecord(type, tdId, td, ctid, cid)`. -/
def UndoRecord.ofTd (tdId : ℕ) (td : TD) (ctid : ItemPointerData) (cid : ℕ) (data : UndoData) :
    UndoRecord where
  ctid := ctid
  cid := cid
  tdId := tdId
  tdPreXid := td.xid
  tdPreUndoPtr := td.undoRecPtr
  tdPreCsn := td.csn
  tdPreCsnStatus := td.csnStatus
  data := data

/-- The header fields every new tuple gets before it is stored. -/
def HeapTuple.stamped (tuple : HeapTuple) (writer : HeapWriter) : ByteMem :=
  setTupleSize (setLockerTdId (setTdStatus
    (setXid (setTdId tuple.diskTuple 0 writer.tdId) 0 writer.xid)
    0 .attachTdAsNewOwner) 0 invalidTdSlot) 0 tuple.size

/-- The new version of an updated tuple. -/
def HeapTuple.stampedAs (tuple : HeapTuple) (writer : HeapWriter) (mode : HeapDiskTupLiveMode) :
    ByteMem :=
  setLiveMode (tuple.stamped writer) 0 mode

/-- The header fields the old version of a tuple gets from the transaction that changes it. -/
def claimTuple (writer : HeapWriter) (m : ByteMem) (off : ℕ) : ByteMem :=
  setTdStatus (setXid (setTdId m off writer.tdId) off
    writer.xid) off .attachTdAsNewOwner

namespace DataPage

variable (page : DataPage) (writer : HeapWriter)

/-- The undo record of a change at `offset`. -/
def undoRecordAt (offset : ℕ) (data : UndoData) : UndoRecord :=
  UndoRecord.ofTd writer.tdId (page.getTd writer.tdId) ⟨page.selfPageId, UInt16.ofNat offset⟩
    writer.cid data

/-! ## Insert -/

/-- `AddTuple` of a new tuple to a page found by `GetBuffer`, with the undo record `data`. -/
def addNewTuple (tuple : HeapTuple) (image : ByteMem) (data : UndoData) :
    Option (DataPage × UndoRecord) :=
  -- `CheckPageHasEnoughSpace`
  if tuple.size > page.getFreeSpaceForInsert then none
  else
    let added := page.addTuple image tuple.size invalidItemOffsetNumber
    if added.2 = invalidItemOffsetNumber then none
    else some (added.1, added.1.undoRecordAt writer added.2 data)

/-- `InsertSmallDiskTup`. -/
def insertSmallDiskTup (tuple : HeapTuple) : Option (DataPage × UndoRecord) :=
  page.addNewTuple writer tuple (tuple.stamped writer) .heapInsert

/-- `UpdateSmallTupleNewPage`. -/
def updateSmallTupleNewPage (tuple : HeapTuple) : Option (DataPage × UndoRecord) :=
  page.addNewTuple writer tuple (tuple.stampedAs writer .newTupleByAnotherPageUpdate)
    .heapAnotherPageAppendUpdateNewPage

/-! ## Batch insert -/

/-- `MaxTupNumPerPage`. -/
def maxTupNumPerPage : ℕ :=
  (blckSz - (PageType.heap.headerOffset + page.tdCount * sizeofTd + 7) / 8 * 8) /
    (heapDiskTupHeaderSize + sizeofItemId + 1)

/-- Let the last range end at `offset`, or start a new one there. -/
def growRanges (inRange : Bool) (offset : ℕ) : List (ℕ × ℕ) → List (ℕ × ℕ)
  | [] => [(offset, offset)]
  | range :: ranges =>
    if inRange then (range.1, offset) :: ranges else (offset, offset) :: range :: ranges

/-- The loop of `LocateUsableItemIds` over the offsets that are left: the ranges (last one
first), the tuples without a place, and the space used. -/
def locateLoop (saveFreeSpace : ℕ) :
    List ℕ → List HeapTuple → ℕ → Bool → List (ℕ × ℕ) → List (ℕ × ℕ) × List HeapTuple × ℕ
  | [], tuples, usedSpace, _, ranges => (ranges, tuples, usedSpace)
  | _ :: _, [], usedSpace, _, ranges => (ranges, [], usedSpace)
  | offset :: offsets, tuple :: tuples, usedSpace, inRange, ranges =>
    if (page.getItemId offset).isUnused then
      if page.getFreeSpaceRaw < usedSpace + tuple.size + saveFreeSpace then
        (ranges, tuple :: tuples, usedSpace)
      else
        locateLoop saveFreeSpace offsets tuples (usedSpace + tuple.size) true
          (growRanges inRange offset ranges)
    else locateLoop saveFreeSpace offsets (tuple :: tuples) usedSpace false ranges

/-- `LocateUsableItemIds`, on a page that may have unused items. -/
def locateUsableItemIds (saveFreeSpace : ℕ) (tuples : List HeapTuple) :
    List (ℕ × ℕ) × List HeapTuple × ℕ :=
  if page.hasFreeItemId then
    let located := page.locateLoop saveFreeSpace (List.range' 1 page.getMaxOffset) tuples 0 false []
    (located.1.reverse, located.2)
  else ([], tuples, 0)

/-- `GetUsableOffsetRanges`: unused items first, then new ones. -/
def getUsableOffsetRanges (saveFreeSpace : ℕ) (tuples : List HeapTuple) : List (ℕ × ℕ) :=
  let located := page.locateUsableItemIds saveFreeSpace tuples
  let beginOffset := page.getMaxOffset + 1
  match located.2.1 with
  | [] => located.1
  | tuple :: rest =>
    if beginOffset ≤ page.maxTupNumPerPage ∧
        page.getFreeSpaceRaw ≥ located.2.2 + sizeofItemId + tuple.size + saveFreeSpace then
      located.1 ++ [(beginOffset, min maxItemOffsetNumber (beginOffset + (rest.length + 1) - 1))]
    else located.1

/-- `BatchInsertInOneRangeOffset`: the page, the next offset and the tuples left. -/
def batchInsertInOneRangeOffset (saveFreeSpace endOffnum : ℕ) :
    List HeapTuple → ℕ → DataPage → Option (DataPage × ℕ × List HeapTuple)
  | [], offnum, page => some (page, offnum, [])
  | tuple :: tuples, offnum, page =>
    if offnum ≤ endOffnum ∧ page.getFreeSpaceForInsert ≥ tuple.size + saveFreeSpace then
      let added := page.addTuple (tuple.stamped writer) tuple.size offnum
      if added.2 = invalidItemOffsetNumber then none
      else batchInsertInOneRangeOffset saveFreeSpace endOffnum tuples (added.2 + 1) added.1
    else some (page, offnum, tuple :: tuples)

/-- The loop of `BatchInsertSmallTuples` over the ranges of one page: the page and the ranges
in use. -/
def batchInsertRanges (saveFreeSpace : ℕ) :
    List (ℕ × ℕ) → List HeapTuple → DataPage → Option (DataPage × List (ℕ × ℕ))
  | [], _, page => some (page, [])
  | (startOffset, endOffset) :: ranges, tuples, page =>
    match batchInsertInOneRangeOffset writer saveFreeSpace endOffset tuples startOffset page with
    | none => none
    | some (page, offnum, tuples) =>
      if offnum = startOffset then some (page, [])
      else
        match batchInsertRanges saveFreeSpace ranges tuples page with
        | none => none
        | some (page, inUse) => some (page, (startOffset, offnum - 1) :: inUse)

/-- The part of `BatchInsertSmallTuples` that fills one page. -/
def batchInsertSmallTuples (saveFreeSpace : ℕ) (tuples : List HeapTuple) :
    Option (DataPage × UndoRecord) :=
  let ranges := page.getUsableOffsetRanges saveFreeSpace tuples
  if ranges = [] then none
  else
    match batchInsertRanges writer saveFreeSpace ranges tuples page with
    | none => none
    | some (page, inUse) =>
      some (page, page.undoRecordAt writer invalidItemOffsetNumber (.heapBatchInsert inUse))

/-! ## Delete and update -/

variable (offset : ℕ)

/-- `GetTuple` accepts the offset number of a ctid. -/
def hasTuple : Bool := offset ≠ invalidItemOffsetNumber ∧ page.isValidOffset offset

/-- The page bytes once the locker of the tuple at `offset` is removed. -/
def unlockTuple : ByteMem :=
  setLockerTdId page.mem (page.getItemId offset).offset invalidTdSlot

/-- The image of the tuple at `offset` that goes into an undo record, without its locker. -/
def undoImage : List UInt8 :=
  (page.unlockTuple offset).load (page.getItemId offset).offset (page.tupleHeader offset).size

/-- `DeleteDiskTuple`. -/
def deleteDiskTuple : Option (DataPage × UndoRecord) :=
  if page.hasTuple offset then
    let off := (page.getItemId offset).offset
    let mem := setLiveMode (claimTuple writer (page.unlockTuple offset) off) off
      .tupleByNormalDelete
    some (((page.withMem mem).setTuplePrunable).addPotentialDelItemSize offset,
      page.undoRecordAt writer offset (.heapDelete (page.undoImage offset)))
  else none

/-- `UpdateSmallTupleInplace`. -/
def updateSmallTupleInplace (tuple : HeapTuple) : Option (DataPage × UndoRecord) :=
  let item := page.getItemId offset
  if page.hasTuple offset ∧ tuple.size ≤ item.len then
    let old := page.tupleHeader offset
    let diffs := inplaceDiffs page.mem item.offset old.size tuple.diskTuple tuple.size
    let image := tuple.stampedAs writer .newTupleByInplaceUpdate
    match (page.withMem (page.unlockTuple offset)).updateTuple offset image tuple.size with
    | none => none
    | some updated =>
      some (updated.setTuplePrunable, page.undoRecordAt writer offset
        (.heapInplaceUpdate old.tdId old.info old.size old.xid diffs))
  else none

/-- `UpdateSmallTupleSamePage`. -/
def updateSmallTupleSamePage (tuple : HeapTuple) : Option (DataPage × UndoRecord) :=
  let item := page.getItemId offset
  if page.hasTuple offset ∧ item.len < tuple.size ∧ tuple.size ≤ page.getFreeSpaceRaw then
    let claimed := page.withMem (claimTuple writer (page.unlockTuple offset) item.offset)
    let added := ((claimed.addPotentialDelItemSize offset).setTuplePrunable).addTuple
      (tuple.stampedAs writer .newTupleBySamePageUpdate) tuple.size offset
    if added.2 = offset then
      some (added.1.withMem (setLiveMode added.1.mem item.offset
          .oldTupleBySamePageUpdate),
        page.undoRecordAt writer offset (.heapSamePageAppendUpdate (page.undoImage offset)))
    else none
  else none

/-- `UpdateSmallTupleOldPage`. -/
def updateSmallTupleOldPage (newCtid : ItemPointerData) : Option (DataPage × UndoRecord) :=
  if page.hasTuple offset then
    let off := (page.getItemId offset).offset
    let mem := claimTuple writer (setLiveMode (page.unlockTuple offset) off
      .oldTupleByAnotherPageUpdate) off
    some (((page.withMem mem).setTuplePrunable).addPotentialDelItemSize offset,
      page.undoRecordAt writer offset
        (.heapAnotherPageAppendUpdateOldPage newCtid (page.undoImage offset)))
  else none

end DataPage

/-! ## Operations and their outcome -/

/-- The operations on one heap page. -/
inductive HeapOp where
  | insert (tuple : HeapTuple)
  | batchInsert (saveFreeSpace : ℕ) (tuples : List HeapTuple)
  | delete (offset : ℕ)
  | inplaceUpdate (offset : ℕ) (tuple : HeapTuple)
  | samePageUpdate (offset : ℕ) (tuple : HeapTuple)
  | anotherPageUpdateOldPage (offset : ℕ) (newCtid : ItemPointerData)
  | anotherPageUpdateNewPage (tuple : HeapTuple)

/-- The change an operation makes to the page, and its undo record; `none` when the operation
does not apply to the page. -/
def HeapOp.modify (op : HeapOp) (writer : HeapWriter) (page : DataPage) :
    Option (DataPage × UndoRecord) :=
  match op with
  | insert tuple => page.insertSmallDiskTup writer tuple
  | batchInsert saveFreeSpace tuples => page.batchInsertSmallTuples writer saveFreeSpace tuples
  | delete offset => page.deleteDiskTuple writer offset
  | inplaceUpdate offset tuple => page.updateSmallTupleInplace writer offset tuple
  | samePageUpdate offset tuple => page.updateSmallTupleSamePage writer offset tuple
  | anotherPageUpdateOldPage offset newCtid => page.updateSmallTupleOldPage writer offset newCtid
  | anotherPageUpdateNewPage tuple => page.updateSmallTupleNewPage writer tuple

namespace DataPage

/-- Give the space of the tuple at `offset` back to `m_upper`. -/
def reclaimUpper (page : DataPage) (offset : ℕ) : DataPage :=
  page.setUpper (page.upper + (page.getItemId offset).len)

/-- `HandleErrorWhenGetUndoBuffer`. -/
def handleErrorWhenGetUndoBuffer (page : DataPage) (record : UndoRecord) : Option DataPage :=
  let page :=
    match record.data with
    | .heapInsert | .heapSamePageAppendUpdate _ | .heapAnotherPageAppendUpdateNewPage =>
      page.reclaimUpper record.ctid.offset.toNat
    | .heapBatchInsert ranges => (rangeOffsets ranges).foldl reclaimUpper page
    | _ => page
  page.undoHeap record

end DataPage

end DStore
