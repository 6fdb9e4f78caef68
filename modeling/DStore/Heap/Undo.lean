import DStore.Heap.HeapPage

/-!
# Undo on heap pages

`UndoHeap` takes one undo record back: inserted items become unused, a deleted or moved
tuple is brought back from the image in the record, an in-place update from the bytes that
differed. Along with the tuple goes the TD of the record, and the td status of the tuple is
adjusted to what happened to its TD since.
-/

namespace DStore

open HeapDiskTuple ByteMem

/-- The first half of `UndoActionOnTuple`: move the data of the tuple at `off` so that it ends
where data of a tuple of `oldTupleLen` bytes ends. -/
def alignTupleData (oldTupleLen : ℕ) (m : ByteMem) (off : ℕ) : ByteMem :=
  let pageTupleSize := getTupleSize m off
  let tupleData := off + heapDiskTupHeaderSize
  if pageTupleSize < oldTupleLen then
    m.copy (tupleData + (oldTupleLen - pageTupleSize)) tupleData
      (pageTupleSize - heapDiskTupHeaderSize)
  else if oldTupleLen < pageTupleSize then
    m.copy tupleData (tupleData + (pageTupleSize - oldTupleLen))
      (oldTupleLen - heapDiskTupHeaderSize)
  else m

/-- Copy diff sections back into data that ends at `dataEnd`. -/
def applyDiffs (diffs : List DiffSection) (dataEnd : ℕ) (m : ByteMem) : ByteMem :=
  diffs.foldl (fun m diff => m.blit (dataEnd - diff.stop) (ofBytes diff.bytes) 0
    (diff.stop - diff.start)) m

/-- `UndoDataHeapInplaceUpdate::UndoActionOnTuple` on the tuple at `off`. -/
def undoActionOnTuple (oldTdId oldInfo oldTupleLen : ℕ) (oldXid : Xid) (diffs : List DiffSection)
    (m : ByteMem) (off : ℕ) : ByteMem :=
  let restored := applyDiffs diffs (off + oldTupleLen) (alignTupleData oldTupleLen m off)
  setXid (setTupleSize (setInfo
    (setTdId restored off oldTdId) off oldInfo) off oldTupleLen) off oldXid

namespace DataPage

variable (page : DataPage) (record : UndoRecord)

/-- `GetTd(record->GetTdId())->RollbackTdInfo(record)`. -/
def rollbackTd : DataPage :=
  page.putTd record.tdId ((page.getTd record.tdId).rollbackTdInfo record)

/-- Take the tuple at `offset` off the page. -/
def undoInsertAt (page : DataPage) (offset : ℕ) : DataPage :=
  (page.addPotentialDelItemSize offset).putItemId offset ItemId.unused

/-- `ExecuteUndoForInsert`, and `ExecuteUndoForNewPageAppendUpdate`, which only orders these
writes differently. -/
def executeUndoForInsert : DataPage :=
  ((page.undoInsertAt record.ctid.offset.toNat).setTuplePrunable.setHasFreeItemId).rollbackTd record

/-- The offsets in the ranges of a batch insert. -/
def rangeOffsets (ranges : List (ℕ × ℕ)) : List ℕ :=
  ranges.flatMap fun range => List.range' range.1 (range.2 + 1 - range.1)

/-- `ExecuteUndoForBatchInsert`. -/
def executeUndoForBatchInsert (ranges : List (ℕ × ℕ)) : DataPage :=
  (((rangeOffsets ranges).foldl undoInsertAt page).setTuplePrunable.setHasFreeItemId).rollbackTd
    record

/-- The image of a deleted tuple as `ExecuteUndoForDelete` brings it back. -/
def undoDeleteImage (image : ByteMem) : ByteMem :=
  if page.isTdValidAndOccupied (getTdId image 0) = false then
    setTdStatus image 0 .detachTd
  else if (page.getTd record.tdId).xid ≠ getXid image 0 then
    setTdStatus image 0 .attachTdAsHistoryOwner
  else image

/-- Detach an image whose TD has been reset. -/
def detachImage (image : ByteMem) : ByteMem :=
  if page.isTdValidAndOccupied (getTdId image 0) then image
  else setTdStatus image 0 .detachTd

/-- Put an image back at `offset`: over the tuple there if it fits, otherwise as a new tuple
after compacting the page. -/
def restoreTuple (offset : ℕ) (image : ByteMem) (size : ℕ) : DataPage × ℕ :=
  let item := page.getItemId offset
  if item.isNormal && size ≤ item.len then
    (page.withMem (page.mem.blit item.offset image 0 size), offset)
  else (page.compactCRPageIfFreeSpaceLessThan size).addTuple image size offset

/-- The last step of the update undos: a tuple that is not of the transaction rolled back
hangs on its TD as history. -/
def markHistory (curXid : Xid) (offset : ℕ) : DataPage :=
  let off := (page.getItemId offset).offset
  if getTdStatus page.mem off ≠ TupleTdStatus.detachTd.code ∧
      getXid page.mem off ≠ curXid
  then page.withMem (setTdStatus page.mem off .attachTdAsHistoryOwner)
  else page

/-- `ExecuteUndoForDelete`: whether the tuple could be added is not looked at. -/
def executeUndoForDelete (tuple : List UInt8) : DataPage :=
  let image := page.undoDeleteImage record (ofBytes tuple)
  (page.restoreTuple record.ctid.offset.toNat image tuple.length).1.rollbackTd record

/-- Step 1 of `ExecuteUndoForInplaceUpdate`. -/
def undoInplaceTuple (oldTdId oldInfo oldTupleLen : ℕ) (oldXid : Xid) (diffs : List DiffSection)
    (offset : ℕ) : Option DataPage :=
  let item := page.getItemId offset
  let pageTupleSize := getTupleSize page.mem item.offset
  let page :=
    if page.isTdValidAndOccupied oldTdId then page
    else page.withMem (setTdStatus page.mem item.offset .detachTd)
  let undoAction := undoActionOnTuple oldTdId oldInfo oldTupleLen oldXid diffs
  if item.len < pageTupleSize then none
  else if oldTupleLen ≤ item.len then some (page.withMem (undoAction page.mem item.offset))
  else if page.isValidOffset offset then
    let tuple := undoAction (ofBytes (page.mem.load item.offset pageTupleSize)) 0
    let page := page.putItemId offset (item.setNoStorage.setTdStatus .detachTd)
    some ((page.compactCRPageIfFreeSpaceLessThan oldTupleLen).addTuple tuple oldTupleLen offset).1
  else none

/-- `ExecuteUndoForInplaceUpdate`. -/
def executeUndoForInplaceUpdate (oldTdId oldInfo oldTupleLen : ℕ) (oldXid : Xid)
    (diffs : List DiffSection) : Option DataPage :=
  let offset := record.ctid.offset.toNat
  match page.undoInplaceTuple oldTdId oldInfo oldTupleLen oldXid diffs offset with
  | none => none
  | some page =>
    some ((page.rollbackTd record).markHistory (page.getTd record.tdId).xid offset)

/-- `ExecuteUndoForSamePageAppendUpdate`. -/
def executeUndoForSamePageAppendUpdate (tuple : List UInt8) : Option DataPage :=
  let offset := record.ctid.offset.toNat
  let curXid := (page.getTd record.tdId).xid
  let page := page.rollbackTd record
  match page.updateTuple offset (page.detachImage (ofBytes tuple)) tuple.length with
  | none => none
  | some page =>
    some ((page.putItemId offset ((page.getItemId offset).setLen tuple.length)).markHistory
      curXid offset)

/-- `ExecuteUndoForOldPageAppendUpdate`. -/
def executeUndoForOldPageAppendUpdate (tuple : List UInt8) : Option DataPage :=
  let offset := record.ctid.offset.toNat
  let restored := page.restoreTuple offset (page.detachImage (ofBytes tuple)) tuple.length
  if restored.2 = offset then
    some ((restored.1.rollbackTd record).markHistory (restored.1.getTd record.tdId).xid offset)
  else none

/-- `UndoHeap`: `none` is a failure or a release panic. -/
def undoHeap : Option DataPage :=
  match record.data with
  | .heapInsert => some (page.executeUndoForInsert record)
  | .heapBatchInsert ranges => some (page.executeUndoForBatchInsert record ranges)
  | .heapDelete tuple => some (page.executeUndoForDelete record tuple)
  | .heapInplaceUpdate oldTdId oldInfo oldTupleLen oldXid diffs =>
    page.executeUndoForInplaceUpdate record oldTdId oldInfo oldTupleLen oldXid diffs
  | .heapSamePageAppendUpdate tuple => page.executeUndoForSamePageAppendUpdate record tuple
  | .heapAnotherPageAppendUpdateOldPage _ tuple =>
    page.executeUndoForOldPageAppendUpdate record tuple
  | .heapAnotherPageAppendUpdateNewPage => some (page.executeUndoForInsert record)
  | .btree => none

variable {page record}

/-- Where the tuple fits in its item it is written over it, and the item takes its length. -/
lemma executeUndoForSamePageAppendUpdate_eq {tuple : List UInt8} {offset : ℕ}
    (hctid : record.ctid.offset.toNat = offset) :
    page.executeUndoForSamePageAppendUpdate record tuple =
      if tuple.length ≤ (page.getItemId offset).len then
        some ((((page.rollbackTd record).withMem (page.mem.blit (page.getItemId offset).offset
          ((page.rollbackTd record).detachImage (ofBytes tuple)) 0 tuple.length)).putItemId offset
            ((page.getItemId offset).setLen tuple.length)).markHistory
              (page.getTd record.tdId).xid offset)
      else none := by
  subst hctid
  have hitem : (page.rollbackTd record).getItemId = page.getItemId := rfl
  simp only [executeUndoForSamePageAppendUpdate, updateTuple, hitem]
  split_ifs <;> rfl

end DataPage

end DStore
