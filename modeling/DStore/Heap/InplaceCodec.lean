import DStore.Heap.TupleDiff

/-!
# The diff of an in-place update as a codec

One list of diff positions gives the undo data and the redo data of an in-place update. Undo turns
the new image into the old one and redo turns the old image into the new one, but for the locker TD
id, which is in neither: it stays as it is in the image that is changed.
-/

namespace DStore

open HeapDiskTuple ByteMem

/-- A tuple with its header, at the start of its own memory. -/
structure TupleImage where
  mem : ByteMem
  header_le : heapDiskTupHeaderSize ≤ getTupleSize mem 0

/-- What `WalRecordHeapInplaceUpdate` holds of the new tuple. -/
structure WalRecordHeapInplaceUpdate where
  tdId : ℕ
  diskTupleSize : ℕ
  tupleHeadInfo : ℕ
  diffs : List DiffSection

/-- The part of `WalRecordHeapInplaceUpdate::Redo` that changes the tuple at `off`. -/
def WalRecordHeapInplaceUpdate.redo (record : WalRecordHeapInplaceUpdate) (xid : Xid) (m : ByteMem)
    (off : ℕ) : ByteMem :=
  let m := applyDiffs record.diffs (off + record.diskTupleSize)
    (alignTupleData record.diskTupleSize m off)
  let m := setXid (setTdId m off record.tdId) off xid
  let m := setLiveMode (setTdStatus m off .attachTdAsNewOwner) off .newTupleByInplaceUpdate
  setInfo (setTupleSize m off record.diskTupleSize) off record.tupleHeadInfo

namespace TupleImage

variable (old new : TupleImage)

/-- The size in the header. -/
def size : ℕ := getTupleSize old.mem 0

/-- The size of the data. -/
def dataSize : ℕ := old.size - heapDiskTupHeaderSize

/-- `GetDiffBetweenTuples`. -/
def diffPos : List (ℕ × ℕ) :=
  getDiffBetweenTuples (fun i => old.mem (old.size - 1 - i) == new.mem (new.size - 1 - i))
    old.dataSize new.dataSize

/-- `GenerateUndoData` and `UndoActionOnTuple` on the new image. -/
def undo : ByteMem :=
  undoActionOnTuple (getTdId old.mem 0) (getInfo old.mem 0) old.size (getXid old.mem 0)
    (generateUndoData old.mem old.size (getTupleDiffPos old.dataSize (old.diffPos new))) new.mem 0

/-- The record of the update. `SetData` lays the sections out as `GenerateUndoData` does. -/
def walRecord : WalRecordHeapInplaceUpdate :=
  ⟨getTdId new.mem 0, new.size, getInfo new.mem 0,
    generateUndoData new.mem new.size (getTupleDiffPos new.dataSize (old.diffPos new))⟩

/-- `Redo` on the old image. -/
def redo : ByteMem := (old.walRecord new).redo (getXid new.mem 0) old.mem 0

/-- The image with another locker TD id. -/
def lockedBy (lockerTdId : ℕ) : ByteMem := setLockerTdId old.mem 0 lockerTdId

/-! ## The sections on both sides -/

/-- The undo data are the differing sections of the old image. -/
lemma undoData_eq :
    generateUndoData old.mem old.size (getTupleDiffPos old.dataSize (old.diffPos new)) =
      inplaceDiffs old.mem 0 old.size new.mem new.size := by
  simp only [inplaceDiffs, Nat.zero_add]
  rfl

/-- The positions do not depend on which image is the old one. -/
lemma diffPos_comm : old.diffPos new = new.diffPos old := by
  unfold diffPos getDiffBetweenTuples
  simp only [Nat.min_comm old.dataSize, Nat.max_comm old.dataSize, BEq.comm (a := old.mem _)]

variable {old new} {m : ByteMem}

/-- Data that ends in the same place, with the sections of `old` copied in, is the data of `old`;
the header is written field by field. -/
lemma load_eq_lockedBy
    (hedit : HeaderEdit 0 (applyDiffs (inplaceDiffs old.mem 0 old.size new.mem new.size)
      (0 + old.size) (alignTupleData old.size new.mem 0)) m)
    (hheader : header m 0 = { header old.mem 0 with lockerTdId := getLockerTdId new.mem 0 }) :
    m.load 0 old.size = (old.lockedBy (getLockerTdId new.mem 0)).load 0 old.size := by
  rw [load_eq_iff_header (show heapDiskTupHeaderSize ≤ old.size from old.header_le)]
  constructor
  · have hlocker : getLockerTdId new.mem 0 < 256 := readLE_lt ..
    rw [hheader, lockedBy, header_setLockerTdId, Nat.mod_eq_of_lt hlocker]
  · apply load_congr
    intro i hi
    have hundo := headerEdit_undoActionOnTuple new.mem 0 old.size 0 0 0
      (inplaceDiffs old.mem 0 old.size new.mem new.size)
    have hdata : undoActionOnTuple 0 0 old.size 0
        (inplaceDiffs old.mem 0 old.size new.mem new.size) new.mem 0
          (0 + heapDiskTupHeaderSize + i) = old.mem (0 + heapDiskTupHeaderSize + i) :=
      undoActionOnTuple_data 0 0 0 rfl (fun j _ _ => congrArg new.mem (Nat.zero_add j)) hi
    have hlocker := headerEdit_setLockerTdId old.mem 0 (getLockerTdId new.mem 0)
    rw [hedit _ (Or.inr (by omega)), ← hundo _ (Or.inr (by omega)), hdata, lockedBy,
      hlocker _ (Or.inr (by omega))]

/-- No section reaches the locker in the header. -/
lemma lockerTdId_applyDiffs :
    getLockerTdId (applyDiffs (inplaceDiffs old.mem 0 old.size new.mem new.size) (0 + old.size)
      (alignTupleData old.size new.mem 0)) 0 = getLockerTdId new.mem 0 :=
  congrArg HeapTupleHeader.lockerTdId
    (header_applyDiffs (inplaceDiffs_within _ _ _ _ _) old.header_le new.header_le)

/-- The fields of the header, as a record stores them. -/
lemma header_stored (lockerTdId : ℕ) :
    (⟨getTdId old.mem 0 % 256, lockerTdId, old.size % 256 ^ 2, getXid old.mem 0,
      getInfo old.mem 0 % 256 ^ 4⟩ : HeapTupleHeader) =
        { header old.mem 0 with lockerTdId := lockerTdId } := by
  have htdId : getTdId old.mem 0 < 256 := readLE_lt ..
  have hsize : old.size < 256 ^ 2 := readLE_lt ..
  have hinfo : getInfo old.mem 0 < 256 ^ 4 := readLE_lt ..
  rw [Nat.mod_eq_of_lt htdId, Nat.mod_eq_of_lt hsize, Nat.mod_eq_of_lt hinfo]
  rfl

/-- Undo gives the old image and redo gives the new image, byte for byte but for the locker TD id,
for images of any contents and lengths. -/
theorem undo_redo_codec (old new : TupleImage) :
    (old.undo new).load 0 old.size = (old.lockedBy (getLockerTdId new.mem 0)).load 0 old.size ∧
    (old.redo new).load 0 new.size = (new.lockedBy (getLockerTdId old.mem 0)).load 0 new.size := by
  constructor
  · rw [undo, undoData_eq]
    apply load_eq_lockedBy (headerEdit_undoActionOnTuple _ _ _ _ _ _ _)
    rw [header_undoActionOnTuple, lockerTdId_applyDiffs]
    exact header_stored _
  · have hdiffs : (old.walRecord new).diffs = inplaceDiffs new.mem 0 new.size old.mem old.size := by
      rw [← undoData_eq, ← diffPos_comm]
      rfl
    rw [redo, WalRecordHeapInplaceUpdate.redo, hdiffs]
    apply load_eq_lockedBy
    · exact (((((headerEdit_setTdId _ 0 _).trans (headerEdit_setXid _ 0 _)).trans
        (headerEdit_setTdStatus _ 0 _)).trans (headerEdit_setLiveMode _ 0 _)).trans
        (headerEdit_setTupleSize _ 0 _)).trans (headerEdit_setInfo _ 0 _)
    · simp only [header_setInfo, header_setTupleSize, header_setLiveMode, header_setTdStatus,
        header_setXid, header_setTdId]
      rw [← header_stored (getLockerTdId old.mem 0), ← lockerTdId_applyDiffs]
      rfl

/-- A locked tuple without data. -/
def lockedTuple : TupleImage := ⟨fun i => if i = 1 then 1 else if i = 2 then 16 else 0, by decide⟩

/-- The same tuple, not locked. -/
def freeTuple : TupleImage := ⟨fun i => if i = 2 then 16 else 0, by decide⟩

/-- The locker TD id of the old tuple does not come back. -/
theorem undo_redo_locker_lost :
    (lockedTuple.undo freeTuple).load 0 lockedTuple.size ≠
      lockedTuple.mem.load 0 lockedTuple.size := by
  decide

end TupleImage

end DStore
