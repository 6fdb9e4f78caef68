import DStore.Heap.Prune

/-!
# The undo payload of an index insertion

The undo data of an insertion holds the heap ctid, a few flags and, packed behind each other, the
null bitmap with its own attribute count and the value bytes. `GetIndexTuple` rebuilds the tuple
from them. All of it comes back but the mark of a tuple that was inserted as deleted for a
concurrent index build.
-/

namespace DStore

/-- `sizeof(IndexTuple)`. -/
def indexTupleSize : ℕ := 16

/-- `INDEX_MAX_KEY_NUM`. -/
def indexMaxKeyNum : ℕ := 32

/-- `DataTuple::GetBitmapLen`. -/
def getBitmapLen (nAttrs : ℕ) : ℕ := (nAttrs + 7) / 8

/-- `BtrCcidxStatus`. -/
inductive BtrCcidxStatus
  | notCcindex
  | writeOnlyIndex
  | inBuildingIndex
deriving DecidableEq

/-- `IndexTuple::GetDataOffset`. -/
def indexDataOffset (hasNull : Bool) : ℕ :=
  if hasNull then maxAlign (indexTupleSize + getBitmapLen indexMaxKeyNum)
  else maxAlign indexTupleSize

/-- A leaf tuple: its link, the bits of `m_info` an insertion sets, and the bytes behind the
header, which reach at least to the data offset. -/
structure LeafTuple where
  heapCtid : ItemPointerData
  hasNull : Bool
  hasVarwidth : Bool
  isDeleted : Bool
  ccindexInsForDelFlag : Bool
  ccindexStatus : BtrCcidxStatus
  data : List UInt8
  offset_le : indexDataOffset hasNull ≤ indexTupleSize + data.length

namespace LeafTuple

variable (t : LeafTuple)

/-- `GetSize`. -/
def getSize : ℕ := indexTupleSize + t.data.length

/-- `GetNullBitmap`, as far as the attributes of the index go. -/
def getNullBitmap (natts : ℕ) : List UInt8 :=
  if t.hasNull then t.data.take (getBitmapLen natts) else []

/-- `GetValues`. -/
def getValues : List UInt8 := t.data.drop (indexDataOffset t.hasNull - indexTupleSize)

end LeafTuple

/-- `UndoDataBtreeInsert`. -/
structure UndoDataBtreeInsert where
  hasNull : Bool
  hasVariable : Bool
  ins4Del : Bool
  heapCtid : ItemPointerData
  rawData : List UInt8

/-- The undo data of `GenerateUndoRecordForInsert`. -/
def generateUndoDataForInsert (natts : ℕ) (t : LeafTuple) : UndoDataBtreeInsert where
  hasNull := t.hasNull
  hasVariable := t.hasVarwidth
  ins4Del := t.isDeleted && t.ccindexInsForDelFlag
  heapCtid := t.heapCtid
  rawData := (if t.hasNull then UInt8.ofNat natts :: t.getNullBitmap natts else []) ++ t.getValues

namespace UndoDataBtreeInsert

variable (undo : UndoDataBtreeInsert)

/-- The bytes before the values: the attribute count and the bitmap. -/
def bitmapSize : ℕ := if undo.hasNull then 1 + getBitmapLen (undo.rawData.headD 0).toNat else 0

/-- `GetValue` and `GetValueSize`. -/
def getValue : List UInt8 := undo.rawData.drop undo.bitmapSize

/-- The header of the tuple from the bitmap on: zeros, and the bitmap copied in. -/
def header : List UInt8 :=
  let bitmap := (undo.rawData.take undo.bitmapSize).tail
  bitmap ++ List.replicate (indexDataOffset undo.hasNull - indexTupleSize - bitmap.length) 0

/-- `GetIndexTuple`. -/
def getIndexTuple : LeafTuple where
  heapCtid := undo.heapCtid
  hasNull := undo.hasNull
  hasVarwidth := undo.hasVariable
  isDeleted := false
  ccindexInsForDelFlag := false
  -- without value bytes it returns before the status is set
  ccindexStatus := if undo.getValue ≠ [] ∧ undo.ins4Del then .writeOnlyIndex else .notCcindex
  data := undo.header ++ undo.getValue
  offset_le := by
    have hlen : indexDataOffset undo.hasNull - indexTupleSize ≤ undo.header.length := by
      rw [header, List.length_append, List.length_replicate]
      exact le_add_tsub
    rw [List.length_append]
    omega

end UndoDataBtreeInsert

namespace LeafTuple

variable (natts : Fin (indexMaxKeyNum + 1)) (t : LeafTuple)

/-- The tuple that comes back. -/
def rebuilt : LeafTuple := (generateUndoDataForInsert natts t).getIndexTuple

/-- The tuple that comes back has the size, the bitmap, the flags, the heap ctid and the values of
the tuple, and its insert-for-delete mark. -/
structure RoundTrip : Prop where
  size : (t.rebuilt natts).getSize = t.getSize
  bitmap : (t.rebuilt natts).getNullBitmap natts = t.getNullBitmap natts
  hasNull : (t.rebuilt natts).hasNull = t.hasNull
  hasVarwidth : (t.rebuilt natts).hasVarwidth = t.hasVarwidth
  heapCtid : (t.rebuilt natts).heapCtid = t.heapCtid
  values : (t.rebuilt natts).getValues = t.getValues
  insertForDelete : (t.rebuilt natts).ccindexInsForDelFlag = t.ccindexInsForDelFlag

/-- The bitmap fits between the header and the data. -/
lemma length_getNullBitmap :
    (t.getNullBitmap natts).length = (if t.hasNull then getBitmapLen natts else 0) ∧
      (t.getNullBitmap natts).length ≤ indexDataOffset t.hasNull - indexTupleSize := by
  have hlt := natts.isLt
  have hle := t.offset_le
  rw [getNullBitmap]
  cases hnull : t.hasNull with
  | false => simp
  | true =>
    simp only [hnull, indexDataOffset, indexTupleSize, indexMaxKeyNum, getBitmapLen, maxAlign,
      if_true, List.length_take] at hlt hle ⊢
    omega

/-- The decoder finds the border between the bitmap and the values. -/
lemma generate_split :
    ((generateUndoDataForInsert natts t).rawData.take
      (generateUndoDataForInsert natts t).bitmapSize).tail = t.getNullBitmap natts ∧
    (generateUndoDataForInsert natts t).getValue = t.getValues := by
  have hlen := (length_getNullBitmap natts t).1
  have hnatts : (UInt8.ofNat natts).toNat = natts :=
    UInt8.toNat_ofNat_of_lt' (natts.isLt.trans (by decide))
  rw [UndoDataBtreeInsert.getValue, UndoDataBtreeInsert.bitmapSize, generateUndoDataForInsert]
  cases hnull : t.hasNull with
  | false => simp [getNullBitmap, hnull]
  | true =>
    rw [hnull, if_pos rfl] at hlen
    simp [hnatts, ← hlen, Nat.add_comm 1]

/-- A tuple that is not marked as inserted for a delete comes back as it was. -/
lemma roundTrip (hflag : t.ccindexInsForDelFlag = false) : t.RoundTrip natts := by
  obtain ⟨hbitmap, hvalue⟩ := generate_split natts t
  obtain ⟨hlen, hle⟩ := length_getNullBitmap natts t
  have hdata : (t.rebuilt natts).data = t.getNullBitmap natts ++ (List.replicate
      (indexDataOffset t.hasNull - indexTupleSize - (t.getNullBitmap natts).length) 0 ++
        t.getValues) := by
    rw [← hbitmap, ← hvalue, ← List.append_assoc]
    rfl
  have hoffset := t.offset_le
  have hvalues : t.getValues.length =
      t.data.length - (indexDataOffset t.hasNull - indexTupleSize) := List.length_drop
  refine ⟨?_, ?_, rfl, rfl, rfl, ?_, hflag.symm⟩
  · rw [getSize, getSize, hdata, List.length_append, List.length_append, List.length_replicate]
    omega
  · rw [getNullBitmap, hdata]
    change (if t.hasNull then _ else _) = _
    split_ifs with hnull
    · rw [if_pos hnull] at hlen
      rw [← hlen, List.take_left]
    · rw [getNullBitmap, if_neg hnull]
  · rw [getValues, hdata, ← List.append_assoc]
    refine List.drop_left' ?_
    rw [List.length_append, List.length_replicate]
    exact Nat.add_sub_cancel' hle

/-- The payload brings the whole tuple back unless the tuple was inserted as deleted for a
concurrent index build. Then the write-only status stands in for the mark, if there are value
bytes. -/
theorem insert_undo_roundTrip_iff :
    (t.RoundTrip natts ↔ t.ccindexInsForDelFlag = false) ∧
      ((t.rebuilt natts).ccindexStatus = .writeOnlyIndex ↔
        t.getValues ≠ [] ∧ t.isDeleted ∧ t.ccindexInsForDelFlag) := by
  refine ⟨⟨fun h => h.insertForDelete.symm, roundTrip natts t⟩, ?_⟩
  rw [← (generate_split natts t).2, ← Bool.and_eq_true]
  change (if _ ∧ (t.isDeleted && t.ccindexInsForDelFlag) = true then _ else _) = _ ↔ _
  split_ifs with h <;> simp [h]

/-- A tuple of one null attribute. -/
def allNull : LeafTuple :=
  ⟨⟨⟨1, 1⟩, 1⟩, true, false, true, true, .writeOnlyIndex, List.replicate 8 0, by decide⟩

theorem allNull_not_roundTrip : ¬ allNull.RoundTrip 1 ∧
    (allNull.rebuilt 1).ccindexInsForDelFlag = false ∧
    (allNull.rebuilt 1).ccindexStatus = .notCcindex := by
  refine ⟨fun h => ?_, rfl, by decide⟩
  cases h.insertForDelete

end LeafTuple

end DStore
