import DStore.Heap.RefreshLink
import DStore.Heap.UndoTdLink

/-!
# What an operation keeps

An operation leaves a well-formed page. The tuples its undo record names have no locker, all
others are untouched, and the record holds all that its undo relies on.
-/

namespace DStore

open HeapDiskTuple

/-- The tuple an operation rewrites; inserts rewrite none. -/
def HeapOp.target : HeapOp → Option ℕ
  | .delete offset => some offset
  | .inplaceUpdate offset _ => some offset
  | .samePageUpdate offset _ => some offset
  | .anotherPageUpdateOldPage offset _ => some offset
  | _ => none

/-- What undo relies on in a record: an old version is a whole tuple without locker, and the diff
sections lie in its data. -/
def UndoRecord.Restorable (record : UndoRecord) : Prop :=
  match record.data with
  | .heapDelete tuple | .heapSamePageAppendUpdate tuple
  | .heapAnotherPageAppendUpdateOldPage _ tuple =>
    heapDiskTupHeaderSize ≤ tuple.length ∧
      (HeapDiskTuple.header (ByteMem.ofBytes tuple) 0).size = tuple.length ∧
      (HeapDiskTuple.header (ByteMem.ofBytes tuple) 0).lockerTdId = invalidTdSlot
  | .heapInplaceUpdate _ _ oldTupleLen _ diffs =>
    heapDiskTupHeaderSize ≤ oldTupleLen ∧ oldTupleLen < 256 ^ 2 ∧
      DiffsWithin (oldTupleLen - heapDiskTupHeaderSize) diffs
  | .btree => False
  | _ => True

namespace DataPage

/-! ## Well-formed pages, one tuple at a time -/

/-- The item at `offset` has a length only if it is normal, and its tuple then fits it. -/
def TupleSound (page : DataPage) (offset : ℕ) : Prop :=
  ((page.getItemId offset).len ≠ 0 → (page.getItemId offset).isNormal = true) ∧
    ((page.getItemId offset).isNormal = true →
      heapDiskTupHeaderSize ≤ (page.tupleHeader offset).size ∧
        (page.tupleHeader offset).size ≤ (page.getItemId offset).len)

section Sound

variable {page page' : DataPage} {offset : ℕ} {touched : ℕ → Prop}

lemma HeapWellFormed.sound (hwf : page.HeapWellFormed) (hv : page.ValidOffset offset) :
    page.TupleSound offset :=
  ⟨hwf.normal_of_len offset hv, fun hn =>
    ⟨hwf.header_le_size offset hv hn, hwf.size_le_len offset hv hn⟩⟩

/-- A heap page is well formed if each of its tuples is sound. -/
lemma HeapWellFormed.of_sound (hheap : page.type = .heap) (hlayout : page.Layout)
    (h : ∀ offset, page.ValidOffset offset → page.TupleSound offset) : page.HeapWellFormed :=
  ⟨hheap, hlayout, fun offset hv => (h offset hv).1, fun offset hv hn => ((h offset hv).2 hn).1,
    fun offset hv hn => ((h offset hv).2 hn).2⟩

/-- Only the touched tuples have to be looked at again. -/
lemma HeapWellFormed.of_frame (hwf : page.HeapWellFormed) (htype : page'.type = page.type)
    (hlayout : page'.Layout) (hframe : TupleFrame page page' touched)
    (hvalid : ∀ offset, page'.ValidOffset offset → page.ValidOffset offset ∨ touched offset)
    (htouched : ∀ offset, page'.ValidOffset offset → touched offset → page'.TupleSound offset) :
    page'.HeapWellFormed := by
  refine HeapWellFormed.of_sound (htype.trans hwf.heap) hlayout fun offset hv => ?_
  by_cases ht : touched offset
  · exact htouched offset hv ht
  · have hv' := (hvalid offset hv).resolve_right ht
    rw [TupleSound, hframe.item offset hv' ht]
    refine ⟨hwf.normal_of_len offset hv', fun hn => ?_⟩
    rw [hframe.tupleHeader_eq hv' ht hn (hwf.header_le_len hv' hn)]
    exact (hwf.sound hv').2 hn

end Sound

/-! ## The operations -/

/-- What an operation on `page` that writes `record` leaves. -/
structure OpFrame (page page' : DataPage) (writer : HeapWriter) (op : HeapOp)
    (record : UndoRecord) : Prop where
  wf : page'.HeapWellFormed
  tds_eq : page'.tds = page.tds
  frame : TupleFrame page page' (record.isMatchedCtid · = true)
  ofTd : ∃ ctid data, record =
    UndoRecord.ofTd writer.tdId (page.getTd writer.tdId) ctid writer.cid data
  restorable : record.Restorable
  valid : ∀ offset, record.isMatchedCtid offset = true → page'.ValidOffset offset
  valid_or : ∀ offset, page'.ValidOffset offset →
    page.ValidOffset offset ∨ record.isMatchedCtid offset = true
  unlocked : ∀ offset, record.isMatchedCtid offset = true →
    (page'.tupleHeader offset).lockerTdId = invalidTdSlot
  target : ∀ offset, record.isMatchedCtid offset = true →
    (page.getItemId offset).isNormal = true → op.target = some offset

section Ops

variable {page page' : DataPage} {writer : HeapWriter} {op : HeapOp} {record : UndoRecord}
  {offset : ℕ}

/-- The image in an undo record is a whole tuple without a locker. -/
lemma undoImage_whole (hwf : page.HeapWellFormed) (hv : page.ValidOffset offset)
    (hn : (page.getItemId offset).isNormal) :
    heapDiskTupHeaderSize ≤ (page.undoImage offset).length ∧
      (header (ByteMem.ofBytes (page.undoImage offset)) 0).size = (page.undoImage offset).length ∧
      (header (ByteMem.ofBytes (page.undoImage offset)) 0).lockerTdId =
        invalidTdSlot := by
  have hsize := hwf.header_le_size offset hv hn
  rw [header_undoImage hsize, length_undoImage]
  exact ⟨hsize, rfl, rfl⟩

variable {data : UndoData}

section

variable (hwf : page.HeapWellFormed)
  (hrestorable : (page.undoRecordAt writer offset data).Restorable)
include hwf hrestorable

section

variable (hdata : ∀ ranges, data ≠ .heapBatchInsert ranges)
  (hlocker : (page'.tupleHeader offset).lockerTdId = invalidTdSlot)
  (htarget : op.target = some offset)
include hdata hlocker htarget

/-- An operation that changes the tuple at `offset`. -/
lemma opFrame_of_single (hv : page.ValidOffset offset)
    (htype : page'.type = page.type) (hlayout : page'.Layout) (htds : page'.tds = page.tds)
    (hmax : page'.getMaxOffset = page.getMaxOffset) (hframe : TupleFrame page page' (· = offset))
    (hsound : page'.TupleSound offset) :
    OpFrame page page' writer op (page.undoRecordAt writer offset data) := by
  have hlt : offset < 2 ^ 16 := hwf.layout.offset_lt hv
  have hmatch : ∀ offset', (page.undoRecordAt writer offset data).isMatchedCtid offset' ↔
      offset' = offset := isMatchedCtid_undoRecordAt hlt hdata
  have hsame :
      (fun offset' => (page.undoRecordAt writer offset data).isMatchedCtid offset' = true) =
        (· = offset) := funext fun offset' => propext (hmatch offset')
  refine ⟨?_, htds, by rw [hsame]; exact hframe, ⟨_, _, rfl⟩, hrestorable, ?_,
    fun offset' hv' => Or.inl (hv'.mono hmax.le), ?_, ?_⟩
  · refine hwf.of_frame htype hlayout hframe (fun offset' hv' => Or.inl (hv'.mono hmax.le)) ?_
    intro offset' _ hoff
    rw [hoff]
    exact hsound
  · intro offset' hm
    rw [(hmatch offset').mp hm]
    exact hv.mono hmax.ge
  · intro offset' hm
    rw [(hmatch offset').mp hm]
    exact hlocker
  · intro offset' hm _
    rw [(hmatch offset').mp hm]
    exact htarget

/-- An operation that rewrites a tuple has the frame of an operation. -/
lemma Rewritten.opFrame (hrew : Rewritten page page' offset)
    (hsize : heapDiskTupHeaderSize ≤ (page'.tupleHeader offset).size ∧
      (page'.tupleHeader offset).size ≤ (page.getItemId offset).len) :
    OpFrame page page' writer op (page.undoRecordAt writer offset data) := by
  have hchanged := hrew.changedAt hwf (SameSpace.refl page')
  have hitem : page'.getItemId offset = page.getItemId offset := by
    rw [getItemId, getItemId, hrew.items_eq]
  refine opFrame_of_single hwf hrestorable hdata hlocker htarget hrew.valid hrew.type_eq
    hchanged.layout hrew.tds_eq (by rw [getMaxOffset, getMaxOffset, hrew.items_eq])
      hchanged.frame ?_
  rw [TupleSound, hitem]
  exact ⟨fun _ => hrew.normal, fun _ => hsize⟩

end

/-- An operation that places new tuples. -/
lemma PlacedRun.opFrame {run : List Placement} (hrun : PlacedRun page run page')
    (hheader : ∀ new ∈ run, (header new.image 0).size = new.size ∧
      (header new.image 0).lockerTdId = invalidTdSlot)
    (hmatch : ∀ offset', (page.undoRecordAt writer offset data).isMatchedCtid offset' ↔
      offset' ∈ run.map Placement.offset) :
    OpFrame page page' writer op (page.undoRecordAt writer offset data) := by
  have hins := hrun.inserted hwf.heap hwf.layout
  have hplaced : ∀ offset' ∈ run.map Placement.offset,
      heapDiskTupHeaderSize ≤ (page'.getItemId offset').len ∧
        (page'.tupleHeader offset').size = (page'.getItemId offset').len ∧
        (page'.tupleHeader offset').lockerTdId = invalidTdSlot := by
    intro offset' hmem
    obtain ⟨hv, hn⟩ := hins.normal offset' hmem
    have hlen := hins.layout.header_le offset' hv (isStored_of_isNormal hn)
    rw [hins.type_eq, hwf.heap] at hlen
    obtain ⟨new, hnew, rfl⟩ := List.mem_map.mp hmem
    obtain ⟨hsize, hbytes⟩ := hrun.stored hwf.heap hwf.layout hnew
    have heq : page'.tupleHeader new.offset = header new.image 0 := by
      rw [hsize] at hlen
      exact header_of_image hbytes hlen
    rw [heq, (hheader new hnew).1, (hheader new hnew).2, hsize]
    exact ⟨hsize ▸ hlen, rfl, rfl⟩
  have hsame :
      (fun offset' => (page.undoRecordAt writer offset data).isMatchedCtid offset' = true) =
        (· ∈ run.map Placement.offset) := funext fun offset' => propext (hmatch offset')
  refine ⟨?_, hins.tds_eq, by rw [hsame]; exact hins.frame, ⟨_, _, rfl⟩, hrestorable,
    fun offset' hm => (hins.normal offset' ((hmatch offset').mp hm)).1,
    fun offset' hv' => (hins.valid_or offset' hv').imp_right (hmatch offset').mpr,
    fun offset' hm => (hplaced offset' ((hmatch offset').mp hm)).2.2, ?_⟩
  · refine hwf.of_frame hins.type_eq hins.layout hins.frame hins.valid_or fun offset' _ hmem => ?_
    obtain ⟨hlen, hsize, _⟩ := hplaced offset' hmem
    rw [TupleSound, hsize]
    exact ⟨fun _ => (hins.normal offset' hmem).2, fun _ => ⟨hlen, le_rfl⟩⟩
  · intro offset' hm hn
    exact absurd (hins.unused offset' ((hmatch offset').mp hm)) (ItemId.not_isUnused_of_isNormal hn)

end

/-- So has an operation that adds a tuple. -/
lemma addNewTuple_opFrame (hwf : page.HeapWellFormed) {tuple : HeapTuple} {image : ByteMem}
    (himage : (header image 0).size = tuple.size ∧
      (header image 0).lockerTdId = invalidTdSlot)
    (hdata : data = .heapInsert ∨ data = .heapAnotherPageAppendUpdateNewPage)
    (hop : page.addNewTuple writer tuple image data = some (page', record)) :
    OpFrame page page' writer op record := by
  obtain ⟨offset, hrun, rfl⟩ := addNewTuple_placed hwf.layout hop
  have hins := hrun.inserted hwf.heap hwf.layout
  obtain ⟨hv, _⟩ := hins.normal offset (List.mem_singleton.mpr rfl)
  have hlt : offset < 2 ^ 16 := hins.layout.offset_lt hv
  refine hrun.opFrame hwf ?_ ?_ ?_
  · rcases hdata with rfl | rfl <;> trivial
  · intro new hmem
    rw [List.mem_singleton.mp hmem]
    exact himage
  · intro offset'
    rw [isMatchedCtid_undoRecordAt hlt (by rcases hdata with rfl | rfl <;> simp)]
    simp

/-- Every operation keeps the page well-formed and touches only what its record names. -/
theorem modify_opFrame (hwf : page.HeapWellFormed)
    (hop : op.modify writer page = some (page', record)) : OpFrame page page' writer op record := by
  cases op with
  | insert tuple => exact addNewTuple_opFrame hwf (header_stamped tuple writer) (Or.inl rfl) hop
  | batchInsert saveFreeSpace tuples =>
    obtain ⟨ranges, run, hrun, hstamped, hfilled, rfl⟩ :=
      batchInsertSmallTuples_placed hwf.heap hwf.layout hop
    refine hrun.opFrame hwf trivial ?_ ?_
    · intro new hmem
      obtain ⟨tuple, himage, hsize⟩ := hstamped new hmem
      rw [himage, hsize]
      exact header_stamped tuple writer
    · intro offset'
      rw [hfilled, mem_rangeOffsets]
      rfl
  | delete offset =>
    obtain ⟨⟨hrew, hsize, hlocker⟩, rfl⟩ := deleteDiskTuple_rewritten hwf hop
    refine hrew.opFrame hwf (undoImage_whole hwf hrew.valid hrew.normal) (by simp) hlocker rfl ?_
    rw [hsize]
    exact (hwf.sound hrew.valid).2 hrew.normal
  | inplaceUpdate offset tuple =>
    obtain ⟨hrew, rfl, hle, hbytes⟩ := updateSmallTupleInplace_rewritten hwf hop
    have hitem : page'.getItemId offset = page.getItemId offset := by
      rw [getItemId, getItemId, hrew.items_eq]
    have hheader : page'.tupleHeader offset =
        header (tuple.stampedAs writer .newTupleByInplaceUpdate) 0 := by
      rw [tupleHeader, hitem]
      exact header_of_image hbytes tuple.header_le
    obtain ⟨hsize, hlocker⟩ := header_stampedAs tuple writer .newTupleByInplaceUpdate
    refine hrew.opFrame hwf ?_ (by simp) (hheader ▸ hlocker) rfl ?_
    · exact ⟨hwf.header_le_size offset hrew.valid hrew.normal, (header_lt _ _).2.1,
        inplaceDiffs_within _ _ _ _ _⟩
    · rw [hheader, hsize]
      exact ⟨tuple.header_le, hle⟩
  | samePageUpdate offset tuple =>
    obtain ⟨hmoved, rfl, hbytes⟩ := updateSmallTupleSamePage_moved hwf hop
    have hheader : page'.tupleHeader offset =
        header (tuple.stampedAs writer .newTupleBySamePageUpdate) 0 := by
      rw [tupleHeader, hmoved.item]
      exact header_of_image hbytes tuple.header_le
    obtain ⟨hsize, hlocker⟩ := header_stampedAs tuple writer .newTupleBySamePageUpdate
    refine opFrame_of_single hwf (undoImage_whole hwf hmoved.valid hmoved.normal) (by simp)
      (hheader ▸ hlocker) rfl hmoved.valid hmoved.type_eq hmoved.layout hmoved.tds_eq
      hmoved.getMaxOffset_eq hmoved.frame ?_
    rw [TupleSound, hheader, hsize, hmoved.item]
    exact ⟨fun _ => rfl, fun _ => ⟨tuple.header_le, le_rfl⟩⟩
  | anotherPageUpdateOldPage offset newCtid =>
    obtain ⟨⟨hrew, hsize, hlocker⟩, rfl⟩ := updateSmallTupleOldPage_rewritten hwf hop
    refine hrew.opFrame hwf (undoImage_whole hwf hrew.valid hrew.normal) (by simp) hlocker rfl ?_
    rw [hsize]
    exact (hwf.sound hrew.valid).2 hrew.normal
  | anotherPageUpdateNewPage tuple =>
    exact addNewTuple_opFrame hwf (header_stampedAs tuple writer _) (Or.inr rfl) hop

end Ops

end DataPage

end DStore
