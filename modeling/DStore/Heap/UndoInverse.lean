import DStore.Heap.OpEffect

/-!
# Undo inverts the operations

Applying the undo record of a heap operation to the page the operation leaves brings back
every tuple the operation touched, takes away the tuples it inserted, and rolls the TD back.
-/

namespace DStore

open HeapDiskTuple List

/-- `IsMatchedCtid` for an offset of the page of the record. -/
def UndoRecord.isMatchedCtid (record : UndoRecord) (offset : ℕ) : Bool :=
  match record.data with
  | .heapBatchInsert ranges => ranges.any fun range => range.1 ≤ offset && offset ≤ range.2
  | _ => record.ctid.offset.toNat = offset

/-- A record that is not of a batch insert names one tuple. -/
lemma UndoRecord.isMatchedCtid_iff {record : UndoRecord}
    (hdata : ∀ ranges, record.data ≠ .heapBatchInsert ranges) {offset : ℕ} :
    record.isMatchedCtid offset ↔ offset = record.ctid.offset.toNat := by
  rw [UndoRecord.isMatchedCtid]
  split
  next ranges h => exact absurd h (hdata ranges)
  · rw [decide_eq_true_eq]
    exact eq_comm

namespace DataPage

/-- The offsets of a batch insert are those in its ranges. -/
lemma mem_rangeOffsets {ranges : List (ℕ × ℕ)} {offset : ℕ} :
    offset ∈ rangeOffsets ranges ↔
      (ranges.any fun range => range.1 ≤ offset && offset ≤ range.2) := by
  simp only [rangeOffsets, mem_flatMap, mem_range'_1, any_eq_true, Bool.and_eq_true,
    decide_eq_true_eq]
  constructor
  · rintro ⟨range, hmem, h1, h2⟩
    exact ⟨range, hmem, h1, by omega⟩
  · rintro ⟨range, hmem, h1, h2⟩
    exact ⟨range, hmem, h1, by omega⟩

/-- `page'` is `page` as far as a transaction that ends can tell: the tuples the record touches
are back, those it inserted are gone, all others are untouched, and so is the TD. -/
structure UndoInverts (page page' : DataPage) (record : UndoRecord) : Prop where
  touched : ∀ offset, page.ValidOffset offset → (page.getItemId offset).isNormal = true →
    record.isMatchedCtid offset = true →
    (page'.getItemId offset).isNormal = true ∧
      page'.tupleData offset = page.tupleData offset ∧
      (page'.tupleHeader offset).size = (page.tupleHeader offset).size ∧
      (page'.tupleHeader offset).liveMode = (page.tupleHeader offset).liveMode ∧
      (page'.tupleHeader offset).xid = (page.tupleHeader offset).xid ∧
      (page'.tupleHeader offset).tdId = (page.tupleHeader offset).tdId
  inserted : ∀ offset, record.isMatchedCtid offset = true →
    ¬ (page.ValidOffset offset ∧ (page.getItemId offset).isNormal = true) →
    (page'.getItemId offset).isUnused = true
  others : ∀ offset, page.ValidOffset offset → (page.getItemId offset).isNormal = true →
    record.isMatchedCtid offset = false →
    (page'.getItemId offset).isNormal = true ∧ page'.tupleBytes offset = page.tupleBytes offset
  td : (page'.getTd record.tdId).xid = (page.getTd record.tdId).xid ∧
    (page'.getTd record.tdId).undoRecPtr = (page.getTd record.tdId).undoRecPtr ∧
    (page'.getTd record.tdId).csn = (page.getTd record.tdId).csn ∧
    (page'.getTd record.tdId).csnStatus = (page.getTd record.tdId).csnStatus

section Inverse

variable {page page' p : DataPage} {writer : HeapWriter} {offset : ℕ} {data : UndoData}

lemma rollbackTd_tds_congr (h : page'.tds = page.tds) (record : UndoRecord) :
    (page'.rollbackTd record).tds = (page.rollbackTd record).tds := by
  rw [rollbackTd, rollbackTd, putTd, putTd, getTd, getTd, h]

/-- Rolling the TD back gives it the content it had when the record was made. -/
lemma rollbackTd_restores (htd : writer.tdId < p.tdCount) (hpage : page'.tds =
      (p.rollbackTd (page.undoRecordAt writer offset data)).tds) :
    (page'.getTd writer.tdId).xid = (page.getTd writer.tdId).xid ∧
      (page'.getTd writer.tdId).undoRecPtr = (page.getTd writer.tdId).undoRecPtr ∧
      (page'.getTd writer.tdId).csn = (page.getTd writer.tdId).csn ∧
      (page'.getTd writer.tdId).csnStatus = (page.getTd writer.tdId).csnStatus := by
  have hget : page'.getTd writer.tdId =
      (p.getTd writer.tdId).rollbackTdInfo (page.undoRecordAt writer offset data) := by
    rw [getTd, hpage]
    show (p.tds.set writer.tdId _).getD writer.tdId _ = _
    rw [getD_eq_getElem?_getD, getElem?_set_self htd]
    rfl
  rw [hget]
  exact ⟨rfl, rfl, rfl, rfl⟩

lemma isMatchedCtid_undoRecordAt (hlt : offset < 2 ^ 16)
    (hdata : ∀ ranges, data ≠ .heapBatchInsert ranges) (offset' : ℕ) :
    (page.undoRecordAt writer offset data).isMatchedCtid offset' ↔ offset' = offset := by
  rw [UndoRecord.isMatchedCtid_iff hdata, undoRecordAt_offset hlt writer data]

section

variable (hwf : page.HeapWellFormed)
include hwf

/-- The undo of a change of one tuple inverts it. -/
lemma UndoneAt.inverts {s : ℕ} (hv : page.ValidOffset offset)
    (hn : (page.getItemId offset).isNormal) (htd : writer.tdId < p.tdCount)
    (hdata : ∀ ranges, data ≠ .heapBatchInsert ranges)
    (h : UndoneAt page p page' (page.undoRecordAt writer offset data) offset s) :
    UndoInverts page page' (page.undoRecordAt writer offset data) := by
  have hlt : offset < 2 ^ 16 := hwf.layout.offset_lt hv
  have hmatch : ∀ offset', (page.undoRecordAt writer offset data).isMatchedCtid offset' ↔
      offset' = offset := isMatchedCtid_undoRecordAt hlt hdata
  refine ⟨?_, ?_, ?_, rollbackTd_restores htd h.tds_eq⟩
  · intro offset' _ _ hmatched
    rw [(hmatch offset').mp hmatched]
    refine ⟨h.restored.normal, h.restored.data, ?_, h.restored.liveMode_eq, ?_, ?_⟩
    all_goals rw [h.restored.header]
  · intro offset' hmatched hnot
    rw [(hmatch offset').mp hmatched] at hnot
    exact absurd ⟨hv, hn⟩ hnot
  · intro offset' hv' hn' hmatched
    have hne : offset' ≠ offset := fun heq => by
      rw [(hmatch offset').mpr heq] at hmatched
      exact absurd hmatched (by decide)
    exact ⟨by rw [h.frame.item offset' hv' hne]; exact hn',
      h.frame.tupleBytes_eq hwf hv' hne hn'⟩

/-- Taking inserted tuples away inverts inserting them. -/
lemma InsertedAt.inverts {offsets : List ℕ} {page1 page2 : DataPage}
    (htd : writer.tdId < p.tdCount) (hins : InsertedAt page page1 offsets)
    (hitems : p.items = page1.items) (hmem : p.mem = page1.mem)
    (hremoved : RemovedAt p page2 offsets)
    (hmatch : ∀ offset', (page.undoRecordAt writer offset data).isMatchedCtid offset' ↔
      offset' ∈ offsets)
    (hpage : page'.items = page2.items ∧ page'.mem = page2.mem ∧
      page'.tds = (p.rollbackTd (page.undoRecordAt writer offset data)).tds) :
    UndoInverts page page' (page.undoRecordAt writer offset data) := by
  have hframe : TupleFrame page page' (· ∈ offsets) :=
    (hins.frame_of_removed hitems hmem hremoved).trans (TupleFrame.of_eq hpage.1 hpage.2.1)
  refine ⟨?_, ?_, ?_, rollbackTd_restores htd hpage.2.2⟩
  · intro offset' _ hn hmatched
    -- a tuple is not where something was inserted
    exact absurd (hins.unused offset' ((hmatch offset').mp hmatched))
      (ItemId.not_isUnused_of_isNormal hn)
  · intro offset' hmatched _
    have hitem : page'.getItemId offset' = page2.getItemId offset' := by
      rw [getItemId, getItemId, hpage.1]
    rw [hitem]
    exact hremoved.isUnused ((hmatch offset').mp hmatched)
  · intro offset' hv hn hmatched
    have hnot : offset' ∉ offsets := fun hmem' => by
      rw [(hmatch offset').mpr hmem'] at hmatched
      exact absurd hmatched (by decide)
    exact ⟨by rw [hframe.item offset' hv hnot]; exact hn, hframe.tupleBytes_eq hwf hv hnot hn⟩

/-- A single insert is inverted. -/
lemma InsertedAt.undo_single {page1 : DataPage}
    (htd : writer.tdId < p.tdCount) (hins : InsertedAt page page1 [offset])
    (hp : SameSpace page1 p) (hdata : ∀ ranges, data ≠ .heapBatchInsert ranges) :
    UndoInverts page (p.executeUndoForInsert (page.undoRecordAt writer offset data))
      (page.undoRecordAt writer offset data) := by
  obtain ⟨hv, _⟩ := hins.normal offset (mem_singleton.mpr rfl)
  have hlt : offset < 2 ^ 16 := hins.layout.offset_lt hv
  have hremoved : RemovedAt p ([offset].foldl undoInsertAt p) [offset] :=
    foldl_undoInsertAt_removed (fun o ho => by rw [mem_singleton.mp ho]; exact hv.1) p
  refine hins.inverts hwf htd hp.items_eq hp.mem_eq hremoved ?_ ?_
  · intro offset'
    rw [isMatchedCtid_undoRecordAt hlt hdata, mem_singleton]
  · rw [executeUndoForInsert, undoRecordAt_offset hlt writer data]
    exact ⟨rfl, rfl, rfl⟩

/-- Undo of an in-place update, on a page with the tuple it wrote. -/
lemma updateSmallTupleInplace_undone {page1 : DataPage} {record : UndoRecord} {tuple : HeapTuple}
    (hop : page.updateSmallTupleInplace writer offset tuple = some (page1, record))
    (hsame : SameSpace page1 p) :
    ∃ data page2, Rewritten page page1 offset ∧ record = page.undoRecordAt writer offset data ∧
      (∀ ranges, data ≠ .heapBatchInsert ranges) ∧ p.undoHeap record = some page2 ∧
      p.handleErrorWhenGetUndoBuffer record = some page2 ∧
      UndoneInPlace page p page2 record offset (historyStatus (p.getTd record.tdId).xid
        (page.tupleHeader offset).xid (page.tupleHeader offset).tdStatus) := by
  obtain ⟨hrew, rfl, hle, hbytes⟩ := updateSmallTupleInplace_rewritten hwf hop
  have hitem : p.getItemId offset = page.getItemId offset := by
    rw [hsame.getItemId_eq, getItemId, getItemId, hrew.items_eq]
  have hstamped : ∀ i, i < tuple.size → p.mem ((p.getItemId offset).offset + i) =
      tuple.stampedAs writer .newTupleByInplaceUpdate i := fun i hi => by
    rw [hitem, hsame.mem_eq]
    exact hbytes i hi
  have hheader : p.tupleHeader offset =
      header (tuple.stampedAs writer .newTupleByInplaceUpdate) 0 := by
    exact header_of_image hstamped tuple.header_le
  obtain ⟨page2, hundo, hundone⟩ := executeUndoForInplaceUpdate_undone hwf
    (hrew.changedAt hwf hsame) (hwf.ctid_eq hrew.valid _ _) (by rw [hitem])
    tuple.header_le (by rw [hheader]; exact header_stampedAs tuple writer _)
      (by rw [hitem]; exact hle)
    (fun j h1 h2 => (hstamped j h2).trans
      (headerEdit_stampedAs tuple writer _ j (Or.inr (by rwa [Nat.zero_add]))))
  rw [hitem] at hundo
  exact ⟨_, page2, hrew, rfl, by simp, hundo, hundo, hundone⟩

end

end Inverse

end DataPage

open DataPage

/-- Undo inverts do: the undo record of a heap operation, applied to the page with the
operation's entry in the TD, restores the tuples and the TD. -/
theorem undo_inverts_do (page : DataPage) (hwf : page.HeapWellFormed) (writer : HeapWriter)
    (htd : writer.tdId < page.tdCount) (op : HeapOp) (page₁ : DataPage) (record : UndoRecord)
    (hop : op.modify writer page = some (page₁, record)) (undoPtr : UndoRecPtr) :
    ∃ page₂, (page₁.setTd writer.tdId writer.xid undoPtr writer.cid).undoHeap record = some page₂ ∧
      page.UndoInverts page₂ record := by
  set p := page₁.setTd writer.tdId writer.xid undoPtr writer.cid with hp
  have hsame : SameSpace page₁ p := SameSpace.setTd page₁ _ _ _ _
  have hcount : page₁.tds = page.tds → writer.tdId < p.tdCount := fun h => by
    rw [hsame.tdCount_eq, tdCount, h]
    exact htd
  cases op with
  | insert tuple =>
    obtain ⟨offset, hins, rfl⟩ := addNewTuple_inserted hwf.layout hop hwf.heap
    exact ⟨_, rfl, hins.undo_single hwf (hcount hins.tds_eq) hsame (by simp)⟩
  | batchInsert saveFreeSpace tuples =>
    obtain ⟨ranges, hins, rfl⟩ := batchInsertSmallTuples_inserted hwf.heap hwf.layout hop
    have hremoved : RemovedAt p _ (rangeOffsets ranges) :=
      foldl_undoInsertAt_removed (fun o ho => (hins.normal o ho).1.1) p
    exact ⟨_, rfl, hins.inverts hwf (hcount hins.tds_eq) hsame.items_eq hsame.mem_eq hremoved
      (fun _ => mem_rangeOffsets.symm) ⟨rfl, rfl, rollbackTd_tds_congr hremoved.tds_eq _⟩⟩
  | delete offset =>
    obtain ⟨⟨hrew, -⟩, rfl⟩ := deleteDiskTuple_rewritten hwf hop
    exact ⟨_, rfl, (executeUndoForDelete_undone hwf (hrew.changedAt hwf hsame)
      (hwf.ctid_eq hrew.valid _ _)).inverts hwf hrew.valid hrew.normal (hcount hrew.tds_eq)
        (by simp)⟩
  | inplaceUpdate offset tuple =>
    obtain ⟨data, page₂, hrew, rfl, hdata, hundo, _, hundone⟩ :=
      updateSmallTupleInplace_undone hwf hop hsame
    exact ⟨page₂, hundo, hundone.toUndoneAt.inverts hwf hrew.valid hrew.normal (hcount hrew.tds_eq)
      hdata⟩
  | samePageUpdate offset tuple =>
    obtain ⟨hmoved, rfl, _⟩ := updateSmallTupleSamePage_moved hwf hop
    obtain ⟨page₂, hundo, hundone⟩ := executeUndoForSamePageAppendUpdate_undone hwf
      (hmoved.changedAt hwf hsame) (hwf.ctid_eq hmoved.valid _ _)
    exact ⟨page₂, hundo, hundone.inverts hwf hmoved.valid hmoved.normal (hcount hmoved.tds_eq)
      (by simp)⟩
  | anotherPageUpdateOldPage offset newCtid =>
    obtain ⟨⟨hrew, -⟩, rfl⟩ := updateSmallTupleOldPage_rewritten hwf hop
    obtain ⟨page₂, hundo, hundone⟩ := executeUndoForOldPageAppendUpdate_undone hwf
      (hrew.changedAt hwf hsame) (hwf.ctid_eq hrew.valid _ _)
    exact ⟨page₂, hundo, hundone.inverts hwf hrew.valid hrew.normal (hcount hrew.tds_eq) (by simp)⟩
  | anotherPageUpdateNewPage tuple =>
    obtain ⟨offset, hins, rfl⟩ := addNewTuple_inserted hwf.layout hop hwf.heap
    exact ⟨_, rfl, hins.undo_single hwf (hcount hins.tds_eq) hsame (by simp)⟩

/-- A page with one tuple of 32 bytes, at offset 1. -/
def singleTuplePage (tds : List TD) (header : HeapTupleHeader) : DataPage where
  type := .heap
  selfPageId := ⟨1, 1⟩
  upper := 8160
  special := 8192
  hasFreeItemId := false
  hasPrunableTuple := false
  hasPrunableItem := false
  tds := tds
  items := [⟨.normal, 8160, 32⟩]
  mem := setInfo (setXid (setTupleSize
    (setLockerTdId (setTdId (fun _ => 0) 8160 header.tdId)
    8160 header.lockerTdId) 8160 header.size) 8160 header.xid) 8160 header.info
  potentialDelSize := 0
  recentDeadTupleMinCsn := 0

/-- A transaction deletes the tuple of another one on its own TD and rolls back. -/
theorem undo_inverts_delete :
    ∃ page₁ record page₂,
      (HeapOp.delete 1).modify ⟨1, 7, 3⟩
        (singleTuplePage [TD.reset, TD.reset] ⟨0, 0xFF, 32, 5, 0x20⟩) = some (page₁, record) ∧
      (page₁.setTd 1 7 ⟨⟨2, 2⟩, 2⟩ 3).undoHeap record = some page₂ ∧
      (singleTuplePage [TD.reset, TD.reset] ⟨0, 0xFF, 32, 5, 0x20⟩).UndoInverts page₂ record := by
  obtain ⟨page₂, hundo, hinverts⟩ := undo_inverts_do
    (singleTuplePage [TD.reset, TD.reset] ⟨0, 0xFF, 32, 5, 0x20⟩) (by decide) ⟨1, 7, 3⟩ (by decide)
    (.delete 1) _ _ rfl ⟨⟨2, 2⟩, 2⟩
  exact ⟨_, _, page₂, rfl, hundo, hinverts⟩

end DStore
