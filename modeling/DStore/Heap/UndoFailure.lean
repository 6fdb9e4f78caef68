import DStore.Heap.UndoInverse

/-!
# Failing to store the undo record

When the undo record of an operation cannot be stored, `HandleErrorWhenGetUndoBuffer` takes
the change of the page back. Inserts are taken back exactly. Deletes and updates are taken
back by the general undo, which drops the locker of the tuple and may set another td status.
An update to a new place on the same page is never taken back correctly: the space of the
new tuple is returned to the free space, and the undo then keeps the old tuple there.
-/

namespace DStore

open TupleTdStatus TD

variable {page₁ : DataPage}

namespace DataPage

/-- The bytes of every tuple lie in `[upper, special)` and no two tuples overlap. -/
structure ItemsPlaced (page : DataPage) : Prop where
  bounds : ∀ offset, page.ValidOffset offset → (page.getItemId offset).isNormal = true →
    page.upper ≤ (page.getItemId offset).offset ∧
      (page.getItemId offset).offset + (page.getItemId offset).len ≤ page.special
  apart : ∀ offset offset', page.ValidOffset offset → page.ValidOffset offset' → offset ≠ offset' →
    (page.getItemId offset).isNormal = true → (page.getItemId offset').isNormal = true →
    (page.getItemId offset).Apart (page.getItemId offset')

/-- Every tuple of `page` reads back from `page'` with its old bytes. -/
def TuplesKept (page page' : DataPage) : Prop :=
  ∀ offset, page.ValidOffset offset → (page.getItemId offset).isNormal = true →
    (page'.getItemId offset).isNormal = true ∧ page'.tupleBytes offset = page.tupleBytes offset

/-- Every tuple of `page` reads back from `page'` with its old data. -/
def DataKept (page page' : DataPage) : Prop :=
  ∀ offset, page.ValidOffset offset → (page.getItemId offset).isNormal = true →
    (page'.getItemId offset).isNormal = true ∧ page'.tupleData offset = page.tupleData offset

section Placed

variable {page page' p : DataPage} {offset size : ℕ} {record : UndoRecord}

/-- A page with the normal items of a page with layout has them well placed. -/
lemma ItemsPlaced.of_layout (h : page.Layout) (hupper : page'.upper = page.upper)
    (hspecial : page'.special = page.special)
    (hitem : ∀ offset, page'.ValidOffset offset → (page'.getItemId offset).isNormal →
      page.ValidOffset offset ∧ page'.getItemId offset = page.getItemId offset) :
    page'.ItemsPlaced := by
  refine ⟨?_, ?_⟩
  · intro offset hv hn
    obtain ⟨hv', heq⟩ := hitem offset hv hn
    rw [heq] at hn
    rw [heq, hupper, hspecial]
    exact ⟨h.item_ge offset hv' (isStored_of_isNormal hn),
      h.item_le offset hv' (isStored_of_isNormal hn)⟩
  · intro offset1 offset2 hv1 hv2 hne hn1 hn2
    obtain ⟨hv1', heq1⟩ := hitem offset1 hv1 hn1
    obtain ⟨hv2', heq2⟩ := hitem offset2 hv2 hn2
    rw [heq1] at hn1 ⊢
    rw [heq2] at hn2 ⊢
    exact h.apart offset1 offset2 hv1' hv2' hne (isStored_of_isNormal hn1)
      (isStored_of_isNormal hn2)

/-- The data of a tuple are its bytes behind the header. -/
lemma tupleData_eq_drop (page : DataPage) (offset : ℕ) :
    page.tupleData offset = (page.tupleBytes offset).drop heapDiskTupHeaderSize := by
  rw [tupleData, tupleBytes, HeapDiskTuple.data, ByteMem.load, ByteMem.load]
  apply List.ext_getElem
  · simp [tupleHeader, HeapDiskTuple.header]
  · intro i _ _
    simp [Nat.add_assoc]

/-- All bytes include the data. -/
lemma TuplesKept.dataKept (h : page.TuplesKept page') : page.DataKept page' := by
  intro offset hv hn
  obtain ⟨hn', hbytes⟩ := h offset hv hn
  exact ⟨hn', by rw [tupleData_eq_drop, tupleData_eq_drop, hbytes]⟩

/-- The tuple comes back in its old item with its data. The old bytes are there exactly when it
had no locker and keeps its td status. -/
lemma UndoneInPlace.kept_iff {s : ℕ} (hwf : page.HeapWellFormed)
    (hrew : Rewritten page page₁ offset) (h : UndoneInPlace page page₁ page' record offset s)
    (hs : s < 4) :
    (page'.ItemsPlaced ∧ page.TuplesKept page' ↔
      (page.tupleHeader offset).lockerTdId = invalidTdSlot ∧
        (page.tupleHeader offset).tdStatus = s) ∧
    page'.ItemsPlaced ∧ page.DataKept page' := by
  have hsize := hwf.header_le_size offset hrew.valid hrew.normal
  have hitem : ∀ offset, page'.getItemId offset = page.getItemId offset := fun offset => by
    rw [getItemId, getItemId, h.items_eq, hrew.items_eq]
  have hothers : ∀ offset', page.ValidOffset offset' → offset' ≠ offset →
      (page.getItemId offset').isNormal →
      page'.tupleBytes offset' = page.tupleBytes offset' := fun offset' hv hne hn =>
    h.frame.tupleBytes_eq hwf hv hne hn
  have hplaced : page'.ItemsPlaced := by
    refine ItemsPlaced.of_layout hwf.layout (h.upper_eq.trans hrew.upper_eq)
      (h.special_eq.trans hrew.special_eq) fun offset hv _ => ⟨?_, hitem offset⟩
    rwa [ValidOffset, getMaxOffset, h.items_eq, hrew.items_eq] at hv
  rw [← h.restored.tupleBytes_eq_iff hsize hs]
  refine ⟨⟨?_, ?_⟩, hplaced, ?_⟩
  · rintro ⟨_, hkept⟩
    exact (hkept offset hrew.valid hrew.normal).2
  · intro hbytes
    refine ⟨hplaced, fun offset' hv hn => ⟨by rw [hitem]; exact hn, ?_⟩⟩
    by_cases hoff : offset' = offset
    · rw [hoff]
      exact hbytes
    · exact hothers offset' hv hoff hn
  · intro offset' hv hn
    refine ⟨by rw [hitem]; exact hn, ?_⟩
    by_cases hoff : offset' = offset
    · rw [hoff]
      exact h.restored.data
    · rw [tupleData_eq_drop, tupleData_eq_drop, hothers offset' hv hoff hn]

/-- The error path raises `upper` by the lengths of the items. -/
lemma foldl_reclaimUpper (offsets : List ℕ) (page : DataPage) :
    offsets.foldl reclaimUpper page = page.setUpper (page.upper + page.totalLen offsets) := by
  induction offsets generalizing page with
  | nil => rfl
  | cons offset offsets ih =>
    rw [List.foldl_cons, ih]
    show page.setUpper (page.upper + (page.getItemId offset).len +
      (page.setUpper _).totalLen offsets) = _
    rw [Nat.add_assoc]
    rfl

/-- Inserts are taken back exactly. -/
lemma InsertedAt.takenBack {page₁ page2 : DataPage} {offsets : List ℕ} (hwf : page.HeapWellFormed)
    (hins : InsertedAt page page₁ offsets)
    (hremoved : RemovedAt (offsets.foldl reclaimUpper page₁) page2 offsets)
    (hitems : page'.items = page2.items) (hmem : page'.mem = page2.mem)
    (hupper : page'.upper = page2.upper) (hspecial : page'.special = page2.special) :
    page'.ItemsPlaced ∧ page.TuplesKept page' := by
  rw [foldl_reclaimUpper] at hremoved
  have hframe : TupleFrame page page' (· ∈ offsets) :=
    (hins.frame_of_removed (p := page₁.setUpper (page₁.upper + page₁.totalLen offsets)) rfl rfl
      hremoved).trans (TupleFrame.of_eq hitems hmem)
  have hitem : ∀ offset, page'.getItemId offset = page2.getItemId offset := fun offset => by
    rw [getItemId, getItemId, hitems]
  have hnot : ∀ offset, (page'.getItemId offset).isNormal → offset ∉ offsets := by
    intro offset hn hmem'
    rw [hitem] at hn
    exact ItemId.not_isUnused_of_isNormal hn (hremoved.isUnused hmem')
  constructor
  · refine ItemsPlaced.of_layout hwf.layout ?_ ?_ ?_
    · rw [hupper, hremoved.upper_eq]
      exact hins.upper_eq
    · rw [hspecial, hremoved.special_eq]
      exact hins.special_eq
    · intro offset hv hn
      have hv1 : page₁.ValidOffset offset := by
        refine ⟨hv.1, ?_⟩
        have hmax : page'.getMaxOffset = page₁.getMaxOffset := by
          rw [getMaxOffset, hitems]
          exact hremoved.getMaxOffset_eq
        rw [← hmax]
        exact hv.2
      have hv' : page.ValidOffset offset :=
        (hins.valid_or offset hv1).resolve_right (hnot offset hn)
      exact ⟨hv', hframe.item offset hv' (hnot offset hn)⟩
  · intro offset hv hn
    have hfresh : offset ∉ offsets := fun hmem' =>
      ItemId.not_isUnused_of_isNormal hn (hins.unused offset hmem')
    exact ⟨by rw [hframe.item offset hv hfresh]; exact hn, hframe.tupleBytes_eq hwf hv hfresh hn⟩

lemma InsertedAt.ctid_eq (hins : InsertedAt page page₁ [offset])
    (writer : HeapWriter) (data : UndoData) :
    (page.undoRecordAt writer offset data).ctid.offset.toNat = offset :=
  undoRecordAt_offset (hins.layout.offset_lt (hins.normal offset (List.mem_singleton.mpr rfl)).1)
    writer data

/-- A single insert is taken back whole. -/
lemma InsertedAt.takenBack_single (hwf : page.HeapWellFormed)
    (hins : InsertedAt page page₁ [offset]) (hctid : record.ctid.offset.toNat = offset) :
    ((page₁.reclaimUpper record.ctid.offset.toNat).executeUndoForInsert record).ItemsPlaced ∧
      page.TuplesKept
        ((page₁.reclaimUpper record.ctid.offset.toNat).executeUndoForInsert record) := by
  have hpos := (hins.normal offset (List.mem_singleton.mpr rfl)).1.1
  have hremoved : RemovedAt ([offset].foldl reclaimUpper page₁)
      ([offset].foldl undoInsertAt (page₁.reclaimUpper offset)) [offset] :=
    foldl_undoInsertAt_removed (fun o ho => by rw [List.mem_singleton.mp ho]; exact hpos) _
  rw [executeUndoForInsert, hctid]
  exact hins.takenBack hwf hremoved rfl rfl rfl rfl

/-- The undo of an update to a new place leaves the tuple at the new place. -/
lemma executeUndoForSamePageAppendUpdate_item {tuple : List UInt8}
    (hctid : record.ctid.offset.toNat = offset) (hv : p.ValidOffset offset)
    (hlen : tuple.length ≤ (p.getItemId offset).len) :
    ∃ page', p.executeUndoForSamePageAppendUpdate record tuple = some page' ∧
      page'.getMaxOffset = p.getMaxOffset ∧ page'.upper = p.upper ∧
      page'.getItemId offset = (p.getItemId offset).setLen tuple.length := by
  rw [executeUndoForSamePageAppendUpdate_eq hctid, if_pos hlen]
  set shrunk := DataPage.putItemId _ offset ((p.getItemId offset).setLen tuple.length)
    with hshrunk
  obtain ⟨mem, hmark, _⟩ := shrunk.markHistory_status (p.getTd record.tdId).xid offset
  exact ⟨shrunk.withMem mem, congrArg some hmark, putItemId_getMaxOffset _ _, rfl,
    getItemId_putItemId_self hv _⟩

/-- A moved tuple takes space. -/
lemma Moved.not_le_upper_sub (h : Moved page page₁ offset size) :
    ¬ page.upper ≤ page.upper - size := by
  have hsize := h.size_le
  have hheader := h.header_le
  unfold heapDiskTupHeaderSize at hheader
  omega

/-- After a failed update to a new place on the same page, `upper` is as before and the tuple
starts `size` bytes below it. -/
lemma Moved.undone_below_upper (hwf : page.HeapWellFormed) (hmoved : Moved page page₁ offset size)
    (hctid : record.ctid.offset.toNat = offset)
    (hdata : record.data = .heapSamePageAppendUpdate (page.undoImage offset)) :
    ∃ page', page₁.handleErrorWhenGetUndoBuffer record = some page' ∧ page'.ValidOffset offset ∧
      page'.upper = page.upper ∧
      page'.getItemId offset = ⟨.normal, page.upper - size, (page.tupleHeader offset).size⟩ := by
  have hlen : (page.tupleHeader offset).size ≤ size :=
    (hwf.size_le_len offset hmoved.valid hmoved.normal).trans hmoved.len_lt.le
  have hv : page₁.ValidOffset offset := hmoved.valid.mono hmoved.frame.getMaxOffset_le
  obtain ⟨page', hundo, hmax, hupper, hitem⟩ :=
    executeUndoForSamePageAppendUpdate_item (p := page₁.reclaimUpper offset) hctid hv (by
      show (page.undoImage offset).length ≤ (page₁.getItemId offset).len
      rw [hmoved.item, length_undoImage]
      exact hlen)
  refine ⟨page', ?_, ⟨hv.1, hmax ▸ hv.2⟩, hupper.trans ?_, hitem.trans ?_⟩
  · rw [handleErrorWhenGetUndoBuffer, hdata]
    show (page₁.reclaimUpper record.ctid.offset.toNat).undoHeap record = _
    rw [hctid, undoHeap, hdata]
    exact hundo
  · show page₁.upper + (page₁.getItemId offset).len = _
    rw [hmoved.upper_eq, hmoved.item]
    exact Nat.sub_add_cancel hmoved.size_le
  · show (page₁.getItemId offset).setLen _ = _
    rw [hmoved.item, length_undoImage]
    rfl

end Placed

end DataPage

/-- When a failed operation leaves the page as it was: always for inserts, never for an update
to a new place on the same page. The other operations lose the locker of the tuple, and its td
status becomes the one undo gives it. -/
def HeapOp.TakenBackExactly (op : HeapOp) (writer : HeapWriter) (page : DataPage) : Prop :=
  let curXid := (page.getTd writer.tdId).xid
  match op with
  | insert _ | batchInsert _ _ | anotherPageUpdateNewPage _ => True
  | samePageUpdate _ _ => False
  | delete offset =>
    let tuple := page.tupleHeader offset
    tuple.lockerTdId = invalidTdSlot ∧
      (page.isTdValidAndOccupied tuple.tdId = false →
        tuple.tdStatus = detachTd.code) ∧
      (page.isTdValidAndOccupied tuple.tdId = true → tuple.xid ≠ curXid →
        tuple.tdStatus = attachTdAsHistoryOwner.code)
  | inplaceUpdate offset _ =>
    let tuple := page.tupleHeader offset
    tuple.lockerTdId = invalidTdSlot ∧
      (tuple.tdStatus ≠ detachTd.code → tuple.xid ≠ curXid →
        tuple.tdStatus = attachTdAsHistoryOwner.code)
  | anotherPageUpdateOldPage offset _ =>
    let tuple := page.tupleHeader offset
    tuple.lockerTdId = invalidTdSlot ∧
      (page.isTdValidAndOccupied tuple.tdId = false →
        tuple.tdStatus = detachTd.code) ∧
      (page.isTdValidAndOccupied tuple.tdId = true →
        tuple.tdStatus ≠ detachTd.code → tuple.xid ≠ curXid →
        tuple.tdStatus = attachTdAsHistoryOwner.code)

namespace DataPage

section Status

lemma undoDeleteStatus_congr {page p : DataPage} (htds : p.tds = page.tds) (record : UndoRecord)
    (h : HeapTupleHeader) : p.undoDeleteStatus record h = page.undoDeleteStatus record h := by
  have hget : p.getTd record.tdId = page.getTd record.tdId := by rw [getTd, getTd, htds]
  rw [undoDeleteStatus, undoDeleteStatus, isTdValidAndOccupied_congr htds, hget]

lemma detachStatus_congr {page p : DataPage} (htds : p.tds = page.tds) (h : HeapTupleHeader) :
    p.detachStatus h = page.detachStatus h := by
  rw [detachStatus, detachStatus, isTdValidAndOccupied_congr htds]

variable (page : DataPage) (record : UndoRecord) (h : HeapTupleHeader)

/-- When the undo of a delete sets the td status the tuple had. -/
lemma tdStatus_eq_undoDeleteStatus_iff :
    h.tdStatus = page.undoDeleteStatus record h ↔
      (page.isTdValidAndOccupied h.tdId = false → h.tdStatus = detachTd.code) ∧
      (page.isTdValidAndOccupied h.tdId → h.xid ≠ (page.getTd record.tdId).xid →
        h.tdStatus = attachTdAsHistoryOwner.code) := by
  rw [undoDeleteStatus]
  cases hocc : page.isTdValidAndOccupied h.tdId with
  | false => simp
  | true =>
    by_cases hxid : h.xid = (page.getTd record.tdId).xid
    · simp [hxid]
    · simp [hxid, Ne.symm hxid]

/-- When the last step leaves the td status the tuple had. -/
lemma tdStatus_eq_historyStatus_iff (curXid : Xid) :
    h.tdStatus = historyStatus curXid h.xid h.tdStatus ↔
      (h.tdStatus ≠ detachTd.code → h.xid ≠ curXid →
        h.tdStatus = attachTdAsHistoryOwner.code) := by
  rw [historyStatus]
  by_cases hmark : h.tdStatus ≠ detachTd.code ∧ h.xid ≠ curXid
  · rw [if_pos hmark]
    exact ⟨fun heq _ _ => heq, fun himp => himp hmark.1 hmark.2⟩
  · rw [if_neg hmark]
    exact ⟨fun _ h1 h2 => absurd ⟨h1, h2⟩ hmark, fun _ => rfl⟩

/-- When the undo of the old-page half of an update sets the td status the tuple had. -/
lemma tdStatus_eq_detach_historyStatus_iff (curXid : Xid) :
    h.tdStatus = historyStatus curXid h.xid (page.detachStatus h) ↔
      (page.isTdValidAndOccupied h.tdId = false → h.tdStatus = detachTd.code) ∧
      (page.isTdValidAndOccupied h.tdId → h.tdStatus ≠ detachTd.code →
        h.xid ≠ curXid → h.tdStatus = attachTdAsHistoryOwner.code) := by
  rw [detachStatus]
  cases hocc : page.isTdValidAndOccupied h.tdId with
  | false => simp [historyStatus]
  | true => simpa using tdStatus_eq_historyStatus_iff h curXid

end Status

end DataPage

open DataPage

/-- A failed same-page update leaves its item below `upper`. -/
lemma samePageUpdate_not_placed {page : DataPage} (hwf : page.HeapWellFormed) {writer : HeapWriter}
    {offset : ℕ} {tuple : HeapTuple} {record : UndoRecord}
    (hop : (HeapOp.samePageUpdate offset tuple).modify writer page = some (page₁, record)) :
    ∃ page2, page₁.handleErrorWhenGetUndoBuffer record = some page2 ∧ page2.upper = page.upper ∧
      page2.getItemId offset = ⟨.normal, page.upper - tuple.size, (page.tupleHeader offset).size⟩ ∧
      ¬ page2.ItemsPlaced := by
  obtain ⟨hmoved, hrecord, _⟩ := updateSmallTupleSamePage_moved hwf hop
  have hctid : record.ctid.offset.toNat = offset := by
    rw [hrecord]
    exact hwf.ctid_eq hmoved.valid writer _
  obtain ⟨page2, hundo, hv, hupper, hitem⟩ :=
    hmoved.undone_below_upper hwf hctid (by rw [hrecord]; rfl)
  refine ⟨page2, hundo, hupper, hitem, fun hplaced => ?_⟩
  have hbound := (hplaced.bounds offset hv (by rw [hitem]; rfl)).1
  rw [hupper, hitem] at hbound
  exact hmoved.not_le_upper_sub hbound

/-- What a heap operation leaves after its undo record could not be stored: the layout and all
bytes are as before exactly under `TakenBackExactly`, and the layout and all data are as before
exactly when the operation is not an update to a new place on the same page. -/
theorem undo_failure_taken_back_iff (page : DataPage) (hwf : page.HeapWellFormed)
    (writer : HeapWriter) (op : HeapOp) (page₁ : DataPage) (record : UndoRecord)
    (hop : op.modify writer page = some (page₁, record)) :
    ∃ page₂, page₁.handleErrorWhenGetUndoBuffer record = some page₂ ∧
      (page₂.ItemsPlaced ∧ page.TuplesKept page₂ ↔ op.TakenBackExactly writer page) ∧
      (page₂.ItemsPlaced ∧ page.DataKept page₂ ↔
        ∀ offset tuple, op ≠ .samePageUpdate offset tuple) := by
  cases op with
  | insert tuple =>
    obtain ⟨offset, hins, rfl⟩ := addNewTuple_inserted hwf.layout hop hwf.heap
    have htaken := hins.takenBack_single hwf (hins.ctid_eq writer .heapInsert)
    exact ⟨_, rfl, iff_of_true htaken trivial, iff_of_true ⟨htaken.1, htaken.2.dataKept⟩ (by simp)⟩
  | batchInsert saveFreeSpace tuples =>
    obtain ⟨ranges, hins, rfl⟩ := batchInsertSmallTuples_inserted hwf.heap hwf.layout hop
    have htaken : _ ∧ page.TuplesKept (((rangeOffsets ranges).foldl reclaimUpper
        page₁).executeUndoForBatchInsert (page.undoRecordAt writer invalidItemOffsetNumber
          (.heapBatchInsert ranges)) ranges) := hins.takenBack hwf
      (foldl_undoInsertAt_removed (fun o ho => (hins.normal o ho).1.1) _) rfl rfl rfl rfl
    exact ⟨_, rfl, iff_of_true htaken trivial, iff_of_true ⟨htaken.1, htaken.2.dataKept⟩ (by simp)⟩
  | delete offset =>
    obtain ⟨⟨hrew, -⟩, rfl⟩ := deleteDiskTuple_rewritten hwf hop
    have hundone := executeUndoForDelete_undone hwf (hrew.changedAt hwf (SameSpace.refl _))
      (hwf.ctid_eq hrew.valid writer (.heapDelete (page.undoImage offset)))
    obtain ⟨hkept, hdata⟩ := hundone.kept_iff hwf hrew (undoDeleteStatus_lt _ _ _)
    refine ⟨_, rfl, hkept.trans ?_, iff_of_true hdata (by simp)⟩
    rw [undoDeleteStatus_congr hrew.tds_eq, tdStatus_eq_undoDeleteStatus_iff]
    rfl
  | inplaceUpdate offset tuple =>
    obtain ⟨data, page₂, hrew, rfl, _, _, hundo, hundone⟩ :=
      updateSmallTupleInplace_undone hwf hop (SameSpace.refl _)
    obtain ⟨hkept, hdata⟩ := hundone.kept_iff hwf hrew
      (historyStatus_lt (HeapDiskTuple.tdStatus_lt _))
    refine ⟨page₂, hundo, hkept.trans ?_, iff_of_true hdata (by simp)⟩
    rw [tdStatus_eq_historyStatus_iff, getTd, hrew.tds_eq]
    rfl
  | samePageUpdate offset tuple =>
    -- the space of the new version is given back while the item still points into it
    obtain ⟨page₂, hundo, _, _, hnot⟩ := samePageUpdate_not_placed hwf hop
    refine ⟨page₂, hundo, iff_of_false (fun h => hnot h.1) id, iff_of_false (fun h => hnot h.1) ?_⟩
    exact fun h => h offset tuple rfl
  | anotherPageUpdateOldPage offset newCtid =>
    obtain ⟨⟨hrew, -⟩, rfl⟩ := updateSmallTupleOldPage_rewritten hwf hop
    obtain ⟨page₂, hundo, hundone⟩ := executeUndoForOldPageAppendUpdate_undone hwf
      (hrew.changedAt hwf (SameSpace.refl _)) (hwf.ctid_eq hrew.valid writer
        (.heapAnotherPageAppendUpdateOldPage newCtid (page.undoImage offset)))
    obtain ⟨hkept, hdata⟩ := hundone.kept_iff hwf hrew (historyStatus_lt (detachStatus_lt _ _))
    refine ⟨page₂, hundo, hkept.trans ?_, iff_of_true hdata (by simp)⟩
    rw [detachStatus_congr hrew.tds_eq, tdStatus_eq_detach_historyStatus_iff, getTd, hrew.tds_eq]
    rfl
  | anotherPageUpdateNewPage tuple =>
    obtain ⟨offset, hins, rfl⟩ := addNewTuple_inserted hwf.layout hop hwf.heap
    have htaken := hins.takenBack_single hwf
      (hins.ctid_eq writer .heapAnotherPageAppendUpdateNewPage)
    exact ⟨_, rfl, iff_of_true htaken trivial, iff_of_true ⟨htaken.1, htaken.2.dataKept⟩ (by simp)⟩

/-- A delete of a detached tuple without locker is taken back exactly. -/
theorem undo_failure_delete_taken_back :
    ∃ page₁ record page₂,
      (HeapOp.delete 1).modify ⟨1, 7, 3⟩
        (singleTuplePage [TD.reset, TD.reset] ⟨0, 0xFF, 32, 5, 0x20⟩) = some (page₁, record) ∧
      page₁.handleErrorWhenGetUndoBuffer record = some page₂ ∧ page₂.ItemsPlaced ∧
      (singleTuplePage [TD.reset, TD.reset] ⟨0, 0xFF, 32, 5, 0x20⟩).TuplesKept page₂ := by
  obtain ⟨page₂, hundo, hkept, _⟩ := undo_failure_taken_back_iff
    (singleTuplePage [reset, reset] ⟨0, 0xFF, 32, 5, 0x20⟩) (by decide) ⟨1, 7, 3⟩
    (.delete 1) _ _ rfl
  exact ⟨_, _, page₂, rfl, hundo, hkept.mpr ⟨by decide, by decide, by decide⟩⟩

/-- A tuple of 48 zero bytes. -/
def longerTuple : HeapTuple where
  size := 48
  diskTuple := fun _ => 0
  header_le := by decide
  size_le := by decide

/-- A failed update of a tuple of 32 bytes to 48 bytes on the same page leaves the tuple at
8112, below `upper` at 8160: the next insert overwrites it. -/
theorem undo_failure_samePageUpdate_below_upper :
    (singleTuplePage [TD.reset, TD.reset] ⟨0, 0xFF, 32, 5, 0x20⟩).HeapWellFormed ∧
    ∃ page₁ record page₂,
      (HeapOp.samePageUpdate 1 longerTuple).modify ⟨1, 7, 3⟩
        (singleTuplePage [TD.reset, TD.reset] ⟨0, 0xFF, 32, 5, 0x20⟩) = some (page₁, record) ∧
      page₁.handleErrorWhenGetUndoBuffer record = some page₂ ∧
      page₂.upper = 8160 ∧ page₂.getItemId 1 = ⟨.normal, 8112, 32⟩ ∧ ¬ page₂.ItemsPlaced := by
  have hwf : (singleTuplePage [reset, reset] ⟨0, 0xFF, 32, 5, 0x20⟩).HeapWellFormed := by
    decide
  obtain ⟨⟨page₁, record⟩, hop⟩ := Option.isSome_iff_exists.mp (show ((HeapOp.samePageUpdate 1
    longerTuple).modify ⟨1, 7, 3⟩ (singleTuplePage [reset, reset]
      ⟨0, 0xFF, 32, 5, 0x20⟩)).isSome = true by decide)
  obtain ⟨page₂, hundo, hupper, hitem, hnot⟩ := samePageUpdate_not_placed hwf hop
  exact ⟨hwf, page₁, record, page₂, hop, hundo, hupper, hitem.trans (by decide), hnot⟩

end DStore
