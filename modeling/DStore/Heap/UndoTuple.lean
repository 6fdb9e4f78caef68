import DStore.Heap.InsertRun

/-!
# Bringing one tuple back

Deletes and updates are undone from an image or from diff sections. Whatever the way, the
tuple that comes back is the old one without its locker, and with a td status that depends
on the TDs of the page at that time.
-/

namespace DStore

open HeapDiskTuple HeapTupleHeader ByteMem BitField TupleTdStatus StatusEdit

namespace DataPage

/-- The tuple at `offset` of `page` is back on `page'`, without its locker and with td
status `s`. -/
structure RestoredTuple (page page' : DataPage) (offset s : ℕ) : Prop where
  normal : (page'.getItemId offset).isNormal = true
  header : page'.tupleHeader offset =
    { page.tupleHeader offset with
      lockerTdId := invalidTdSlot
      info := set 4 2 s (page.tupleHeader offset).info }
  data : page'.tupleData offset = page.tupleData offset

section Restored

variable {page page' : DataPage} {offset s : ℕ}

/-- The live mode comes back with the old tuple. -/
lemma RestoredTuple.liveMode_eq (h : RestoredTuple page page' offset s) :
    (page'.tupleHeader offset).liveMode = (page.tupleHeader offset).liveMode := by
  rw [liveMode, h.header]
  exact get_set_of_disjoint (by decide) _ _

/-- A tuple is its header and its data. -/
lemma tupleBytes_eq_iff (hsize : heapDiskTupHeaderSize ≤ (page.tupleHeader offset).size) :
    page'.tupleBytes offset = page.tupleBytes offset ↔
      page'.tupleHeader offset = page.tupleHeader offset ∧
        page'.tupleData offset = page.tupleData offset := by
  constructor
  · intro h
    have hlen : (page'.tupleHeader offset).size = (page.tupleHeader offset).size := by
      have := congrArg List.length h
      rwa [tupleBytes, tupleBytes, length_load, length_load] at this
    rw [tupleBytes, tupleBytes, hlen] at h
    have hparts := (load_eq_iff_header hsize).mp h
    refine ⟨hparts.1, ?_⟩
    rw [tupleData, tupleData, data, data]
    have hlen' : getTupleSize page'.mem (page'.getItemId offset).offset =
      getTupleSize page.mem (page.getItemId offset).offset := hlen
    rw [hlen']
    exact hparts.2
  · rintro ⟨hheader, hdata⟩
    rw [tupleBytes, tupleBytes, hheader]
    refine (load_eq_iff_header hsize).mpr ⟨hheader, ?_⟩
    have hlen : getTupleSize page'.mem (page'.getItemId offset).offset =
      getTupleSize page.mem (page.getItemId offset).offset :=
      congrArg size hheader
    rw [tupleData, tupleData, data, data, hlen] at hdata
    exact hdata

/-- All bytes are back exactly if the tuple had no locker and has its td status. -/
lemma RestoredTuple.tupleBytes_eq_iff (h : RestoredTuple page page' offset s)
    (hsize : heapDiskTupHeaderSize ≤ (page.tupleHeader offset).size) (hs : s < 4) :
    page'.tupleBytes offset = page.tupleBytes offset ↔
      (page.tupleHeader offset).lockerTdId = invalidTdSlot ∧
        (page.tupleHeader offset).tdStatus = s := by
  rw [DataPage.tupleBytes_eq_iff hsize, h.header]
  constructor
  · rintro ⟨heq, _⟩
    have hlocker := congrArg lockerTdId heq
    have hstatus := congrArg tdStatus heq
    refine ⟨hlocker.symm, ?_⟩
    rw [← hstatus, tdStatus, get_set_self]
    exact Nat.mod_eq_of_lt hs
  · rintro ⟨hlocker, hstatus⟩
    refine ⟨?_, h.data⟩
    rw [← hlocker, ← hstatus, tdStatus, set_get_self]

end Restored

/-! ## Images in undo records -/

section Image

variable {page page' : DataPage} {offset s : ℕ}

/-- The image in the undo record is the tuple without its locker. -/
lemma header_undoImage (hsize : heapDiskTupHeaderSize ≤ (page.tupleHeader offset).size) :
    header (ofBytes (page.undoImage offset)) 0 =
      { page.tupleHeader offset with lockerTdId := invalidTdSlot } := by
  have hunlocked : header (page.unlockTuple offset) (page.getItemId offset).offset =
      { page.tupleHeader offset with lockerTdId := invalidTdSlot } :=
    header_setLockerTdId _ _ _
  rw [← hunlocked]
  apply header_congr
  intro i hi
  rw [Nat.zero_add]
  exact ofBytes_load (by omega)

lemma length_undoImage : (page.undoImage offset).length = (page.tupleHeader offset).size :=
  length_load _ _ _

/-- An image with another td status, copied to a normal item of `page'`, is the old tuple
restored. -/
lemma restoredTuple_of_image {image : ByteMem}
    (hsize : heapDiskTupHeaderSize ≤ (page.tupleHeader offset).size)
    (hedit : StatusEdit 0 (ofBytes (page.undoImage offset)) image s)
    (hnormal : (page'.getItemId offset).isNormal)
    (hbytes : ∀ i, i < (page.tupleHeader offset).size →
      page'.mem ((page'.getItemId offset).offset + i) = image i) :
    RestoredTuple page page' offset s := by
  have hheader : page'.tupleHeader offset =
      { page.tupleHeader offset with
        lockerTdId := invalidTdSlot
        info := set 4 2 s (page.tupleHeader offset).info } := by
    calc page'.tupleHeader offset = header image 0 := header_of_image hbytes hsize
      _ = _ := by rw [hedit.header_eq, header_undoImage hsize]
  refine ⟨hnormal, hheader, ?_⟩
  have hlen : getTupleSize page'.mem (page'.getItemId offset).offset =
      (page.tupleHeader offset).size := congrArg size hheader
  rw [tupleData, tupleData, data, data, hlen]
  apply load_congr
  intro i hi
  have hi' : heapDiskTupHeaderSize + i < (page.tupleHeader offset).size := by omega
  rw [Nat.add_assoc, hbytes _ hi', hedit.edit _ (Or.inr (by omega)), undoImage, ofBytes_load hi',
    unlockTuple, headerEdit_setLockerTdId _ _ _ _ (Or.inr (by omega)), Nat.add_assoc]

end Image

/-! ## The td status undo leaves -/

section Status

variable (page : DataPage) (record : UndoRecord)

/-- The td status `ExecuteUndoForDelete` gives a tuple with header `h`. -/
def undoDeleteStatus (h : HeapTupleHeader) : ℕ :=
  if page.isTdValidAndOccupied h.tdId = false then detachTd.code
  else if (page.getTd record.tdId).xid ≠ h.xid then attachTdAsHistoryOwner.code
  else h.tdStatus

/-- The td status of an image once its TD has been looked at. -/
def detachStatus (h : HeapTupleHeader) : ℕ :=
  if page.isTdValidAndOccupied h.tdId then h.tdStatus else detachTd.code

/-- The td status the update undos leave, for a tuple of `xid` with status `s`. -/
def historyStatus (curXid xid : Xid) (s : ℕ) : ℕ :=
  if s ≠ detachTd.code ∧ xid ≠ curXid then
    attachTdAsHistoryOwner.code
  else s

lemma isTdValidAndOccupied_congr {page p : DataPage} (htds : p.tds = page.tds) (tdId : ℕ) :
    p.isTdValidAndOccupied tdId = page.isTdValidAndOccupied tdId := by
  rw [Bool.eq_iff_iff, isTdValidAndOccupied, isTdValidAndOccupied, decide_eq_true_eq,
    decide_eq_true_eq, tdCount, tdCount, getTd, getTd, htds]

/-- The td status that is set fits into its two bits. -/
lemma undoDeleteStatus_lt (h : HeapTupleHeader) : page.undoDeleteStatus record h < 4 := by
  rw [undoDeleteStatus]
  split
  · decide
  split
  · decide
  · exact tdStatus_lt h

lemma detachStatus_lt (h : HeapTupleHeader) : page.detachStatus h < 4 := by
  rw [detachStatus]
  split
  · exact tdStatus_lt h
  · decide

lemma historyStatus_lt {curXid xid : Xid} {s : ℕ} (hs : s < 4) :
    historyStatus curXid xid s < 4 := by
  rw [historyStatus]
  split
  · decide
  · exact hs

/-- Before a deleted tuple is put back its td status is set from its old TD. -/
lemma undoDeleteImage_status (image : ByteMem) :
    StatusEdit 0 image (page.undoDeleteImage record image)
      (page.undoDeleteStatus record (header image 0)) := by
  have htdId : getTdId image 0 = (header image 0).tdId := rfl
  have hxid : getXid image 0 = (header image 0).xid := rfl
  rw [undoDeleteImage, undoDeleteStatus, htdId, hxid]
  split
  · exact statusEdit_setTdStatus image 0 _
  split
  · exact statusEdit_setTdStatus image 0 _
  · exact refl image 0

/-- An image whose old TD is not occupied is detached. -/
lemma detachImage_status (image : ByteMem) :
    StatusEdit 0 image (page.detachImage image) (page.detachStatus (header image 0)) := by
  have htdId : getTdId image 0 = (header image 0).tdId := rfl
  rw [detachImage, detachStatus, htdId]
  split
  · exact refl image 0
  · exact statusEdit_setTdStatus image 0 _

/-- The first write of `ExecuteUndoForInplaceUpdate`. -/
lemma detachOldTd_status (oldTdId off : ℕ) : ∃ m s, StatusEdit off page.mem m s ∧
    (if page.isTdValidAndOccupied oldTdId then page
      else page.withMem (setTdStatus page.mem off .detachTd)) = page.withMem m := by
  split
  · exact ⟨page.mem, _, refl page.mem off, rfl⟩
  · exact ⟨_, _, statusEdit_setTdStatus page.mem off _, rfl⟩

/-- The last step marks an older version as one of the history. -/
lemma markHistory_status (curXid : Xid) (offset : ℕ) :
    ∃ mem, page.markHistory curXid offset = page.withMem mem ∧
      StatusEdit (page.getItemId offset).offset page.mem mem
        (historyStatus curXid (page.tupleHeader offset).xid
          (page.tupleHeader offset).tdStatus) := by
  have hstatus : getTdStatus page.mem (page.getItemId offset).offset =
      (page.tupleHeader offset).tdStatus := rfl
  have hxid : getXid page.mem (page.getItemId offset).offset =
      (page.tupleHeader offset).xid := rfl
  rw [markHistory, historyStatus, hstatus, hxid]
  split
  · exact ⟨_, rfl, statusEdit_setTdStatus _ _ _⟩
  · exact ⟨page.mem, rfl, refl _ _⟩

lemma markHistory_tds (curXid : Xid) (offset : ℕ) :
    (page.markHistory curXid offset).tds = page.tds := by
  obtain ⟨mem, hmark, _⟩ := page.markHistory_status curXid offset
  rw [hmark]
  rfl

end Status

/-! ## Undo on a page where the tuple still has its item -/

/-- What undoing a change of the tuple at `offset` of `page` makes of a later page `p`. -/
structure UndoneAt (page p page' : DataPage) (record : UndoRecord) (offset s : ℕ) : Prop where
  frame : TupleFrame page page' (· = offset)
  restored : RestoredTuple page page' offset s
  tds_eq : page'.tds = (p.rollbackTd record).tds

/-- An undo that leaves the item array of `p` as it is. -/
structure UndoneInPlace (page p page' : DataPage) (record : UndoRecord) (offset s : ℕ) : Prop
    extends UndoneAt page p page' record offset s where
  type_eq : page'.type = p.type
  special_eq : page'.special = p.special
  upper_eq : page'.upper = p.upper
  items_eq : page'.items = p.items

section Undone

variable {page p : DataPage} {record : UndoRecord} {offset : ℕ}

/-- The tuple at `offset` has changed since `page`, but has its own room on `p`. -/
structure ChangedAt (page p : DataPage) (offset : ℕ) : Prop where
  valid : page.ValidOffset offset
  normal : (page.getItemId offset).isNormal = true
  frame : TupleFrame page p (· = offset)
  layout : p.Layout
  normal' : (p.getItemId offset).isNormal = true
  size_le : (page.tupleHeader offset).size ≤ (p.getItemId offset).len

section

variable (h : ChangedAt page p offset)
include h

lemma ChangedAt.valid' : p.ValidOffset offset :=
  h.valid.mono h.frame.getMaxOffset_le

/-- A change inside the item of the tuple is one at its offset. -/
lemma ChangedAt.frame_of {page' : DataPage} (hmax : page'.getMaxOffset = p.getMaxOffset)
    (hitem : ∀ offset', p.ValidOffset offset' → offset' ≠ offset →
      page'.getItemId offset' = p.getItemId offset')
    (hmem : ByteMem.SameOutside (p.getItemId offset).offset
      ((p.getItemId offset).offset + (p.getItemId offset).len) p.mem page'.mem) :
    TupleFrame page page' (· = offset) := by
  have hbytes : TupleFrame p (p.withMem page'.mem) (· = offset) :=
    TupleFrame.of_sameOutside h.layout h.valid' h.normal' rfl hmem
  refine h.frame.trans ⟨le_of_eq hmax.symm, hitem, hbytes.bytes⟩

/-- Copying the image back restores the tuple up to locker and td status. -/
lemma ChangedAt.restored_blit {s : ℕ} {image : ByteMem} (hwf : page.HeapWellFormed)
    (hedit : StatusEdit 0 (ofBytes (page.undoImage offset)) image s) :
    RestoredTuple page (p.withMem (p.mem.blit (p.getItemId offset).offset image 0
      (page.tupleHeader offset).size)) offset s := by
  have hsize := hwf.header_le_size offset h.valid h.normal
  refine restoredTuple_of_image hsize hedit h.normal' fun i hi => ?_
  show p.mem.blit _ image 0 _ ((p.getItemId offset).offset + i) = _
  rw [blit_add hi, Nat.zero_add]

/-- The copy stays inside the item. -/
lemma ChangedAt.sameOutside_blit (image : ByteMem) :
    ByteMem.SameOutside (p.getItemId offset).offset
      ((p.getItemId offset).offset + (p.getItemId offset).len) p.mem
      (p.mem.blit (p.getItemId offset).offset image 0 (page.tupleHeader offset).size) := by
  have hlen := h.size_le
  exact (ByteMem.sameOutside_blit _ _ _ _ _).mono le_rfl (by omega)

end

/-- `markHistory` on a page with the restored tuple. -/
lemma RestoredTuple.markHistory {page' : DataPage} {s : ℕ} (curXid : Xid)
    (h : RestoredTuple page page' offset s) (hs : s < 4) :
    ∃ mem, page'.markHistory curXid offset = page'.withMem mem ∧
      HeaderEdit (page'.getItemId offset).offset page'.mem mem ∧
      RestoredTuple page (page'.withMem mem) offset
        (historyStatus curXid (page.tupleHeader offset).xid s) := by
  obtain ⟨mem, hmark, hedit⟩ := page'.markHistory_status curXid offset
  have hxid : (page'.tupleHeader offset).xid = (page.tupleHeader offset).xid := by rw [h.header]
  have hstatus : (page'.tupleHeader offset).tdStatus = s := by
    rw [h.header, tdStatus, get_set_self]
    exact Nat.mod_eq_of_lt hs
  rw [hxid, hstatus] at hedit
  refine ⟨mem, hmark, hedit.edit, h.normal, ?_, ?_⟩
  · show HeapDiskTuple.header mem (page'.getItemId offset).offset = _
    have hheader : HeapDiskTuple.header page'.mem (page'.getItemId offset).offset = _ := h.header
    rw [hedit.header_eq, hheader]
    simp only [set_set]
  · rw [← h.data]
    show HeapDiskTuple.data mem (page'.getItemId offset).offset =
      HeapDiskTuple.data page'.mem (page'.getItemId offset).offset
    have hlen : getTupleSize mem (page'.getItemId offset).offset =
        getTupleSize page'.mem (page'.getItemId offset).offset :=
      congrArg size hedit.header_eq
    rw [HeapDiskTuple.data, HeapDiskTuple.data, hlen]
    exact load_congr fun i _ => hedit.edit _ (Or.inr (by omega))

/-- Restoring does not depend on the length of the item. -/
lemma RestoredTuple.of_eq {page' page'' : DataPage} {s : ℕ} (h : RestoredTuple page page' offset s)
    (hflags : (page''.getItemId offset).flags = (page'.getItemId offset).flags)
    (hoffset : (page''.getItemId offset).offset = (page'.getItemId offset).offset)
    (hmem : page''.mem = page'.mem) : RestoredTuple page page'' offset s := by
  refine ⟨?_, ?_, ?_⟩
  · rw [ItemId.isNormal, hflags]
    exact h.normal
  · rw [← h.header, tupleHeader, tupleHeader, hoffset, hmem]
  · rw [← h.data, tupleData, tupleData, hoffset, hmem]

/-- The tuple has room for its old image, so it is put back in place. -/
lemma ChangedAt.restoreTuple_eq (h : ChangedAt page p offset) (image : ByteMem) :
    p.restoreTuple offset image (page.undoImage offset).length =
      (p.withMem (p.mem.blit (p.getItemId offset).offset image 0 (page.tupleHeader offset).size),
        offset) := by
  rw [length_undoImage, restoreTuple, if_pos]
  rw [h.normal', Bool.true_and, decide_eq_true_eq]
  exact h.size_le

variable (hwf : page.HeapWellFormed) (h : ChangedAt page p offset)
  (hctid : record.ctid.offset.toNat = offset)
include hwf h hctid

/-- Undo of a delete. -/
theorem executeUndoForDelete_undone :
    UndoneInPlace page p (p.executeUndoForDelete record (page.undoImage offset)) record offset
      (p.undoDeleteStatus record (page.tupleHeader offset)) := by
  have hsize := hwf.header_le_size offset h.valid h.normal
  have hedit := p.undoDeleteImage_status record (ofBytes (page.undoImage offset))
  rw [header_undoImage hsize] at hedit
  rw [executeUndoForDelete, hctid, h.restoreTuple_eq]
  exact ⟨⟨h.frame_of rfl (fun _ _ _ => rfl) (h.sameOutside_blit _),
    (h.restored_blit hwf hedit).of_eq rfl rfl rfl, rfl⟩, rfl, rfl, rfl, rfl⟩

/-- Undo of the old-page half of an update to another page. -/
theorem executeUndoForOldPageAppendUpdate_undone :
    ∃ page', p.executeUndoForOldPageAppendUpdate record (page.undoImage offset) = some page' ∧
      UndoneInPlace page p page' record offset
        (historyStatus (p.getTd record.tdId).xid (page.tupleHeader offset).xid
          (p.detachStatus (page.tupleHeader offset))) := by
  have hsize := hwf.header_le_size offset h.valid h.normal
  have hlen := h.size_le
  have hedit := p.detachImage_status (ofBytes (page.undoImage offset))
  rw [header_undoImage hsize] at hedit
  set image := p.detachImage (ofBytes (page.undoImage offset)) with himage
  set restored := p.withMem (p.mem.blit (p.getItemId offset).offset image 0
    (page.tupleHeader offset).size) with hrestored
  have hrolled : RestoredTuple page (restored.rollbackTd record) offset
      (p.detachStatus (page.tupleHeader offset)) := (h.restored_blit hwf hedit).of_eq rfl rfl rfl
  obtain ⟨mem, hmark, hheader, hfinal⟩ := hrolled.markHistory (restored.getTd record.tdId).xid
    (p.detachStatus_lt _)
  refine ⟨_, ?_, ⟨?_, hfinal, rfl⟩, rfl, rfl, rfl, rfl⟩
  · rw [executeUndoForOldPageAppendUpdate, hctid, h.restoreTuple_eq]
    simp only [if_true]
    exact congrArg some hmark
  · exact h.frame_of rfl (fun _ _ _ => rfl)
      ((h.sameOutside_blit image).trans (hheader.mono le_rfl (by
        show (p.getItemId offset).offset + heapDiskTupHeaderSize ≤ _
        omega)))

/-- Undo of an update to a new place on the same page. -/
theorem executeUndoForSamePageAppendUpdate_undone :
    ∃ page', p.executeUndoForSamePageAppendUpdate record (page.undoImage offset) = some page' ∧
      UndoneAt page p page' record offset
        (historyStatus (p.getTd record.tdId).xid (page.tupleHeader offset).xid
          ((p.rollbackTd record).detachStatus (page.tupleHeader offset))) := by
  have hsize := hwf.header_le_size offset h.valid h.normal
  have hlen := h.size_le
  set rolled := p.rollbackTd record with hrolled
  have hedit := rolled.detachImage_status (ofBytes (page.undoImage offset))
  rw [header_undoImage hsize] at hedit
  set image := rolled.detachImage (ofBytes (page.undoImage offset)) with himage
  rw [executeUndoForSamePageAppendUpdate_eq hctid, length_undoImage, if_pos hlen]
  set shrunk := DataPage.putItemId _ offset
    ((p.getItemId offset).setLen (page.tupleHeader offset).size) with hshrunk
  have hself : shrunk.getItemId offset =
      (p.getItemId offset).setLen (page.tupleHeader offset).size :=
    getItemId_putItemId_self h.valid' _
  have hback : RestoredTuple page shrunk offset (rolled.detachStatus (page.tupleHeader offset)) :=
    (h.restored_blit hwf hedit).of_eq (by rw [hself]; rfl) (by rw [hself]; rfl) rfl
  obtain ⟨mem, hmark, hheader, hfinal⟩ := hback.markHistory (p.getTd record.tdId).xid
    (rolled.detachStatus_lt _)
  refine ⟨_, congrArg some hmark, ?_, hfinal, rfl⟩
  refine h.frame_of (show shrunk.getMaxOffset = p.getMaxOffset from putItemId_getMaxOffset _ _)
    ?_ ?_
  · intro offset' hv hne
    exact getItemId_putItemId_of_ne h.valid.1 hv.1 (Ne.symm hne) _
  · rw [hself] at hheader
    exact (h.sameOutside_blit image).trans (hheader.mono le_rfl (by
      show (p.getItemId offset).offset + heapDiskTupHeaderSize ≤ _
      omega))

section

variable {newLen : ℕ}
  (hoffset : (p.getItemId offset).offset = (page.getItemId offset).offset)
  (hnew : heapDiskTupHeaderSize ≤ newLen)
include hoffset hnew

omit hctid in
/-- `UndoActionOnTuple` restores the tuple an in-place update has overwritten. -/
lemma undoActionOnTuple_restored {m new : ByteMem}
    (hheader : (header m (p.getItemId offset).offset).size = newLen ∧
      (header m (p.getItemId offset).offset).lockerTdId = invalidTdSlot)
    (htuple : ∀ j, heapDiskTupHeaderSize ≤ j → j < newLen →
      m ((p.getItemId offset).offset + j) = new j) :
    RestoredTuple page (p.withMem (undoActionOnTuple (page.tupleHeader offset).tdId
      (page.tupleHeader offset).info (page.tupleHeader offset).size (page.tupleHeader offset).xid
      (inplaceDiffs page.mem (p.getItemId offset).offset (page.tupleHeader offset).size new newLen)
      m (p.getItemId offset).offset)) offset (page.tupleHeader offset).tdStatus := by
  have hsize := hwf.header_le_size offset h.valid h.normal
  set off := (p.getItemId offset).offset with hoff
  set old := page.tupleHeader offset with hold
  set diffs := inplaceDiffs page.mem off old.size new newLen with hdiffs
  have hlt : old.tdId < 256 ∧ old.size < 256 ^ 2 ∧ old.info < 256 ^ 4 :=
    header_lt _ _
  have hgetSize : getTupleSize m off = newLen := hheader.1
  -- the data moves and the sections stay behind the header, so the locker is that of `m`
  have hlocker : getLockerTdId
      (applyDiffs diffs (off + old.size) (alignTupleData old.size m off)) off = invalidTdSlot := by
    have heq : header
        (applyDiffs diffs (off + old.size) (alignTupleData old.size m off)) off =
        header m off :=
      header_applyDiffs (inplaceDiffs_within _ _ _ _ _) hsize (by rw [hgetSize]; exact hnew)
    have := congrArg lockerTdId heq
    exact this.trans hheader.2
  have hback : header (undoActionOnTuple old.tdId old.info old.size old.xid diffs m off)
      off = { old with
        lockerTdId := invalidTdSlot
        info := set 4 2 old.tdStatus old.info } := by
    rw [header_undoActionOnTuple, hlocker, Nat.mod_eq_of_lt hlt.1, Nat.mod_eq_of_lt hlt.2.1,
      Nat.mod_eq_of_lt hlt.2.2, tdStatus, set_get_self]
  refine ⟨h.normal', hback, ?_⟩
  have hlen : getTupleSize
      (undoActionOnTuple old.tdId old.info old.size old.xid diffs m off) off = old.size :=
    congrArg size hback
  show data (undoActionOnTuple old.tdId old.info old.size old.xid diffs m off) off = _
  rw [data, hlen, tupleData, data]
  apply load_congr
  intro i hi
  rw [undoActionOnTuple_data old.tdId old.info old.xid hgetSize htuple hi, hoffset]

/-- Undo of an in-place update. -/
theorem executeUndoForInplaceUpdate_undone {new : ByteMem}
    (hheader : (p.tupleHeader offset).size = newLen ∧
      (p.tupleHeader offset).lockerTdId = invalidTdSlot)
    (hnewLen : newLen ≤ (p.getItemId offset).len)
    (htuple : ∀ j, heapDiskTupHeaderSize ≤ j → j < newLen →
      p.mem ((p.getItemId offset).offset + j) = new j) :
    ∃ page', p.executeUndoForInplaceUpdate record (page.tupleHeader offset).tdId
        (page.tupleHeader offset).info (page.tupleHeader offset).size (page.tupleHeader offset).xid
        (inplaceDiffs page.mem (p.getItemId offset).offset (page.tupleHeader offset).size
          new newLen) =
        some page' ∧
      UndoneInPlace page p page' record offset
        (historyStatus (p.getTd record.tdId).xid (page.tupleHeader offset).xid
          (page.tupleHeader offset).tdStatus) := by
  have hsize := hwf.header_le_size offset h.valid h.normal
  have hlen := h.size_le
  set off := (p.getItemId offset).offset with hoff
  set old := page.tupleHeader offset with hold
  set diffs := inplaceDiffs page.mem off old.size new newLen with hdiffs
  -- the status written first is overwritten by the header of the record
  obtain ⟨m, s, hedit, hm⟩ := p.detachOldTd_status old.tdId off
  have hheader' : (header m off).size = newLen ∧
      (header m off).lockerTdId = invalidTdSlot := by
    rw [hedit.header_eq]
    exact hheader
  have htuple' : ∀ j, heapDiskTupHeaderSize ≤ j → j < newLen → m (off + j) = new j := by
    intro j h1 h2
    rw [hedit.edit _ (Or.inr (by omega))]
    exact htuple j h1 h2
  set undone := p.withMem (undoActionOnTuple old.tdId old.info old.size old.xid diffs m off)
    with hundone
  have hstep : p.undoInplaceTuple old.tdId old.info old.size old.xid diffs offset =
    some undone := by
    have hpageSize : getTupleSize p.mem (p.getItemId offset).offset = newLen := hheader.1
    rw [undoInplaceTuple, ← hoff, hm, hpageSize]
    simp only [if_neg (show ¬ (p.getItemId offset).len < newLen by omega), if_pos hlen]
    rfl
  have hback : RestoredTuple page (undone.rollbackTd record) offset old.tdStatus :=
    (undoActionOnTuple_restored hwf h hoffset hnew hheader' htuple').of_eq rfl rfl rfl
  obtain ⟨mem, hmark, hmarked, hfinal⟩ := hback.markHistory (undone.getTd record.tdId).xid
    (tdStatus_lt old)
  refine ⟨_, ?_, ⟨?_, hfinal, rfl⟩, rfl, rfl, rfl, rfl⟩
  · rw [executeUndoForInplaceUpdate, hctid, hstep]
    exact congrArg some hmark
  · refine h.frame_of rfl (fun _ _ _ => rfl) ?_
    have haction := undoActionOnTuple_sameOutside
      (inplaceDiffs_within page.mem new off old.size newLen) old.tdId old.info old.xid hsize
      (show getTupleSize m off = newLen from hheader'.1) hnew
    exact ((hedit.edit.mono le_rfl (by omega)).trans (haction.mono le_rfl (by omega))).trans
      (hmarked.mono le_rfl (by show off + heapDiskTupHeaderSize ≤ _; omega))

end

end Undone

end DataPage

end DStore
