import DStore.Heap.Compact
import DStore.Heap.UndoInverse
import DStore.Page.AllocTd

/-!
# The TD of a tuple brought back by undo

A tuple brought back by undo may name a TD that has been reset since the undo record was
written. The undo functions look at the TD and at what becomes of it in different orders, so
whether the tuple ends up attached to a reset TD depends on the kind of undo.
-/

namespace DStore

open HeapDiskTuple TupleTdStatus List ByteMem UndoRecord

namespace DataPage

section Readd

variable (page : DataPage)

/-- The page after `ExecuteUndoForInplaceUpdate` has looked at the old TD. -/
def detachOldTd (oldTdId offset : ℕ) : DataPage :=
  if page.isTdValidAndOccupied oldTdId then page
  else page.withMem
    (HeapDiskTuple.setTdStatus page.mem (page.getItemId offset).offset .detachTd)

/-- The page `ExecuteUndoForInplaceUpdate` adds a longer old version to. -/
def inplaceReadd (oldTdId oldTupleLen offset : ℕ) : DataPage :=
  ((page.detachOldTd oldTdId offset).putItemId offset
    ((page.getItemId offset).setNoStorage.setTdStatus .detachTd)).compactCRPageIfFreeSpaceLessThan
    oldTupleLen

/-- The page on which undo calls `AddTuple`, and the size of the tuple; `none` when the old
version is written over the tuple on the page. -/
def readdTarget (record : UndoRecord) : Option (DataPage × ℕ) :=
  let offset := record.ctid.offset.toNat
  let item := page.getItemId offset
  match record.data with
  | .heapDelete tuple | .heapAnotherPageAppendUpdateOldPage _ tuple =>
    if item.isNormal && tuple.length ≤ item.len then none
    else some (page.compactCRPageIfFreeSpaceLessThan tuple.length, tuple.length)
  | .heapInplaceUpdate oldTdId _ oldTupleLen _ _ =>
    if oldTupleLen ≤ item.len then none
    else some (page.inplaceReadd oldTdId oldTupleLen offset, oldTupleLen)
  | _ => none

/-- The number of TDs left once an old version of `size` bytes is back at `offset`. -/
def tdsLeft (offset size : ℕ) : ℕ :=
  if size ≤ (page.getItemId offset).len ∨ size ≤ page.getFreeSpaceRaw then page.tdCount
  else page.tdCount - page.trailingFreeTds

end Readd

/-- The tuple at `offset` is detached, or attached to a TD in use. -/
def TdLinked (page : DataPage) (offset : ℕ) : Prop :=
  (page.tupleHeader offset).tdStatus = TupleTdStatus.detachTd.code ∨
    page.isTdValidAndOccupied (page.tupleHeader offset).tdId = true

instance (page : DataPage) (offset : ℕ) : Decidable (page.TdLinked offset) :=
  inferInstanceAs (Decidable (_ ∨ _))

/-- The TD is in use and stays so when `record` is undone, with `left` TDs remaining. -/
def LinkKept (page : DataPage) (record : UndoRecord) (left tdId : ℕ) : Prop :=
  tdId < left ∧ page.isTdValidAndOccupied tdId = true ∧
    ¬ (tdId = record.tdId ∧ record.tdPreXid = invalidXid)

/-- When undo leaves the tuple it brings back with a usable TD. -/
def TdLinkSurvives (page : DataPage) (record : UndoRecord) : Prop :=
  let offset := record.ctid.offset.toNat
  match record.data with
  | .heapDelete tuple =>
    let old := HeapDiskTuple.header (ofBytes tuple) 0
    page.isTdValidAndOccupied old.tdId = false ∨
      (old.xid = (page.getTd record.tdId).xid ∧ old.tdStatus = TupleTdStatus.detachTd.code) ∨
      page.LinkKept record (page.tdsLeft offset tuple.length) old.tdId
  | .heapInplaceUpdate oldTdId oldInfo oldTupleLen _ _ =>
    BitField.get 4 2 oldInfo = TupleTdStatus.detachTd.code ∨
      page.LinkKept record (page.tdsLeft offset oldTupleLen) oldTdId
  | .heapAnotherPageAppendUpdateOldPage _ tuple =>
    let old := HeapDiskTuple.header (ofBytes tuple) 0
    page.isTdValidAndOccupied old.tdId = false ∨ old.tdStatus = TupleTdStatus.detachTd.code ∨
      page.LinkKept record (page.tdsLeft offset tuple.length) old.tdId
  | _ => True

end DataPage

/-- The fields of a record that the undo functions rely on: an old version has its header, and
a td id is a byte. -/
def UndoRecord.WellTyped (record : UndoRecord) : Prop :=
  match record.data with
  | .heapDelete tuple | .heapSamePageAppendUpdate tuple
  | .heapAnotherPageAppendUpdateOldPage _ tuple => heapDiskTupHeaderSize ≤ tuple.length
  | .heapInplaceUpdate oldTdId _ oldTupleLen _ _ =>
    oldTdId < 256 ∧ heapDiskTupHeaderSize ≤ oldTupleLen
  | .heapBatchInsert ranges => ∀ range ∈ ranges, 1 ≤ range.1
  | _ => True

namespace DataPage

variable {page' : DataPage}

/-- What a caller of `UndoHeap` hands over: a well-formed heap page, a record from the chain of
the TD it names, for an item still in use, and room for the old version. -/
structure UndoTarget (page : DataPage) (record : UndoRecord) : Prop where
  wf : page.HeapWellFormed
  typed : record.WellTyped
  tdId_lt : record.tdId < page.tdCount
  xid_ne : (page.getTd record.tdId).xid ≠ invalidXid
  occupied : (page.getTd record.tdId).status ≠ .unoccupyAndPruneable
  valid : (∀ ranges, record.data ≠ .heapBatchInsert ranges) →
    page.ValidOffset record.ctid.offset.toNat
  used : (∀ ranges, record.data ≠ .heapBatchInsert ranges) →
    (page.getItemId record.ctid.offset.toNat).isUnused = false
  room : ∀ target size, page.readdTarget record = some (target, size) →
    target.Fits size record.ctid.offset.toNat

/-! ## Adding the old version back -/

/-- A tuple with header `h` is at `offset`, and the TDs are `tds`. -/
structure BroughtBack (page : DataPage) (offset : ℕ) (h : HeapTupleHeader) (tds : List TD) :
    Prop where
  normal : (page.getItemId offset).isNormal = true
  header_eq : page.tupleHeader offset = h
  tds_eq : page.tds = tds

section Back

variable {page target : DataPage} {offset size : ℕ} {h : HeapTupleHeader} {tds : List TD}

/-- A tuple that is added again is found at its offset, with the header of the image. -/
lemma addTuple_broughtBack (hlt : page.upper < 2 ^ 15) (hv : page.ValidOffset offset)
    (hfits : page.Fits size offset) (hsize : heapDiskTupHeaderSize ≤ size) (image : ByteMem) :
    (page.addTuple image size offset).2 = offset ∧
      (page.addTuple image size offset).1.BroughtBack offset (header image 0)
        page.tds := by
  have hne : offset ≠ invalidItemOffsetNumber := by
    have := hv.1
    unfold invalidItemOffsetNumber
    omega
  have hle : offset ≤ page.getMaxOffset + 1 := Nat.le_succ_of_le hv.2
  have hitem : (page.placeTuple image size offset).getItemId offset =
      ⟨.normal, page.upper - size, size⟩ := getItemId_placeTuple hlt hfits hv.1 hle
  rw [addTuple_of_fits hlt hne hfits]
  refine ⟨rfl, by rw [hitem]; rfl, ?_, rfl⟩
  rw [tupleHeader, hitem]
  exact header_of_image (fun _ hi => placeTuple_mem hlt hfits hi) hsize

/-- The item of the tuple survives a compaction. -/
lemma compactCRPage_target (hupper : page.upper < 2 ^ 15) (hspecial : page.special < 2 ^ 15)
    (hv : page.ValidOffset offset) (hused : (page.getItemId offset).isUnused = false) (size : ℕ) :
    (page.compactCRPageIfFreeSpaceLessThan size).upper < 2 ^ 15 ∧
      (page.compactCRPageIfFreeSpaceLessThan size).ValidOffset offset ∧
      (page.compactCRPageIfFreeSpaceLessThan size).tds = page.tds.take
        (if size ≤ page.getFreeSpaceRaw then page.tdCount
          else page.tdCount - page.trailingFreeTds) := by
  by_cases hfree : size ≤ page.getFreeSpaceRaw
  · rw [compactCRPage_of_le hfree, if_pos hfree, tdCount, take_length]
    exact ⟨hupper, hv, rfl⟩
  · have hcompacted := compactCRPage_of_lt (show page.getFreeSpaceRaw < size by omega)
    rw [if_neg hfree]
    refine ⟨?_, (hcompacted.item_of_used hv hused).1, hcompacted.tds_eq⟩
    rw [hcompacted.upper_eq]
    omega

/-- Rolling the TD back leaves the tuple. -/
lemma BroughtBack.rollbackTd (hback : page.BroughtBack offset h tds) (record : UndoRecord) :
    (page.rollbackTd record).BroughtBack offset h
      (tds.set record.tdId ((page.getTd record.tdId).rollbackTdInfo record)) :=
  ⟨hback.normal, hback.header_eq, by rw [← hback.tds_eq]; rfl⟩

/-- The last step changes the td status of the tuple. -/
lemma BroughtBack.markHistory (hback : page.BroughtBack offset h tds) (curXid : Xid) :
    (page.markHistory curXid offset).BroughtBack offset
      { h with info := BitField.set 4 2 (historyStatus curXid h.xid h.tdStatus) h.info } tds := by
  obtain ⟨mem, hmark, hedit⟩ := page.markHistory_status curXid offset
  rw [hmark]
  refine ⟨hback.normal, ?_, hback.tds_eq⟩
  show header mem (page.getItemId offset).offset = _
  rw [hedit.header_eq, ← hback.header_eq]
  rfl

/-- The old version is back, over the tuple on the page or as a new tuple. -/
lemma restoreTuple_broughtBack (hwf : page.HeapWellFormed) (hv : page.ValidOffset offset)
    (hused : (page.getItemId offset).isUnused = false) (hsize : heapDiskTupHeaderSize ≤ size)
    (hroom : ¬ ((page.getItemId offset).isNormal && size ≤ (page.getItemId offset).len) →
      (page.compactCRPageIfFreeSpaceLessThan size).Fits size offset) (image : ByteMem) :
    (page.restoreTuple offset image size).2 = offset ∧
      (page.restoreTuple offset image size).1.BroughtBack offset (header image 0)
        (page.tds.take (page.tdsLeft offset size)) := by
  rw [restoreTuple]
  by_cases hover : ((page.getItemId offset).isNormal && size ≤ (page.getItemId offset).len)
  · rw [if_pos hover]
    rw [Bool.and_eq_true, decide_eq_true_eq] at hover
    rw [tdsLeft, if_pos (Or.inl hover.2), tdCount, take_length]
    refine ⟨rfl, hover.1, ?_, rfl⟩
    apply header_congr
    intro i hi
    show page.mem.blit _ image 0 size _ = _
    exact blit_add (lt_of_lt_of_le hi hsize)
  · rw [if_neg hover]
    have hlen : ¬ size ≤ (page.getItemId offset).len := fun hle => by
      -- an item with bytes is normal
      apply hover
      rw [Bool.and_eq_true, decide_eq_true_eq]
      refine ⟨hwf.normal_of_len offset hv ?_, hle⟩
      unfold heapDiskTupHeaderSize at hsize
      omega
    have hspecial := hwf.layout.special_le
    obtain ⟨hupper, hv', htds⟩ := compactCRPage_target hwf.layout.upper_lt
      (lt_of_le_of_lt hspecial (by decide)) hv hused size
    have hleft : page.tdsLeft offset size = if size ≤ page.getFreeSpaceRaw then page.tdCount
        else page.tdCount - page.trailingFreeTds := by
      rw [tdsLeft]
      simp only [hlen, false_or]
    rw [hleft, ← htds]
    exact addTuple_broughtBack hupper hv' (hroom hover) hsize image

/-- Whether the tuple hangs on a TD in use once the TD of the record is rolled back. -/
lemma BroughtBack.tdLinked_iff {record : UndoRecord} {left : ℕ}
    (hback : page'.BroughtBack offset h
      ((page.tds.take left).set record.tdId ((page.getTd record.tdId).rollbackTdInfo record)))
    (hlt : record.tdId < left) (hleft : left ≤ page.tdCount)
    (hocc : (page.getTd record.tdId).status ≠ .unoccupyAndPruneable) :
    page'.TdLinked offset ↔
      h.tdStatus = detachTd.code ∨ page.LinkKept record left h.tdId := by
  have hcount : page'.tdCount = left := by
    have hlength : page.tds.length = page.tdCount := rfl
    rw [tdCount, hback.tds_eq, length_set, length_take]
    omega
  have hget : ∀ tdId, tdId < left → page'.getTd tdId =
      if tdId = record.tdId then (page.getTd record.tdId).rollbackTdInfo record
      else page.getTd tdId := by
    intro tdId htd
    have hlen : record.tdId < (page.tds.take left).length := by
      rw [length_take]
      exact lt_min hlt (lt_of_lt_of_le hlt hleft)
    rw [getTd, hback.tds_eq, getD_eq_getElem?_getD]
    by_cases heq : tdId = record.tdId
    · rw [if_pos heq, heq, getElem?_set_self hlen, Option.getD_some]
    · rw [if_neg heq, getElem?_set_ne (Ne.symm heq), getElem?_take_of_lt htd, getTd,
        getD_eq_getElem?_getD]
  rw [TdLinked, hback.header_eq]
  apply or_congr_right
  rw [isTdValidAndOccupied, decide_eq_true_eq, hcount, LinkKept]
  apply and_congr_right
  intro htd
  rw [hget h.tdId htd, isTdValidAndOccupied, decide_eq_true_eq]
  have hvalid : h.tdId < page.tdCount := lt_of_lt_of_le htd hleft
  by_cases heq : h.tdId = record.tdId
  · rw [if_pos heq, heq]
    rw [heq] at hvalid
    simp only [TD.rollbackTdInfo, hvalid, hocc, true_and, ne_eq, not_false_eq_true]
    by_cases hpre : record.tdPreXid = invalidXid
    · simp [hpre]
    · by_cases hsame : record.tdPreXid = (page.getTd record.tdId).xid
      · simp [hsame, hocc]
      · simp [hpre, hsame]
  · rw [if_neg heq]
    simp [heq, hvalid]

end Back

/-! ## The kinds of undo -/

section Kinds

variable {page : DataPage} {record : UndoRecord} {offset : ℕ}

/-- When the undo of a delete leaves the tuple detached. -/
lemma undoDeleteStatus_eq_detach_iff (h : HeapTupleHeader) :
    page.undoDeleteStatus record h = detachTd.code ↔
      page.isTdValidAndOccupied h.tdId = false ∨
        (h.xid = (page.getTd record.tdId).xid ∧ h.tdStatus = detachTd.code) := by
  rw [undoDeleteStatus]
  cases hocc : page.isTdValidAndOccupied h.tdId with
  | false => simp
  | true =>
    by_cases hxid : h.xid = (page.getTd record.tdId).xid
    · simp [hxid]
    · simp [hxid, Ne.symm hxid, code]

/-- The last step attaches no detached tuple. -/
lemma historyStatus_eq_detach_iff (curXid xid : Xid) (s : ℕ) :
    historyStatus curXid xid s = detachTd.code ↔ s = detachTd.code := by
  rw [historyStatus]
  by_cases hmark : s ≠ detachTd.code ∧ xid ≠ curXid
  · rw [if_pos hmark]
    exact iff_of_false (by decide) hmark.1
  · rw [if_neg hmark]

/-- When the undo of an update leaves the tuple detached. -/
lemma detachStatus_eq_detach_iff (h : HeapTupleHeader) :
    page.detachStatus h = detachTd.code ↔
      page.isTdValidAndOccupied h.tdId = false ∨ h.tdStatus = detachTd.code := by
  rw [detachStatus]
  cases hocc : page.isTdValidAndOccupied h.tdId with
  | false => simp
  | true => simp

lemma tdStatus_setStatus (h : HeapTupleHeader) {s : ℕ} (hs : s < 4) :
    HeapTupleHeader.tdStatus { h with info := BitField.set 4 2 s h.info } = s := by
  rw [HeapTupleHeader.tdStatus, BitField.get_set_self]
  exact Nat.mod_eq_of_lt hs

/-- The TD of the record is not dropped by the compaction. -/
lemma UndoTarget.lt_tdsLeft (ht : page.UndoTarget record) (offset size : ℕ) :
    record.tdId < page.tdsLeft offset size := by
  rw [tdsLeft]
  split
  · exact ht.tdId_lt
  · exact page.lt_of_xid_ne ht.tdId_lt ht.xid_ne

lemma tdsLeft_le (page : DataPage) (offset size : ℕ) : page.tdsLeft offset size ≤ page.tdCount := by
  rw [tdsLeft]
  split
  · exact le_rfl
  · exact Nat.sub_le _ _

lemma getTd_of_take {left tdId : ℕ} (htds : page'.tds = page.tds.take left)
    (hlt : tdId < left) : page'.getTd tdId = page.getTd tdId := by
  rw [getTd, getTd, htds, getD_eq_getElem?_getD, getElem?_take_of_lt hlt,
    getD_eq_getElem?_getD]

/-- A record that is not of a batch insert is about one tuple. -/
lemma forall_isMatchedCtid {P : ℕ → Prop}
    (hdata : ∀ ranges, record.data ≠ .heapBatchInsert ranges) :
    (∀ offset, record.isMatchedCtid offset → P offset) ↔ P record.ctid.offset.toNat := by
  simp only [isMatchedCtid_iff hdata, forall_eq]

section

variable {tuple : List UInt8} (ht : page.UndoTarget record)
include ht

/-- The undo of a delete leaves the link sound exactly if it survives. -/
lemma executeUndoForDelete_tdLinked_iff
    (hdata : record.data = .heapDelete tuple) :
    ((page.executeUndoForDelete record tuple).getItemId record.ctid.offset.toNat).isNormal ∧
      ((page.executeUndoForDelete record tuple).TdLinked record.ctid.offset.toNat ↔
        page.TdLinkSurvives record) := by
  set offset := record.ctid.offset.toNat with hoffset
  have hbatch : ∀ ranges, record.data ≠ .heapBatchInsert ranges := by simp [hdata]
  have htyped := ht.typed
  rw [WellTyped, hdata] at htyped
  have hstatus := page.undoDeleteImage_status record (ofBytes tuple)
  obtain ⟨_, hback⟩ := restoreTuple_broughtBack ht.wf (ht.valid hbatch) (ht.used hbatch) htyped
    (fun hover => ht.room _ _ (by rw [readdTarget, hdata]; exact if_neg hover))
    (page.undoDeleteImage record (ofBytes tuple))
  have hlt := ht.lt_tdsLeft offset tuple.length
  have hrolled := hback.rollbackTd record
  rw [getTd_of_take hback.tds_eq hlt, hstatus.header_eq] at hrolled
  refine ⟨hrolled.normal, (hrolled.tdLinked_iff hlt (page.tdsLeft_le _ _) ht.occupied).trans ?_⟩
  rw [tdStatus_setStatus _ (undoDeleteStatus_lt _ _ _), undoDeleteStatus_eq_detach_iff, or_assoc,
    TdLinkSurvives, hdata]

/-- So does the undo of the old-page half of an update. -/
lemma executeUndoForOldPageAppendUpdate_tdLinked_iff {newCtid : ItemPointerData}
    (hdata : record.data = .heapAnotherPageAppendUpdateOldPage newCtid tuple)
    (hundo : page.executeUndoForOldPageAppendUpdate record tuple = some page') :
    (page'.getItemId record.ctid.offset.toNat).isNormal ∧
      (page'.TdLinked record.ctid.offset.toNat ↔ page.TdLinkSurvives record) := by
  have hbatch : ∀ ranges, record.data ≠ .heapBatchInsert ranges := by simp [hdata]
  have htyped := ht.typed
  rw [WellTyped, hdata] at htyped
  have hstatus := page.detachImage_status (ofBytes tuple)
  obtain ⟨hoffset, hback⟩ := restoreTuple_broughtBack ht.wf (ht.valid hbatch) (ht.used hbatch)
    htyped (fun hover => ht.room _ _ (by rw [readdTarget, hdata]; exact if_neg hover))
    (page.detachImage (ofBytes tuple))
  have hlt := ht.lt_tdsLeft record.ctid.offset.toNat tuple.length
  rw [executeUndoForOldPageAppendUpdate] at hundo
  simp only [hoffset, if_true, Option.some.injEq] at hundo
  subst hundo
  have hmarked := (hback.rollbackTd record).markHistory
    ((page.restoreTuple record.ctid.offset.toNat (page.detachImage (ofBytes tuple))
      tuple.length).1.getTd record.tdId).xid
  rw [getTd_of_take hback.tds_eq hlt] at hmarked ⊢
  refine ⟨hmarked.normal, (hmarked.tdLinked_iff hlt (page.tdsLeft_le _ _) ht.occupied).trans ?_⟩
  rw [tdStatus_setStatus _ (historyStatus_lt (tdStatus_lt _)),
    historyStatus_eq_detach_iff, hstatus.tdStatus_eq (detachStatus_lt _ _),
    detachStatus_eq_detach_iff, or_assoc, TdLinkSurvives, hdata, hstatus.header_eq]

/-- An update on the same page looks at the TD after rolling it back. -/
lemma executeUndoForSamePageAppendUpdate_tdLinked
    (hdata : record.data = .heapSamePageAppendUpdate tuple)
    (hundo : page.executeUndoForSamePageAppendUpdate record tuple = some page') :
    page'.TdLinked record.ctid.offset.toNat := by
  have hbatch : ∀ ranges, record.data ≠ .heapBatchInsert ranges := by simp [hdata]
  have htyped := ht.typed
  rw [WellTyped, hdata] at htyped
  have hv := ht.valid hbatch
  set offset := record.ctid.offset.toNat with hoffset
  set rolled := page.rollbackTd record with hrolled
  have hstatus := rolled.detachImage_status (ofBytes tuple)
  set image := rolled.detachImage (ofBytes tuple) with himage
  rw [executeUndoForSamePageAppendUpdate_eq hoffset.symm] at hundo
  split_ifs at hundo with hle
  obtain rfl := Option.some_inj.1 hundo
  set shrunk := (rolled.withMem (page.mem.blit (page.getItemId offset).offset image 0
    tuple.length)).putItemId offset ((page.getItemId offset).setLen tuple.length) with hshrunk
  have hself : shrunk.getItemId offset = (page.getItemId offset).setLen tuple.length :=
    getItemId_putItemId_self hv _
  have hback : shrunk.BroughtBack offset (header image 0) rolled.tds := by
    refine ⟨?_, ?_, rfl⟩
    · rw [hself]
      apply ht.wf.normal_of_len offset hv
      unfold heapDiskTupHeaderSize at htyped
      omega
    · rw [tupleHeader, hself]
      apply header_congr
      intro i hi
      exact blit_add (lt_of_lt_of_le hi htyped)
  have hmarked := hback.markHistory (page.getTd record.tdId).xid
  rw [TdLinked, hmarked.header_eq, tdStatus_setStatus _ (historyStatus_lt (tdStatus_lt _)),
    historyStatus_eq_detach_iff, hstatus.tdStatus_eq (detachStatus_lt _ _),
    detachStatus_eq_detach_iff, isTdValidAndOccupied_congr hmarked.tds_eq, hstatus.header_eq]
  cases hocc : rolled.isTdValidAndOccupied (header (ofBytes tuple) 0).tdId with
  | false => exact Or.inl (Or.inl rfl)
  | true => exact Or.inr rfl

end

lemma tdStatus_mod_info (info : ℕ) : BitField.get 4 2 (info % 256 ^ 4) = BitField.get 4 2 info := by
  unfold BitField.get
  omega

/-- The page a longer old version is added to. -/
lemma inplaceReadd_target {oldTupleLen : ℕ} (hwf : page.HeapWellFormed)
    (hv : page.ValidOffset offset) (hle : ¬ oldTupleLen ≤ (page.getItemId offset).len)
    (oldTdId : ℕ) :
    (page.inplaceReadd oldTdId oldTupleLen offset).upper < 2 ^ 15 ∧
      (page.inplaceReadd oldTdId oldTupleLen offset).ValidOffset offset ∧
      (page.inplaceReadd oldTdId oldTupleLen offset).tds =
        page.tds.take (page.tdsLeft offset oldTupleLen) := by
  obtain ⟨mem, -, -, hmem⟩ := page.detachOldTd_status oldTdId (page.getItemId offset).offset
  rw [inplaceReadd, detachOldTd, hmem]
  set q := (page.withMem mem).putItemId offset
    ((page.getItemId offset).setNoStorage.setTdStatus .detachTd) with hq
  have hitem : q.getItemId offset = (page.getItemId offset).setNoStorage.setTdStatus .detachTd :=
    getItemId_putItemId_self (show (page.withMem mem).ValidOffset offset from hv) _
  have hspace : q.getFreeSpaceRaw = page.getFreeSpaceRaw := by
    rw [hq, getFreeSpaceRaw, putItemId_lower]
    rfl
  have htds : q.tds = page.tds := rfl
  have hleft : page.tdsLeft offset oldTupleLen = if oldTupleLen ≤ q.getFreeSpaceRaw then q.tdCount
      else q.tdCount - q.trailingFreeTds := by
    rw [tdsLeft, hspace, tdCount, tdCount, trailingFreeTds, trailingFreeTds, htds]
    simp only [hle, false_or]
  rw [hleft, ← htds]
  apply compactCRPage_target
  · exact hwf.layout.upper_lt
  · exact lt_of_le_of_lt hwf.layout.special_le (by decide)
  · rw [hq, ValidOffset, putItemId_getMaxOffset]
    exact hv
  · rw [hitem]
    rfl

section

variable {oldTdId oldInfo oldTupleLen : ℕ}
  {oldXid : Xid}
  {diffs : List DiffSection}
  (ht : page.UndoTarget record)
  (hdata : record.data = .heapInplaceUpdate oldTdId oldInfo oldTupleLen oldXid diffs)
include ht hdata

/-- The old version of an in-place update is back, with the header fields of the record. -/
lemma undoInplaceTuple_broughtBack {page1 : DataPage}
    (hundo : page.undoInplaceTuple oldTdId oldInfo oldTupleLen oldXid diffs
      record.ctid.offset.toNat = some page1) :
    ∃ h, page1.BroughtBack record.ctid.offset.toNat h
        (page.tds.take (page.tdsLeft record.ctid.offset.toNat oldTupleLen)) ∧
      h.tdId = oldTdId ∧ h.tdStatus = BitField.get 4 2 oldInfo := by
  have hbatch : ∀ ranges, record.data ≠ .heapBatchInsert ranges := by simp [hdata]
  have htyped := ht.typed
  rw [WellTyped, hdata] at htyped
  obtain ⟨htdId, hsize⟩ := htyped
  have hv := ht.valid hbatch
  have hroom := ht.room
  rw [readdTarget, hdata] at hroom
  set offset := record.ctid.offset.toNat with hoffset
  have hfields : ∀ m off, (header (undoActionOnTuple oldTdId oldInfo oldTupleLen
      oldXid diffs m off) off).tdId = oldTdId ∧ (header (undoActionOnTuple oldTdId
      oldInfo oldTupleLen oldXid diffs m off) off).tdStatus = BitField.get 4 2 oldInfo := by
    intro m off
    rw [header_undoActionOnTuple]
    exact ⟨Nat.mod_eq_of_lt htdId, tdStatus_mod_info oldInfo⟩
  obtain ⟨mem, -, -, hmem⟩ := page.detachOldTd_status oldTdId (page.getItemId offset).offset
  rw [undoInplaceTuple] at hundo
  simp only [hmem] at hundo
  split at hundo
  · simp at hundo
  split at hundo
  next hle =>
    -- the old version fits into the item
    rw [← Option.some.inj hundo, tdsLeft, if_pos (Or.inl hle), tdCount, take_length]
    have hn : (page.getItemId offset).isNormal := by
      apply ht.wf.normal_of_len offset hv
      unfold heapDiskTupHeaderSize at hsize
      omega
    exact ⟨_, ⟨hn, rfl, rfl⟩, hfields _ _⟩
  next hle =>
    split at hundo
    · rw [← Option.some.inj hundo]
      obtain ⟨hupper, hv', htds⟩ := inplaceReadd_target ht.wf hv hle oldTdId
      have hback := (addTuple_broughtBack hupper hv' (hroom _ _ (if_neg hle)) hsize
        (undoActionOnTuple oldTdId oldInfo oldTupleLen oldXid diffs (ofBytes
          (mem.load (page.getItemId offset).offset
            (getTupleSize page.mem (page.getItemId offset).offset))) 0)).2
      rw [htds, inplaceReadd, detachOldTd, hmem] at hback
      exact ⟨_, hback, hfields _ _⟩
    · simp at hundo

/-- So does the undo of an in-place update. -/
lemma executeUndoForInplaceUpdate_tdLinked_iff
    (hundo : page.executeUndoForInplaceUpdate record oldTdId oldInfo oldTupleLen oldXid diffs =
      some page') :
    (page'.getItemId record.ctid.offset.toNat).isNormal ∧
      (page'.TdLinked record.ctid.offset.toNat ↔ page.TdLinkSurvives record) := by
  rw [executeUndoForInplaceUpdate] at hundo
  cases hstep : page.undoInplaceTuple oldTdId oldInfo oldTupleLen oldXid diffs
      record.ctid.offset.toNat with
  | none =>
    simp only [hstep] at hundo
    simp at hundo
  | some page1 =>
    simp only [hstep, Option.some.injEq] at hundo
    subst hundo
    obtain ⟨h, hback, htdId, hstatus⟩ := undoInplaceTuple_broughtBack ht hdata hstep
    have hlt := ht.lt_tdsLeft record.ctid.offset.toNat oldTupleLen
    have hmarked := (hback.rollbackTd record).markHistory (page1.getTd record.tdId).xid
    rw [getTd_of_take hback.tds_eq hlt] at hmarked ⊢
    refine ⟨hmarked.normal, (hmarked.tdLinked_iff hlt (page.tdsLeft_le _ _) ht.occupied).trans ?_⟩
    rw [tdStatus_setStatus _ (historyStatus_lt (tdStatus_lt _)),
      historyStatus_eq_detach_iff, hstatus, htdId, TdLinkSurvives, hdata]

end

/-- An undone insert leaves no tuple. -/
lemma not_isNormal_undoInsert (hpos : 1 ≤ record.ctid.offset.toNat) :
    ¬ ((page.executeUndoForInsert record).getItemId record.ctid.offset.toNat).isNormal :=
  fun hn => ItemId.not_isUnused_of_isNormal hn (by
    show ((page.undoInsertAt _).getItemId _).isUnused
    rw [getItemId_undoInsertAt hpos]
    rfl)

/-- Neither does an undone batch insert. -/
lemma not_isNormal_undoBatchInsert {ranges : List (ℕ × ℕ)} (hpos : ∀ range ∈ ranges, 1 ≤ range.1)
    (hmem : offset ∈ rangeOffsets ranges) :
    ¬ ((page.executeUndoForBatchInsert record ranges).getItemId offset).isNormal := by
  have hremoved : RemovedAt page ((rangeOffsets ranges).foldl undoInsertAt page)
      (rangeOffsets ranges) := by
    apply foldl_undoInsertAt_removed
    intro o ho
    rw [rangeOffsets, mem_flatMap] at ho
    obtain ⟨range, hrange, ho⟩ := ho
    have := (mem_range'_1.mp ho).1
    have := hpos range hrange
    omega
  exact fun hn => ItemId.not_isUnused_of_isNormal hn (hremoved.isUnused hmem)

end Kinds

end DataPage

open DataPage

/-- When the tuples an undo brings back are detached or attached to a TD in use: exactly under
`TdLinkSurvives`. -/
theorem undo_tdLinked_iff (page : DataPage) (record : UndoRecord) (ht : page.UndoTarget record)
    (page' : DataPage) (hundo : page.undoHeap record = some page') :
    (∀ offset, record.isMatchedCtid offset = true → (page'.getItemId offset).isNormal = true →
      page'.TdLinked offset) ↔ page.TdLinkSurvives record := by
  have htyped := ht.typed
  -- the undo of an insert leaves no tuple that could be linked
  have hinsert : (∀ ranges, record.data ≠ .heapBatchInsert ranges) →
      ∀ offset, record.isMatchedCtid offset →
        ((page.executeUndoForInsert record).getItemId offset).isNormal →
        (page.executeUndoForInsert record).TdLinked offset := by
    intro hbatch
    rw [forall_isMatchedCtid hbatch]
    exact fun hn => absurd hn (not_isNormal_undoInsert (ht.valid hbatch).1)
  cases hdata : record.data with
  | heapInsert =>
    rw [TdLinkSurvives, hdata]
    rw [undoHeap, hdata] at hundo
    rw [← Option.some.inj hundo]
    exact iff_of_true (hinsert (by simp [hdata])) trivial
  | heapBatchInsert ranges =>
    rw [TdLinkSurvives, hdata]
    rw [undoHeap, hdata] at hundo
    rw [WellTyped, hdata] at htyped
    rw [← Option.some.inj hundo]
    refine iff_of_true (fun offset hmatch hn => ?_) trivial
    rw [isMatchedCtid, hdata] at hmatch
    exact absurd hn (not_isNormal_undoBatchInsert htyped (mem_rangeOffsets.mpr hmatch))
  | heapDelete tuple =>
    rw [forall_isMatchedCtid (by simp [hdata])]
    rw [undoHeap, hdata] at hundo
    obtain ⟨hn, hiff⟩ := executeUndoForDelete_tdLinked_iff ht hdata
    rw [← Option.some.inj hundo, ← hiff]
    exact forall_prop_of_true hn
  | heapInplaceUpdate oldTdId oldInfo oldTupleLen oldXid diffs =>
    rw [forall_isMatchedCtid (by simp [hdata])]
    rw [undoHeap, hdata] at hundo
    obtain ⟨hn, hiff⟩ := executeUndoForInplaceUpdate_tdLinked_iff ht hdata hundo
    rw [← hiff]
    exact forall_prop_of_true hn
  | heapSamePageAppendUpdate tuple =>
    rw [forall_isMatchedCtid (by simp [hdata]), TdLinkSurvives, hdata]
    rw [undoHeap, hdata] at hundo
    exact iff_of_true (fun _ => executeUndoForSamePageAppendUpdate_tdLinked ht hdata hundo) trivial
  | heapAnotherPageAppendUpdateOldPage newCtid tuple =>
    rw [forall_isMatchedCtid (by simp [hdata])]
    rw [undoHeap, hdata] at hundo
    obtain ⟨hn, hiff⟩ := executeUndoForOldPageAppendUpdate_tdLinked_iff ht hdata hundo
    rw [← hiff]
    exact forall_prop_of_true hn
  | heapAnotherPageAppendUpdateNewPage =>
    rw [TdLinkSurvives, hdata]
    rw [undoHeap, hdata] at hundo
    rw [← Option.some.inj hundo]
    exact iff_of_true (hinsert (by simp [hdata])) trivial
  | btree =>
    rw [undoHeap, hdata] at hundo
    simp at hundo

/-- The TD of the running transaction 7. -/
def runningTd : TD where
  xid := 7
  csn := invalidCsn
  undoRecPtr := ⟨⟨2, 2⟩, 2⟩
  lockerXid := invalidXid
  commandId := 3
  status := .occupyTrxInProgress
  csnStatus := .isInvalid

/-- The record of transaction 7 deleting, through TD 1, a detached tuple of transaction 5. -/
def deleteRecord : UndoRecord where
  ctid := ⟨⟨1, 1⟩, 1⟩
  cid := 3
  tdId := 1
  tdPreXid := invalidXid
  tdPreUndoPtr := invalidUndoRecPtr
  tdPreCsn := invalidCsn
  tdPreCsnStatus := .isInvalid
  data := .heapDelete [0, 0xFF, 16, 0, 5, 0, 0, 0, 0, 0, 0, 0, 0x20, 0, 0, 0]

/-- Rolling the delete back detaches the tuple again, since its TD 0 is not in use. -/
theorem undo_tdLinked_of_delete :
    ∃ page', (singleTuplePage [TD.reset, runningTd] ⟨1, 0xFF, 16, 7, 0x40⟩).undoHeap deleteRecord =
        some page' ∧
      ∀ offset, deleteRecord.isMatchedCtid offset = true →
        (page'.getItemId offset).isNormal = true → page'.TdLinked offset := by
  have htyped : deleteRecord.WellTyped := le_refl 16
  refine ⟨_, rfl, (undo_tdLinked_iff _ deleteRecord ⟨by decide, htyped, by decide, by decide,
    by decide, fun _ => ⟨by decide, by decide⟩, fun _ => by decide, ?_⟩ _ rfl).mpr ?_⟩
  · intro target size h
    rw [readdTarget] at h
    simp [deleteRecord, singleTuplePage, getItemId, ItemId.isNormal] at h
  · exact Or.inl (by decide)

/-- The TD of transaction 5, which has committed with csn 3. -/
def endedTd : TD where
  xid := 5
  csn := 3
  undoRecPtr := ⟨⟨1, 7⟩, 40⟩
  lockerXid := invalidXid
  commandId := firstCid
  status := .occupyTrxEnd
  csnStatus := .isCurXidCsn

/-- Transaction 5 has committed with csn 3, all others with csn 20. -/
def committedEnv : TxnEnv where
  slotStatus := fun xid => ⟨.committed, if xid = 5 then 3 else 20⟩
  isXidRecycled := fun _ => false
  undoRecord := fun _ => deleteRecord
  isZoneOwned := fun _ => true
  needWaitPendingTxn := fun _ => true
  waitForTransactionEnd := fun _ => none

/-- A tuple of 32 zero bytes. -/
def zeroTuple : HeapTuple where
  diskTuple := fun _ => 0
  size := 32
  header_le := by decide
  size_le := by decide

/-- Transaction 7 updates the tuple of transaction 5 in place and commits; TDs of transactions
that every snapshot sees are reset, with 10 as the bound; a reader with an older snapshot than
transaction 7 then undoes the update. -/
def undoAfterReset : Option DataPage := do
  let (page₁, record) ← (HeapOp.inplaceUpdate 1 zeroTuple).modify ⟨1, 7, 3⟩
    (singleTuplePage [endedTd, TD.reset] ⟨0, 0xFF, 32, 5, 0⟩)
  let (page₂, _) ← (page₁.setTd 1 7 ⟨⟨2, 2⟩, 2⟩ 3).tryReuseTdSlots committedEnv
    (TDAllocContext.begin 10 false) 1
  page₂.undoHeap record

/-- The tuple comes back attached to TD 0, which has been reset. -/
theorem undo_attaches_to_reset_td :
    ∃ page', undoAfterReset = some page' ∧ (page'.getItemId 1).isNormal = true ∧
      (page'.tupleHeader 1).tdId = 0 ∧ page'.getTd 0 = TD.reset ∧ ¬ page'.TdLinked 1 := by
  have hrun : undoAfterReset.map (fun page' => ((page'.getItemId 1).isNormal,
      (page'.tupleHeader 1).tdId, page'.getTd 0, decide (page'.TdLinked 1))) =
      some (true, 0, TD.reset, false) := by decide +kernel
  obtain ⟨page', hpage', hvalues⟩ := Option.map_eq_some_iff.mp hrun
  simp only [Prod.mk.injEq, decide_eq_false_iff_not] at hvalues
  exact ⟨page', hpage', hvalues⟩

end DStore
