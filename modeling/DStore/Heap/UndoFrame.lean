import DStore.Heap.OpFrame

/-!
# What undo keeps

`UndoHeap` of a record that an operation wrote leaves a well-formed page and touches only the
tuples the record names, as long as the page has the room an old version needs. The tuple it
brings back has no locker, or the one the page had.
-/

namespace DStore

open HeapDiskTuple Option ByteMem UndoRecord

namespace DataPage

/-- `q` is `page` with a tuple of header `h` in place of the tuple at `offset`. -/
structure Replaced (page q : DataPage) (offset : ℕ) (h : HeapTupleHeader) : Prop where
  valid : page.ValidOffset offset
  type_eq : q.type = page.type
  layout : q.Layout
  getMaxOffset_eq : q.getMaxOffset = page.getMaxOffset
  frame : TupleFrame page q (· = offset)
  normal : (q.getItemId offset).isNormal = true
  header_eq : q.tupleHeader offset = h
  header_le : heapDiskTupHeaderSize ≤ h.size
  size_le : h.size ≤ (q.getItemId offset).len

section Replaced

variable {page q : DataPage} {offset : ℕ} {h : HeapTupleHeader}

variable {mem image : ByteMem} {size : ℕ} {diffs : List DiffSection}

lemma Replaced.valid' (hrep : Replaced page q offset h) : q.ValidOffset offset :=
  hrep.valid.mono hrep.getMaxOffset_eq.ge

/-- A change of a TD leaves items and tuple space. -/
lemma SameSpace.putTd (page : DataPage) (tdId : ℕ) (td : TD) :
    SameSpace page (page.putTd tdId td) :=
  ⟨rfl, rfl, rfl, rfl, rfl, by simp [DataPage.putTd, tdCount]⟩

/-- Rolling a TD back does not touch the tuples. -/
lemma Replaced.rollbackTd (hrep : Replaced page q offset h) (record : UndoRecord) :
    Replaced page (q.rollbackTd record) offset h :=
  ⟨hrep.valid, hrep.type_eq, (SameSpace.putTd q _ _).layout hrep.layout, hrep.getMaxOffset_eq,
    hrep.frame.trans (TupleFrame.of_eq rfl rfl), hrep.normal, hrep.header_eq, hrep.header_le,
    hrep.size_le⟩

/-- A later change of the td status stays within the replaced tuple. -/
lemma Replaced.statusEdit (hrep : Replaced page q offset h) {s : ℕ}
    (hedit : HeapDiskTuple.StatusEdit (q.getItemId offset).offset q.mem mem s) :
    Replaced page (q.withMem mem) offset { h with info := BitField.set 4 2 s h.info } := by
  have hlen := le_trans hrep.header_le hrep.size_le
  have hframe : TupleFrame q (q.withMem mem) (· = offset) :=
    TupleFrame.of_sameOutside hrep.layout hrep.valid' hrep.normal rfl
      (hedit.edit.mono le_rfl (by omega))
  refine ⟨hrep.valid, hrep.type_eq, hrep.layout.of_items rfl rfl rfl rfl rfl fun _ _ _ => rfl,
    hrep.getMaxOffset_eq, hrep.frame.trans hframe, hrep.normal, ?_, hrep.header_le, hrep.size_le⟩
  rw [← hrep.header_eq]
  exact hedit.header_eq

/-- The last step of an undo changes the info word only. -/
lemma Replaced.markHistory (hrep : Replaced page q offset h) (curXid : Xid) :
    ∃ info, Replaced page (q.markHistory curXid offset) offset { h with info := info } := by
  obtain ⟨mem, hmark, hedit⟩ := q.markHistory_status curXid offset
  rw [hmark]
  exact ⟨_, hrep.statusEdit hedit⟩

section

variable (hwf : page.HeapWellFormed) (hv : page.ValidOffset offset)
    (hn : (page.getItemId offset).isNormal)
include hwf hv hn

/-- A tuple written inside its own item replaces the old one. -/
lemma replaced_of_sameOutside (hmem : SameOutside (page.getItemId offset).offset
      ((page.getItemId offset).offset + (page.getItemId offset).len) page.mem mem)
    (hheader : header mem (page.getItemId offset).offset = h) (hle : heapDiskTupHeaderSize ≤ h.size)
    (hsize : h.size ≤ (page.getItemId offset).len) :
    Replaced page (page.withMem mem) offset h :=
  ⟨hv, rfl, hwf.layout.of_items rfl rfl rfl rfl rfl fun _ _ _ => rfl, rfl,
    TupleFrame.of_sameOutside hwf.layout hv hn rfl hmem, hn, hheader, hle, hsize⟩

/-- An image that fits into the item replaces the tuple in place. -/
lemma replaced_blit (hsize : (header image 0).size = size) (hle : heapDiskTupHeaderSize ≤ size)
    (hlen : size ≤ (page.getItemId offset).len) :
    Replaced page (page.withMem (page.mem.blit (page.getItemId offset).offset image 0 size)) offset
      (header image 0) := by
  refine replaced_of_sameOutside hwf hv hn ?_ ?_ (by rw [hsize]; exact hle)
    (by rw [hsize]; exact hlen)
  · exact (sameOutside_blit _ _ _ _ _).mono le_rfl (by omega)
  · apply header_congr
    intro i hi
    exact blit_add (lt_of_lt_of_le hi hle)

end

/-- Placing an image as the new tuple at `offset`. -/
lemma replaced_place {q0 : DataPage} (hheap : page.type = .heap) (hv : page.ValidOffset offset)
    (htype : q0.type = page.type) (hlayout : q0.Layout) (hmax : q0.getMaxOffset = page.getMaxOffset)
    (hframe : TupleFrame page q0 (· = offset)) (hsize : (header image 0).size = size)
    (hle : heapDiskTupHeaderSize ≤ size) (hfits : q0.Fits size offset) :
    Replaced page (q0.placeTuple image size offset) offset (header image 0) := by
  have hmax' : offset ≤ q0.getMaxOffset + 1 := by
    rw [hmax]
    exact Nat.le_succ_of_le hv.2
  have hitem : (q0.placeTuple image size offset).getItemId offset =
      ⟨.normal, q0.upper - size, size⟩ := getItemId_placeTuple hlayout.upper_lt hfits hv.1 hmax'
  refine ⟨hv, htype, placeTuple_layout hlayout hv.1 hmax' hfits ?_, ?_,
    hframe.trans (placeTuple_frame hlayout hv.1 hmax' hfits), by rw [hitem]; rfl, ?_,
    by rw [hsize]; exact hle, by rw [hsize, hitem]⟩
  · rw [htype, hheap]
    exact hle
  · rw [placeTuple_getMaxOffset hmax', hmax]
    exact max_eq_left hv.2
  · rw [tupleHeader, hitem]
    exact header_of_image (fun _ hi => placeTuple_mem hlayout.upper_lt hfits hi) hle

end Replaced

/-! ## Shrinking an item -/

section Shrink

variable {page q : DataPage} {offset len : ℕ} {h : HeapTupleHeader}

/-- An item may give up bytes behind its tuple. -/
lemma Layout.putItemId_setLen (hlayout : page.Layout) (hv : page.ValidOffset offset)
    (hs : (page.getItemId offset).isStored) (hle : len ≤ (page.getItemId offset).len)
    (hheader : page.type.tupleHeaderSize ≤ len) :
    (page.putItemId offset ((page.getItemId offset).setLen len)).Layout := by
  refine hlayout.of_within (by rw [putItemId_lower]; exact hlayout.lower_le_upper) le_rfl rfl
    fun offset' hv' hs' => ?_
  have hvalid : page.ValidOffset offset' := by
    rwa [ValidOffset, putItemId_getMaxOffset] at hv'
  by_cases hoff : offset' = offset
  · rw [hoff, getItemId_putItemId_self hv]
    exact ⟨hv, hs, rfl, hle, hheader⟩
  · rw [getItemId_putItemId_of_ne hv.1 hvalid.1 (Ne.symm hoff)] at hs' ⊢
    exact ⟨hvalid, hs', rfl, le_rfl, hlayout.header_le offset' hvalid hs'⟩

/-- An item may be cut to the size of the tuple in it. -/
lemma Replaced.shrink (hrep : Replaced page q offset h) (hheap : page.type = .heap) :
    Replaced page (q.putItemId offset ((q.getItemId offset).setLen h.size)) offset h := by
  have hself := getItemId_putItemId_self hrep.valid' ((q.getItemId offset).setLen h.size)
  refine ⟨hrep.valid, hrep.type_eq, ?_, by rw [putItemId_getMaxOffset]; exact hrep.getMaxOffset_eq,
    hrep.frame.trans (TupleFrame.putItemId hrep.valid.1 _), by rw [hself]; exact hrep.normal, ?_,
    hrep.header_le, by rw [hself]; exact le_rfl⟩
  · refine hrep.layout.putItemId_setLen hrep.valid' (isStored_of_isNormal hrep.normal)
      hrep.size_le ?_
    rw [hrep.type_eq, hheap]
    exact hrep.header_le
  · rw [tupleHeader, hself]
    exact hrep.header_eq

end Shrink

/-! ## The kinds of undo -/

/-- What `UndoHeap` leaves. -/
structure UndoFrame (page page' : DataPage) (record : UndoRecord) : Prop where
  wf : page'.HeapWellFormed
  tds_eq : page'.tds = (page.rollbackTd record).tds
  getMaxOffset_eq : page'.getMaxOffset = page.getMaxOffset
  frame : TupleFrame page page' (record.isMatchedCtid · = true)
  locker : ∀ offset, record.isMatchedCtid offset = true →
    (page'.getItemId offset).isNormal = true →
    (page'.tupleHeader offset).lockerTdId = invalidTdSlot ∨
      ((page.getItemId offset).isNormal = true ∧
        (page'.tupleHeader offset).lockerTdId = (page.tupleHeader offset).lockerTdId)

section Kinds

variable {page page' q : DataPage} {record : UndoRecord} {offset : ℕ} {h : HeapTupleHeader}

/-- An undo that replaces its tuple and rolls its TD back has the frame of an undo. -/
lemma Replaced.undoFrame (hwf : page.HeapWellFormed) (hrep : Replaced page page' offset h)
    (hmatch : ∀ offset', record.isMatchedCtid offset' ↔ offset' = offset)
    (htds : page'.tds = (page.rollbackTd record).tds)
    (hlocker : h.lockerTdId = invalidTdSlot ∨ ((page.getItemId offset).isNormal ∧
      h.lockerTdId = (page.tupleHeader offset).lockerTdId)) : UndoFrame page page' record := by
  have hsame : (fun offset' => record.isMatchedCtid offset' = true) = (· = offset) :=
    funext fun offset' => propext (hmatch offset')
  refine ⟨?_, htds, hrep.getMaxOffset_eq, by rw [hsame]; exact hrep.frame, ?_⟩
  · refine hwf.of_frame hrep.type_eq hrep.layout hrep.frame
      (fun offset' hv => Or.inl (hv.mono hrep.getMaxOffset_eq.le)) fun offset' _ hoff => ?_
    rw [hoff, TupleSound, hrep.header_eq]
    exact ⟨fun _ => hrep.normal, fun _ => ⟨hrep.header_le, hrep.size_le⟩⟩
  · intro offset' hm _
    rw [(hmatch offset').mp hm, hrep.header_eq]
    exact hlocker

/-- Undo that takes tuples away. -/
lemma RemovedAt.undoFrame {offsets : List ℕ} (hwf : page.HeapWellFormed)
    (hrem : RemovedAt page q offsets)
    (hmatch : ∀ offset', record.isMatchedCtid offset' ↔ offset' ∈ offsets) :
    UndoFrame page (q.setTuplePrunable.setHasFreeItemId.rollbackTd record) record := by
  have hunused : ∀ offset' ∈ offsets, (q.setTuplePrunable.setHasFreeItemId.rollbackTd
      record).getItemId offset' = ItemId.unused := hrem.removed
  have hnot : ∀ offset' ∈ offsets, ¬ (q.getItemId offset').isStored := fun offset' hmem hs => by
    rw [hrem.removed offset' hmem] at hs
    exact absurd hs (by decide)
  have htds : (q.setTuplePrunable.setHasFreeItemId.rollbackTd record).tds =
      (page.rollbackTd record).tds := rollbackTd_tds_congr hrem.tds_eq record
  have hframe : TupleFrame page (q.setTuplePrunable.setHasFreeItemId.rollbackTd record)
      (· ∈ offsets) :=
    ⟨hrem.getMaxOffset_eq.ge, fun offset' hv hout => hrem.kept offset' hv.1 hout,
      fun _ _ _ _ _ _ => congrFun hrem.mem_eq _⟩
  have hlayout : q.Layout := by
    refine hwf.layout.of_items hrem.type_eq ?_ hrem.upper_eq hrem.special_eq hrem.getMaxOffset_eq
      fun offset' hv hs => hrem.kept offset' hv.1 fun hmem => hnot offset' hmem hs
    rw [lower, lower, hrem.type_eq, hrem.tds_eq, ← getMaxOffset, ← getMaxOffset,
      hrem.getMaxOffset_eq]
  have hspace : SameSpace q (q.setTuplePrunable.setHasFreeItemId.rollbackTd record) :=
    ⟨rfl, rfl, rfl, rfl, rfl, List.length_set⟩
  have hsame : (fun offset' => record.isMatchedCtid offset' = true) = (· ∈ offsets) :=
    funext fun offset' => propext (hmatch offset')
  refine ⟨?_, htds, hrem.getMaxOffset_eq, by rw [hsame]; exact hframe, ?_⟩
  · refine hwf.of_frame hrem.type_eq (hspace.layout hlayout) hframe
      (fun offset' hv => Or.inl (hv.mono hrem.getMaxOffset_eq.le)) fun offset' hv hmem => ?_
    rw [TupleSound, hunused offset' hmem]
    exact ⟨fun hlen => absurd rfl hlen, fun hn => absurd hn (by decide)⟩
  · intro offset' hm hn
    exact absurd (isStored_of_isNormal hn) (hnot offset' ((hmatch offset').mp hm))

/-- A tuple no larger than the free space can be placed. -/
lemma fits_of_getFreeSpaceRaw {size : ℕ} (hv : page.ValidOffset offset)
    (hle : heapDiskTupHeaderSize ≤ size) (hspace : size ≤ page.getFreeSpaceRaw) :
    page.Fits size offset := by
  have hmax := hv.2
  rw [getFreeSpaceRaw] at hspace
  rw [Fits, lowerWith, if_neg (by omega)]
  unfold heapDiskTupHeaderSize at hle
  omega

/-- `RestoreTuple` puts the image into the item, or into free space if it is too large for it. -/
lemma restoreTuple_replaced (hwf : page.HeapWellFormed) (hv : page.ValidOffset offset)
    {image : ByteMem} {size : ℕ} (hsize : (header image 0).size = size)
    (hle : heapDiskTupHeaderSize ≤ size)
    (hroom : ¬ ((page.getItemId offset).isNormal && size ≤ (page.getItemId offset).len) →
      size ≤ page.getFreeSpaceRaw) :
    (page.restoreTuple offset image size).2 = offset ∧
      (page.restoreTuple offset image size).1.tds = page.tds ∧
      Replaced page (page.restoreTuple offset image size).1 offset (header image 0) := by
  rw [restoreTuple]
  by_cases hover : ((page.getItemId offset).isNormal && size ≤ (page.getItemId offset).len)
  · rw [if_pos hover]
    rw [Bool.and_eq_true, decide_eq_true_eq] at hover
    exact ⟨rfl, rfl, replaced_blit hwf hv hover.1 hsize hle hover.2⟩
  · have hspace := hroom hover
    have hfits := fits_of_getFreeSpaceRaw hv hle hspace
    rw [if_neg hover, compactCRPage_of_le hspace,
      addTuple_of_fits hwf.layout.upper_lt (Nat.one_le_iff_ne_zero.mp hv.1) hfits]
    exact ⟨rfl, rfl, replaced_place hwf.heap hv rfl hwf.layout rfl (TupleFrame.of_eq rfl rfl)
      hsize hle
      hfits⟩

variable {tuple : List UInt8}

section

variable (hwf : page.HeapWellFormed)
  (hv : page.ValidOffset record.ctid.offset.toNat)
  (hrestorable : record.Restorable)
include hwf hv hrestorable

/-- Undoing a delete changes the deleted tuple and the TD of the record. -/
lemma executeUndoForDelete_frame (hdata : record.data = .heapDelete tuple)
    (hroom : ∀ target size, page.readdTarget record = some (target, size) →
      size ≤ page.getFreeSpaceRaw) :
    UndoFrame page (page.executeUndoForDelete record tuple) record := by
  rw [Restorable, hdata] at hrestorable
  obtain ⟨hle, hsize, hlocker⟩ := hrestorable
  have hstatus := page.undoDeleteImage_status record (ofBytes tuple)
  obtain ⟨_, htds, hrep⟩ := restoreTuple_replaced hwf hv
    (show (header (page.undoDeleteImage record (ofBytes tuple)) 0).size = _ by
      rw [hstatus.header_eq]; exact hsize) hle
    (fun hover => hroom _ _ (by rw [readdTarget, hdata]; exact if_neg hover))
  refine (hrep.rollbackTd record).undoFrame hwf ?_ (rollbackTd_tds_congr htds record) (Or.inl ?_)
  · exact fun _ => isMatchedCtid_iff (by simp [hdata])
  · rw [hstatus.header_eq]
    exact hlocker

/-- Undo of the old-page half of an update to another page. -/
lemma executeUndoForOldPageAppendUpdate_frame {newCtid : ItemPointerData}
    (hdata : record.data = .heapAnotherPageAppendUpdateOldPage newCtid tuple)
    (hroom : ∀ target size, page.readdTarget record = some (target, size) →
      size ≤ page.getFreeSpaceRaw)
    (hundo : page.executeUndoForOldPageAppendUpdate record tuple = some page') :
    UndoFrame page page' record := by
  rw [Restorable, hdata] at hrestorable
  obtain ⟨hle, hsize, hlocker⟩ := hrestorable
  have hstatus := page.detachImage_status (ofBytes tuple)
  obtain ⟨hoffset, htds, hrep⟩ := restoreTuple_replaced hwf hv
    (show (header (page.detachImage (ofBytes tuple)) 0).size = _ by
      rw [hstatus.header_eq]; exact hsize) hle
    (fun hover => hroom _ _ (by rw [readdTarget, hdata]; exact if_neg hover))
  rw [executeUndoForOldPageAppendUpdate] at hundo
  simp only [hoffset, if_true, some.injEq] at hundo
  subst hundo
  obtain ⟨info, hmarked⟩ := (hrep.rollbackTd record).markHistory
    ((page.restoreTuple record.ctid.offset.toNat (page.detachImage (ofBytes tuple))
      tuple.length).1.getTd record.tdId).xid
  refine hmarked.undoFrame hwf ?_ ?_ (Or.inl ?_)
  · exact fun _ => isMatchedCtid_iff (by simp [hdata])
  · rw [markHistory_tds]
    exact rollbackTd_tds_congr htds record
  · rw [hstatus.header_eq]
    exact hlocker

/-- Undo of an update to a new place on the same page. -/
lemma executeUndoForSamePageAppendUpdate_frame
    (hdata : record.data = .heapSamePageAppendUpdate tuple)
    (hundo : page.executeUndoForSamePageAppendUpdate record tuple = some page') :
    UndoFrame page page' record := by
  rw [Restorable, hdata] at hrestorable
  obtain ⟨hle, hsize, hlocker⟩ := hrestorable
  set offset := record.ctid.offset.toNat with hoffset
  set rolled := page.rollbackTd record with hrolled
  have hstatus := rolled.detachImage_status (ofBytes tuple)
  set image := rolled.detachImage (ofBytes tuple) with himage
  have himageSize : (header image 0).size = tuple.length := by
    rw [hstatus.header_eq]
    exact hsize
  rw [executeUndoForSamePageAppendUpdate_eq hoffset.symm] at hundo
  split_ifs at hundo with hlen
  obtain rfl := some.inj hundo
  have hn : (page.getItemId offset).isNormal := by
    apply hwf.normal_of_len offset hv
    unfold heapDiskTupHeaderSize at hle
    omega
  have hrep : Replaced page (rolled.withMem
      (page.mem.blit (page.getItemId offset).offset image 0 tuple.length)) offset
      (header image 0) :=
    (replaced_blit hwf hv hn himageSize hle hlen).rollbackTd record
  have hshrunk := hrep.shrink hwf.heap
  rw [himageSize] at hshrunk
  obtain ⟨info, hmarked⟩ := hshrunk.markHistory (page.getTd record.tdId).xid
  refine hmarked.undoFrame hwf ?_ ?_ (Or.inl ?_)
  · exact fun _ => isMatchedCtid_iff (by simp [hdata])
  · exact markHistory_tds _ _ _
  · rw [hstatus.header_eq]
    exact hlocker

end

/-- The undo of an in-place update sets the old size and keeps the locker. -/
lemma header_undoActionOnTuple_size (m : ByteMem) (off oldTdId oldInfo : ℕ) (oldXid : Xid)
    {oldLen : ℕ} {diffs : List DiffSection}
    (hwithin : DiffsWithin (oldLen - heapDiskTupHeaderSize) diffs)
    (hold : heapDiskTupHeaderSize ≤ oldLen) (hlt : oldLen < 256 ^ 2)
    (hnew : heapDiskTupHeaderSize ≤ (header m off).size) :
    (header (undoActionOnTuple oldTdId oldInfo oldLen oldXid diffs m off) off).size =
        oldLen ∧
      (header (undoActionOnTuple oldTdId oldInfo oldLen oldXid diffs m off)
        off).lockerTdId = (header m off).lockerTdId := by
  have hkept := congrArg HeapTupleHeader.lockerTdId (header_applyDiffs hwithin hold hnew)
  rw [header_undoActionOnTuple]
  exact ⟨Nat.mod_eq_of_lt hlt, hkept⟩

/-- A tuple whose item loses its storage leaves the other tuples alone. -/
lemma dropTuple_frame (hwf : page.HeapWellFormed) (hv : page.ValidOffset offset)
    (hn : (page.getItemId offset).isNormal) {mem : ByteMem}
    (hmem : HeapDiskTuple.HeaderEdit (page.getItemId offset).offset page.mem mem) {item : ItemId}
    (hitem : item.isStored = false) :
    ((page.withMem mem).putItemId offset item).Layout ∧
      TupleFrame page ((page.withMem mem).putItemId offset item) (· = offset) := by
  have hlen := hwf.header_le_len hv hn
  have hself : ((page.withMem mem).putItemId offset item).getItemId offset = item :=
    getItemId_putItemId_self (show (page.withMem mem).ValidOffset offset from hv) item
  have hframe : TupleFrame page (page.withMem mem) (· = offset) :=
    TupleFrame.of_sameOutside hwf.layout hv hn rfl (hmem.mono le_rfl (by omega))
  refine ⟨hwf.layout.of_items rfl (putItemId_lower _ _) rfl rfl (putItemId_getMaxOffset _ _) ?_,
    hframe.trans (TupleFrame.putItemId hv.1 item)⟩
  intro offset' hv' hs
  by_cases hoff : offset' = offset
  · rw [hoff, hself, hitem] at hs
    exact absurd hs (by decide)
  · exact getItemId_putItemId_of_ne hv.1 hv'.1 (Ne.symm hoff) item

/-- Step 1 of the undo of an in-place update. -/
lemma undoInplaceTuple_replaced {oldTdId oldInfo oldTupleLen : ℕ} {oldXid : Xid}
    {diffs : List DiffSection} (hwf : page.HeapWellFormed) (hv : page.ValidOffset offset)
    (hle : heapDiskTupHeaderSize ≤ oldTupleLen) (hlt : oldTupleLen < 256 ^ 2)
    (hwithin : DiffsWithin (oldTupleLen - heapDiskTupHeaderSize) diffs)
    (hroom : ¬ oldTupleLen ≤ (page.getItemId offset).len → oldTupleLen ≤ page.getFreeSpaceRaw)
    (hundo : page.undoInplaceTuple oldTdId oldInfo oldTupleLen oldXid diffs offset = some q) :
    ∃ h, Replaced page q offset h ∧ q.tds = page.tds ∧ (page.getItemId offset).isNormal ∧
      h.lockerTdId = (page.tupleHeader offset).lockerTdId := by
  set off := (page.getItemId offset).offset with hoff
  -- the td status written first keeps size and locker
  obtain ⟨m, s, hedit, hm⟩ := page.detachOldTd_status oldTdId off
  rw [undoInplaceTuple] at hundo
  simp only [← hoff, hm, withMem_mem] at hundo
  have hheader : (header m off).size = (page.tupleHeader offset).size ∧
      (header m off).lockerTdId = (page.tupleHeader offset).lockerTdId := by
    rw [hedit.header_eq]
    exact ⟨rfl, rfl⟩
  split at hundo
  · simp at hundo
  split at hundo
  next hfit =>
    rw [← some.inj hundo]
    have hn : (page.getItemId offset).isNormal := by
      apply hwf.normal_of_len offset hv
      unfold heapDiskTupHeaderSize at hle
      omega
    obtain ⟨hsizeLe, hlen⟩ := (hwf.sound hv).2 hn
    obtain ⟨hsize, hlocker⟩ :=
      header_undoActionOnTuple_size m off oldTdId oldInfo oldXid hwithin hle
      hlt (by rw [hheader.1]; exact hsizeLe)
    have haction := undoActionOnTuple_sameOutside hwithin oldTdId oldInfo oldXid hle
      (show getTupleSize m off = (page.tupleHeader offset).size from hheader.1) hsizeLe
    refine ⟨_, replaced_of_sameOutside hwf hv hn ?_ rfl (by rw [← hoff, hsize]; exact hle)
      (by rw [← hoff, hsize]; exact hfit), rfl, hn, by rw [← hoff, hlocker, hheader.2]⟩
    exact (hedit.edit.mono le_rfl (by omega)).trans (haction.mono le_rfl (by omega))
  next hfit =>
    have hspace := hroom hfit
    split at hundo
    next hvalid =>
      rw [isValidOffset, decide_eq_true_eq] at hvalid
      have hn := hwf.normal_of_len offset hv hvalid.2
      have hsizeLe := ((hwf.sound hv).2 hn).1
      obtain ⟨hlayout, hframe⟩ := dropTuple_frame hwf hv hn hedit.edit
        (show ((page.getItemId offset).setNoStorage.setTdStatus .detachTd).isStored = false
          from rfl)
      set q0 := (page.withMem m).putItemId offset
        ((page.getItemId offset).setNoStorage.setTdStatus .detachTd) with hq0
      set copy := ofBytes (m.load off (getTupleSize page.mem off)) with hcopy
      have hcopied : header copy 0 = header m off := by
        apply header_congr
        intro i hi
        rw [Nat.zero_add]
        exact ofBytes_load (lt_of_lt_of_le hi hsizeLe)
      obtain ⟨hsize, hlocker⟩ := header_undoActionOnTuple_size copy 0 oldTdId oldInfo oldXid hwithin
        hle hlt (by rw [hcopied, hheader.1]; exact hsizeLe)
      have hmax : q0.getMaxOffset = page.getMaxOffset := putItemId_getMaxOffset _ _
      have hspace0 : oldTupleLen ≤ q0.getFreeSpaceRaw := by
        rw [getFreeSpaceRaw, hq0, putItemId_lower]
        exact hspace
      have hfits := fits_of_getFreeSpaceRaw (hv.mono hmax.ge) hle hspace0
      rw [compactCRPage_of_le hspace0, addTuple_of_fits hlayout.upper_lt
        (Nat.one_le_iff_ne_zero.mp hv.1) hfits] at hundo
      rw [← some.inj hundo]
      exact ⟨_, replaced_place hwf.heap hv (show q0.type = page.type from rfl)
        hlayout hmax hframe hsize hle
        hfits, rfl, hn,
        by rw [hlocker, hcopied, hheader.2]⟩
    · simp at hundo

/-- `UndoHeap` of a record an operation wrote, on a page with the room it needs. -/
theorem undoHeap_frame (hwf : page.HeapWellFormed) (hrestorable : record.Restorable)
    (hvalid : ∀ offset, record.isMatchedCtid offset → page.ValidOffset offset)
    (hroom : ∀ target size, page.readdTarget record = some (target, size) →
      size ≤ page.getFreeSpaceRaw)
    (hundo : page.undoHeap record = some page') : UndoFrame page page' record := by
  -- all kinds but the batch insert name one tuple
  have hsingle : (∀ ranges, record.data ≠ .heapBatchInsert ranges) →
      (∀ offset, record.isMatchedCtid offset ↔ offset = record.ctid.offset.toNat) ∧
        page.ValidOffset record.ctid.offset.toNat := by
    intro hdata
    have hmatch : ∀ offset, record.isMatchedCtid offset ↔ offset = record.ctid.offset.toNat :=
      fun _ => isMatchedCtid_iff hdata
    exact ⟨hmatch, hvalid _ ((hmatch _).mpr rfl)⟩
  have hinsert : (∀ ranges, record.data ≠ .heapBatchInsert ranges) →
      UndoFrame page (page.executeUndoForInsert record) record := by
    intro hdata
    obtain ⟨hmatch, hv⟩ := hsingle hdata
    have hremoved : RemovedAt page ([record.ctid.offset.toNat].foldl undoInsertAt page)
        [record.ctid.offset.toNat] :=
      foldl_undoInsertAt_removed (fun o ho => by rw [List.mem_singleton.mp ho]; exact hv.1) page
    exact hremoved.undoFrame hwf (fun offset => by rw [hmatch, List.mem_singleton])
  rw [undoHeap] at hundo
  cases hdata : record.data with
  | heapInsert =>
    simp only [hdata, some.injEq] at hundo
    exact hundo ▸ hinsert (by simp [hdata])
  | heapAnotherPageAppendUpdateNewPage =>
    simp only [hdata, some.injEq] at hundo
    exact hundo ▸ hinsert (by simp [hdata])
  | heapBatchInsert ranges =>
    simp only [hdata, some.injEq] at hundo
    have hmatch : ∀ offset, record.isMatchedCtid offset ↔ offset ∈ rangeOffsets ranges := by
      intro offset
      rw [mem_rangeOffsets, isMatchedCtid, hdata]
    have hremoved : RemovedAt page ((rangeOffsets ranges).foldl undoInsertAt page)
        (rangeOffsets ranges) :=
      foldl_undoInsertAt_removed (fun o ho => (hvalid o ((hmatch o).mpr ho)).1) page
    exact hundo ▸ hremoved.undoFrame hwf hmatch
  | heapDelete tuple =>
    simp only [hdata, some.injEq] at hundo
    exact hundo ▸ executeUndoForDelete_frame hwf (hsingle (by simp [hdata])).2 hrestorable hdata
      hroom
  | heapInplaceUpdate oldTdId oldInfo oldTupleLen oldXid diffs =>
    obtain ⟨hmatch, hv⟩ := hsingle (by simp [hdata])
    simp only [hdata] at hundo
    rw [Restorable, hdata] at hrestorable
    obtain ⟨hle, hlt, hwithin⟩ := hrestorable
    rw [executeUndoForInplaceUpdate] at hundo
    cases hstep : page.undoInplaceTuple oldTdId oldInfo oldTupleLen oldXid diffs
        record.ctid.offset.toNat with
    | none =>
      simp only [hstep] at hundo
      exact absurd hundo (by simp)
    | some q =>
      obtain ⟨h, hrep, htds, hn, hlocker⟩ := undoInplaceTuple_replaced hwf hv hle hlt hwithin
        (fun hfit => hroom _ _ (by rw [readdTarget, hdata]; exact if_neg hfit)) hstep
      simp only [hstep, some.injEq] at hundo
      obtain ⟨info, hmarked⟩ := (hrep.rollbackTd record).markHistory (q.getTd record.tdId).xid
      rw [hundo] at hmarked
      refine hmarked.undoFrame hwf hmatch ?_ (Or.inr ⟨hn, hlocker⟩)
      rw [← hundo, markHistory_tds]
      exact rollbackTd_tds_congr htds record
  | heapSamePageAppendUpdate tuple =>
    simp only [hdata] at hundo
    exact executeUndoForSamePageAppendUpdate_frame hwf (hsingle (by simp [hdata])).2 hrestorable
      hdata
      hundo
  | heapAnotherPageAppendUpdateOldPage newCtid tuple =>
    simp only [hdata] at hundo
    exact executeUndoForOldPageAppendUpdate_frame hwf (hsingle (by simp [hdata])).2 hrestorable
      hdata
      hroom hundo
  | btree =>
    simp only [hdata] at hundo
    simp at hundo

end Kinds

end DataPage

end DStore
