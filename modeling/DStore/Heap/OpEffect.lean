import DStore.Heap.UndoTuple

/-!
# What the operations leave on the page

The effect of each delete and update as a change of one tuple, together with the undo record
it forms.
-/

namespace DStore

open HeapDiskTuple

namespace DataPage

/-- `p` is `page` up to TDs and header flags. -/
structure SameSpace (page p : DataPage) : Prop where
  type_eq : p.type = page.type
  special_eq : p.special = page.special
  upper_eq : p.upper = page.upper
  items_eq : p.items = page.items
  mem_eq : p.mem = page.mem
  tdCount_eq : p.tdCount = page.tdCount

section SameSpace

variable {page p : DataPage}

lemma SameSpace.refl (page : DataPage) : SameSpace page page := ⟨rfl, rfl, rfl, rfl, rfl, rfl⟩

lemma SameSpace.setTd (page : DataPage) (tdId : ℕ) (xid : Xid) (undoPtr : UndoRecPtr) (cid : ℕ) :
    SameSpace page (page.setTd tdId xid undoPtr cid) :=
  ⟨rfl, rfl, rfl, rfl, rfl, by simp [DataPage.setTd, putTd, tdCount]⟩

lemma SameSpace.getItemId_eq (h : SameSpace page p) (offset : ℕ) :
    p.getItemId offset = page.getItemId offset := by
  rw [getItemId, getItemId, h.items_eq]

lemma SameSpace.getMaxOffset_eq (h : SameSpace page p) : p.getMaxOffset = page.getMaxOffset := by
  rw [getMaxOffset, getMaxOffset, h.items_eq]

/-- Items and bounds decide the layout. -/
lemma SameSpace.layout (h : SameSpace page p) (hlayout : page.Layout) : p.Layout := by
  have hcount : p.tds.length = page.tds.length := h.tdCount_eq
  refine hlayout.of_items h.type_eq ?_ h.upper_eq h.special_eq h.getMaxOffset_eq fun offset _ _ =>
    h.getItemId_eq offset
  rw [lower, lower, h.type_eq, h.items_eq, hcount]

end SameSpace

/-- Offsets fit into sixteen bits, as the item array fits on the page. -/
lemma Layout.getMaxOffset_lt {page : DataPage} (h : page.Layout) : page.getMaxOffset < 2 ^ 16 := by
  have h1 := h.lower_le_upper
  have h2 := h.upper_lt
  rw [lower] at h1
  unfold sizeofItemId at h1
  show page.items.length < 2 ^ 16
  omega

lemma Layout.offset_lt {page : DataPage} {offset : ℕ} (h : page.Layout)
    (hv : page.ValidOffset offset) : offset < 2 ^ 16 := lt_of_le_of_lt hv.2 h.getMaxOffset_lt

lemma undoRecordAt_offset {page : DataPage} {offset : ℕ} (hlt : offset < 2 ^ 16)
    (writer : HeapWriter) (data : UndoData) :
    (page.undoRecordAt writer offset data).ctid.offset.toNat = offset :=
  UInt16.toNat_ofNat_of_lt' hlt

/-- The undo record names the offset of the tuple it is for. -/
lemma HeapWellFormed.ctid_eq {page : DataPage} {offset : ℕ} (hwf : page.HeapWellFormed)
    (hv : page.ValidOffset offset) (writer : HeapWriter) (data : UndoData) :
    (page.undoRecordAt writer offset data).ctid.offset.toNat = offset :=
  undoRecordAt_offset (hwf.layout.offset_lt hv) writer data

/-- Rewriting the tuple at `offset` inside its item. -/
structure Rewritten (page page' : DataPage) (offset : ℕ) : Prop where
  valid : page.ValidOffset offset
  normal : (page.getItemId offset).isNormal = true
  type_eq : page'.type = page.type
  special_eq : page'.special = page.special
  upper_eq : page'.upper = page.upper
  items_eq : page'.items = page.items
  tds_eq : page'.tds = page.tds
  mem : ByteMem.SameOutside (page.getItemId offset).offset
    ((page.getItemId offset).offset + (page.getItemId offset).len) page.mem page'.mem

section Ops

variable {page page' p : DataPage} {writer : HeapWriter} {record : UndoRecord} {offset : ℕ}

/-- A tuple rewritten in its item is a change at its offset. -/
lemma Rewritten.changedAt (hwf : page.HeapWellFormed) (h : Rewritten page page' offset)
    (hp : SameSpace page' p) : ChangedAt page p offset := by
  have hitem : ∀ offset, p.getItemId offset = page.getItemId offset := fun offset => by
    rw [hp.getItemId_eq, getItemId, getItemId, h.items_eq]
  have hlayout : page'.Layout := by
    refine hwf.layout.of_items h.type_eq ?_ h.upper_eq h.special_eq ?_ ?_
    · rw [lower, lower, h.type_eq, h.tds_eq, h.items_eq]
    · rw [getMaxOffset, getMaxOffset, h.items_eq]
    · intro offset' _ _
      rw [getItemId, getItemId, h.items_eq]
  have hframe : TupleFrame page p (· = offset) :=
    TupleFrame.of_sameOutside hwf.layout h.valid h.normal (hp.items_eq.trans h.items_eq)
      (by rw [hp.mem_eq]; exact h.mem)
  refine ⟨h.valid, h.normal, hframe, hp.layout hlayout, by rw [hitem]; exact h.normal, ?_⟩
  rw [hitem]
  exact hwf.size_le_len offset h.valid h.normal

/-- `HasTuple` finds a normal item on a well-formed page. -/
lemma normal_of_hasTuple (hwf : page.HeapWellFormed) (h : page.hasTuple offset) :
    page.ValidOffset offset ∧ (page.getItemId offset).isNormal := by
  simp only [hasTuple, isValidOffset, decide_eq_true_eq] at h
  have hv : page.ValidOffset offset := ⟨Nat.one_le_iff_ne_zero.mpr h.1, h.2.1⟩
  exact ⟨hv, hwf.normal_of_len offset hv h.2.2⟩

lemma headerEdit_claimTuple (writer : HeapWriter) (m : ByteMem) (off : ℕ) :
    HeaderEdit off m (claimTuple writer m off) :=
  ((headerEdit_setTdId _ off _).trans (headerEdit_setXid _ off _)).trans
    (headerEdit_setTdStatus _ off _)

lemma headerEdit_unlockTuple (page : DataPage) (offset : ℕ) :
    HeaderEdit (page.getItemId offset).offset page.mem (page.unlockTuple offset) :=
  headerEdit_setLockerTdId _ _ _

/-- A page on which one header was edited is the page with that tuple rewritten. -/
lemma rewritten_of_headerEdit (hwf : page.HeapWellFormed) (hv : page.ValidOffset offset)
    (hn : (page.getItemId offset).isNormal) (htype : page'.type = page.type)
    (hspecial : page'.special = page.special) (hupper : page'.upper = page.upper)
    (hitems : page'.items = page.items) (htds : page'.tds = page.tds)
    (hmem : HeaderEdit (page.getItemId offset).offset page.mem page'.mem) :
    Rewritten page page' offset := by
  have hsize := hwf.header_le_size offset hv hn
  have hlen := hwf.size_le_len offset hv hn
  exact ⟨hv, hn, htype, hspecial, hupper, hitems, htds, hmem.mono le_rfl (by omega)⟩

/-- An old version is claimed and gets its live mode, in either order: its size stays, and its
locker is gone. -/
lemma retired_rewritten (hwf : page.HeapWellFormed) (hhas : page.hasTuple offset) {off : ℕ}
    (hoff : (page.getItemId offset).offset = off) {mode : HeapDiskTupLiveMode} {mem : ByteMem}
    (hmem : mem = setLiveMode (claimTuple writer (page.unlockTuple offset) off) off mode ∨
      mem = claimTuple writer (setLiveMode (page.unlockTuple offset) off mode) off) :
    Rewritten page ((page.withMem mem).setTuplePrunable.addPotentialDelItemSize offset) offset ∧
      (header mem off).size = (page.tupleHeader offset).size ∧
      (header mem off).lockerTdId = invalidTdSlot := by
  obtain ⟨hv, hn⟩ := normal_of_hasTuple hwf hhas
  have hunlock := page.headerEdit_unlockTuple offset
  subst hoff
  have hspec : HeaderEdit (page.getItemId offset).offset page.mem mem ∧
      (header mem (page.getItemId offset).offset).size = (page.tupleHeader offset).size ∧
      (header mem (page.getItemId offset).offset).lockerTdId = invalidTdSlot := by
    rcases hmem with rfl | rfl
    · refine ⟨(hunlock.trans (headerEdit_claimTuple writer _ _)).trans
        (headerEdit_setLiveMode _ _ _), ?_⟩
      simp [claimTuple, unlockTuple, tupleHeader, invalidTdSlot]
    · refine ⟨(hunlock.trans (headerEdit_setLiveMode _ _ _)).trans
        (headerEdit_claimTuple writer _ _), ?_⟩
      simp [claimTuple, unlockTuple, tupleHeader, invalidTdSlot]
  exact ⟨rewritten_of_headerEdit hwf hv hn rfl rfl rfl rfl rfl hspec.1, hspec.2⟩

/-- A delete rewrites the header, releases the locker and keeps the old tuple in its record. -/
lemma deleteDiskTuple_rewritten (hwf : page.HeapWellFormed)
    (hop : page.deleteDiskTuple writer offset = some (page', record)) :
    (Rewritten page page' offset ∧
      (page'.tupleHeader offset).size = (page.tupleHeader offset).size ∧
      (page'.tupleHeader offset).lockerTdId = invalidTdSlot) ∧
      record = page.undoRecordAt writer offset (.heapDelete (page.undoImage offset)) := by
  rw [deleteDiskTuple] at hop
  split at hop
  next hhas =>
    cases hop
    exact ⟨retired_rewritten hwf hhas rfl (Or.inl rfl), rfl⟩
  next => simp at hop

/-- The old-page half of an update does the same, with the new ctid in its record. -/
lemma updateSmallTupleOldPage_rewritten {newCtid : ItemPointerData} (hwf : page.HeapWellFormed)
    (hop : page.updateSmallTupleOldPage writer offset newCtid = some (page', record)) :
    (Rewritten page page' offset ∧
      (page'.tupleHeader offset).size = (page.tupleHeader offset).size ∧
      (page'.tupleHeader offset).lockerTdId = invalidTdSlot) ∧
      record = page.undoRecordAt writer offset
        (.heapAnotherPageAppendUpdateOldPage newCtid (page.undoImage offset)) := by
  rw [updateSmallTupleOldPage] at hop
  split at hop
  next hhas =>
    cases hop
    exact ⟨retired_rewritten hwf hhas rfl (Or.inr rfl), rfl⟩
  next => simp at hop

lemma headerEdit_stampedAs (tuple : HeapTuple) (writer : HeapWriter) (mode : HeapDiskTupLiveMode) :
    HeaderEdit 0 tuple.diskTuple (tuple.stampedAs writer mode) :=
  (((((headerEdit_setTdId _ 0 _).trans (headerEdit_setXid _ 0 _)).trans
    (headerEdit_setTdStatus _ 0 _)).trans
    (headerEdit_setLockerTdId _ 0 _)).trans
    (headerEdit_setTupleSize _ 0 _)).trans (headerEdit_setLiveMode _ 0 _)

/-- Stamping a new tuple sets no locker and leaves the size. -/
lemma header_stamped (tuple : HeapTuple) (writer : HeapWriter) :
    (header (tuple.stamped writer) 0).size = tuple.size ∧
      (header (tuple.stamped writer) 0).lockerTdId = invalidTdSlot := by
  have hle := tuple.size_le
  unfold maxDefaultTupleSpace at hle
  rw [HeapTuple.stamped, header_setTupleSize, header_setLockerTdId]
  exact ⟨Nat.mod_eq_of_lt (by omega), rfl⟩

/-- So does stamping it with a live mode. -/
lemma header_stampedAs (tuple : HeapTuple) (writer : HeapWriter) (mode : HeapDiskTupLiveMode) :
    (header (tuple.stampedAs writer mode) 0).size = tuple.size ∧
      (header (tuple.stampedAs writer mode) 0).lockerTdId = invalidTdSlot := by
  rw [HeapTuple.stampedAs, header_setLiveMode]
  exact header_stamped tuple writer

/-- An in-place update: the new tuple is on the page, in the old one's item. -/
lemma updateSmallTupleInplace_rewritten {tuple : HeapTuple} (hwf : page.HeapWellFormed)
    (hop : page.updateSmallTupleInplace writer offset tuple = some (page', record)) :
    Rewritten page page' offset ∧
      record = page.undoRecordAt writer offset
        (.heapInplaceUpdate (page.tupleHeader offset).tdId (page.tupleHeader offset).info
          (page.tupleHeader offset).size (page.tupleHeader offset).xid
          (inplaceDiffs page.mem (page.getItemId offset).offset (page.tupleHeader offset).size
            tuple.diskTuple tuple.size)) ∧
      tuple.size ≤ (page.getItemId offset).len ∧
      ∀ i, i < tuple.size → page'.mem ((page.getItemId offset).offset + i) =
        tuple.stampedAs writer .newTupleByInplaceUpdate i := by
  rw [updateSmallTupleInplace] at hop
  by_cases hcond : page.hasTuple offset ∧ tuple.size ≤ (page.getItemId offset).len
  · obtain ⟨hv, hn⟩ := normal_of_hasTuple hwf hcond.1
    have hsize := hwf.header_le_size offset hv hn
    have hlen := hwf.size_le_len offset hv hn
    have hupdate : ∀ image, (page.withMem (page.unlockTuple offset)).updateTuple offset image
        tuple.size = some ((page.withMem (page.unlockTuple offset)).withMem
          ((page.unlockTuple offset).blit (page.getItemId offset).offset image 0 tuple.size)) :=
      fun image => if_pos hcond.2
    rw [if_pos hcond] at hop
    simp only [hupdate, Option.some.injEq, Prod.mk.injEq] at hop
    obtain ⟨rfl, rfl⟩ := hop
    refine ⟨⟨hv, hn, rfl, rfl, rfl, rfl, rfl, ?_⟩, rfl, hcond.2, ?_⟩
    · exact ((page.headerEdit_unlockTuple offset).mono le_rfl (by omega)).trans
        ((ByteMem.sameOutside_blit _ _ _ _ _).mono le_rfl (by omega))
    · intro i hi
      show (page.unlockTuple offset).blit _ _ 0 _ _ = _
      rw [ByteMem.blit_add hi, Nat.zero_add]
  · rw [if_neg hcond] at hop
    simp at hop

/-- An update to a new place on the same page: the item points to the new tuple below the old
`upper`. -/
structure Moved (page page' : DataPage) (offset size : ℕ) : Prop where
  valid : page.ValidOffset offset
  normal : (page.getItemId offset).isNormal = true
  header_le : heapDiskTupHeaderSize ≤ size
  len_lt : (page.getItemId offset).len < size
  size_le : size ≤ page.upper
  layout : page'.Layout
  frame : TupleFrame page page' (· = offset)
  item : page'.getItemId offset = ⟨.normal, page.upper - size, size⟩
  upper_eq : page'.upper = page.upper - size
  tds_eq : page'.tds = page.tds
  type_eq : page'.type = page.type
  getMaxOffset_eq : page'.getMaxOffset = page.getMaxOffset

/-- A same-page update puts the new tuple below `upper` and keeps the old one in its record. -/
lemma updateSmallTupleSamePage_moved {tuple : HeapTuple} (hwf : page.HeapWellFormed)
    (hop : page.updateSmallTupleSamePage writer offset tuple = some (page', record)) :
    Moved page page' offset tuple.size ∧
      record = page.undoRecordAt writer offset (.heapSamePageAppendUpdate (page.undoImage offset)) ∧
      ∀ i, i < tuple.size → page'.mem (page.upper - tuple.size + i) =
        tuple.stampedAs writer .newTupleBySamePageUpdate i := by
  rw [updateSmallTupleSamePage] at hop
  split at hop
  next hcond =>
    obtain ⟨hhas, hlt, hspace⟩ := hcond
    obtain ⟨hv, hn⟩ := normal_of_hasTuple hwf hhas
    have hsize := hwf.header_le_size offset hv hn
    have hlen := hwf.size_le_len offset hv hn
    have hheader := tuple.header_le
    have hle := hv.2
    set off := (page.getItemId offset).offset with hoff
    set claimed := ((page.withMem (claimTuple writer (page.unlockTuple offset) off)
      ).addPotentialDelItemSize offset).setTuplePrunable with hclaimed
    have hclaim : HeaderEdit off page.mem claimed.mem :=
      (page.headerEdit_unlockTuple offset).trans (headerEdit_claimTuple writer _ _)
    have hlayout : claimed.Layout :=
      hwf.layout.of_items rfl rfl rfl rfl rfl fun _ _ _ => rfl
    have hfits : claimed.Fits tuple.size offset := by
      rw [getFreeSpaceRaw] at hspace
      have hlower : claimed.lowerWith offset = page.lower := if_neg (by
        show ¬ offset = page.getMaxOffset + 1
        omega)
      rw [Fits, hlower]
      show page.lower + tuple.size ≤ page.upper
      unfold heapDiskTupHeaderSize at hheader
      omega
    have hne : offset ≠ invalidItemOffsetNumber := Nat.one_le_iff_ne_zero.mp hv.1
    have hmax : offset ≤ claimed.getMaxOffset + 1 := Nat.le_succ_of_le hle
    set image := tuple.stampedAs writer .newTupleBySamePageUpdate with himage
    set placed := claimed.placeTuple image tuple.size offset with hplaced
    have hadded : claimed.addTuple image tuple.size offset = (placed, offset) :=
      addTuple_of_fits hlayout.upper_lt hne hfits
    have hresult : (if (claimed.addTuple image tuple.size offset).2 = offset then
        some ((claimed.addTuple image tuple.size offset).1.withMem (setLiveMode
          (claimed.addTuple image tuple.size offset).1.mem off .oldTupleBySamePageUpdate),
          page.undoRecordAt writer offset (.heapSamePageAppendUpdate (page.undoImage offset)))
        else none) = some (page', record) := hop
    rw [hadded, if_pos rfl] at hresult
    cases hresult
    have hupper : tuple.size ≤ page.upper := by
      rw [Fits] at hfits
      have : claimed.upper = page.upper := rfl
      omega
    have hplacedLayout : placed.Layout :=
      placeTuple_layout hlayout hv.1 hmax hfits (by
        show page.type.tupleHeaderSize ≤ tuple.size
        rw [hwf.heap]
        exact hheader)
    have hmark := headerEdit_setLiveMode placed.mem off .oldTupleBySamePageUpdate
    have hitem : placed.getItemId offset = ⟨.normal, page.upper - tuple.size, tuple.size⟩ :=
      getItemId_placeTuple hlayout.upper_lt hfits hv.1 hmax
    have hupper' : placed.upper = page.upper - tuple.size := placeTuple_upper hlayout.upper_lt hfits
    have hold : TupleFrame page claimed (· = offset) :=
      TupleFrame.of_sameOutside hwf.layout hv hn rfl (hclaim.mono le_rfl (by omega))
    have hput : TupleFrame claimed placed (· = offset) := placeTuple_frame hlayout hv.1 hmax hfits
    have hframe := hold.trans hput
    have hsame : placed.getMaxOffset = page.getMaxOffset :=
      (placeTuple_getMaxOffset hmax).trans (max_eq_left hle)
    refine ⟨⟨hv, hn, hheader, hlt, hupper, hplacedLayout.of_items rfl rfl rfl rfl rfl
      fun _ _ _ => rfl, ?_, hitem, hupper', rfl, rfl, hsame⟩, rfl, ?_⟩
    rotate_left
    · intro i hi
      -- the old tuple is above `upper`
      have hge : page.upper ≤ off := hwf.layout.item_ge offset hv (isStored_of_isNormal hn)
      exact (hmark _ (Or.inl (by omega))).trans (placeTuple_mem hlayout.upper_lt hfits hi)
    refine ⟨hframe.getMaxOffset_le, hframe.item, fun offset' hv' hne' hn' i hi => ?_⟩
    -- the old tuple is apart from the others
    have hapart := hwf.layout.apart offset offset' hv hv' (Ne.symm hne') (isStored_of_isNormal hn)
      (isStored_of_isNormal hn')
    rw [ItemId.Apart] at hapart
    exact (hmark _ (by omega)).trans (hframe.bytes offset' hv' hne' hn' i hi)
  next => simp at hop

/-- A tuple moved on its page is a change at its offset. -/
lemma Moved.changedAt (hwf : page.HeapWellFormed) {size : ℕ} (h : Moved page page' offset size)
    (hp : SameSpace page' p) : ChangedAt page p offset := by
  have hlen := hwf.size_le_len offset h.valid h.normal
  have hlt := h.len_lt
  refine ⟨h.valid, h.normal, h.frame.trans (TupleFrame.of_eq hp.items_eq hp.mem_eq),
    hp.layout h.layout, ?_, ?_⟩
  · rw [hp.getItemId_eq, h.item]
    rfl
  · rw [hp.getItemId_eq, h.item]
    show (page.tupleHeader offset).size ≤ size
    omega

end Ops

end DataPage

end DStore
