import DStore.Heap.TupleFrame

/-!
# Runs of inserts

Insert, batch insert and the new-page half of an update all place tuples at offsets that
were not in use. A run of such placements is described once: what it adds, what it leaves
alone, and that taking the items away again leaves the page as it was.
-/

namespace DStore

open List

namespace DataPage

/-- `offset` can take a new tuple: an unused item, or the one behind the last. -/
structure Fresh (page : DataPage) (offset : ℕ) : Prop where
  pos : 1 ≤ offset
  le : offset ≤ page.getMaxOffset + 1
  unused : (page.getItemId offset).isUnused = true

variable {page page' page'' : DataPage} {offset size bound : ℕ} {offsets : List ℕ}
  {ranges : List (ℕ × ℕ)}

lemma getItemId_of_gt (h : page.getMaxOffset < offset) : page.getItemId offset = ItemId.unused := by
  rw [getItemId, getD_eq_default]
  rw [getMaxOffset] at h
  omega

/-- The space the tuples at `offsets` take. -/
def totalLen (page : DataPage) (offsets : List ℕ) : ℕ :=
  (offsets.map fun offset => (page.getItemId offset).len).sum

/-- What a run of inserts does to a heap page. -/
structure InsertedAt (page page' : DataPage) (offsets : List ℕ) : Prop where
  layout : page'.Layout
  frame : TupleFrame page page' (· ∈ offsets)
  type_eq : page'.type = page.type
  special_eq : page'.special = page.special
  selfPageId_eq : page'.selfPageId = page.selfPageId
  tds_eq : page'.tds = page.tds
  upper_eq : page'.upper + page'.totalLen offsets = page.upper
  unused : ∀ offset ∈ offsets, (page.getItemId offset).isUnused = true
  normal : ∀ offset ∈ offsets, page'.ValidOffset offset ∧
    (page'.getItemId offset).isNormal = true
  valid_or : ∀ offset, page'.ValidOffset offset → page.ValidOffset offset ∨ offset ∈ offsets

/-- One insert, as a run. -/
lemma insertedAt_place {image : ByteMem} (hheap : page.type = .heap) (h : page.Layout)
    (hfresh : page.Fresh offset) (hfits : page.Fits size offset)
    (hsize : heapDiskTupHeaderSize ≤ size) :
    InsertedAt page (page.placeTuple image size offset) [offset] := by
  have hself : (page.placeTuple image size offset).getItemId offset =
      ⟨.normal, page.upper - size, size⟩ :=
        getItemId_placeTuple h.upper_lt hfits hfresh.pos hfresh.le
  have hmax : (page.placeTuple image size offset).getMaxOffset = max page.getMaxOffset offset :=
    placeTuple_getMaxOffset hfresh.le
  refine ⟨placeTuple_layout h hfresh.pos hfresh.le hfits (by rw [hheap]; exact hsize),
    (placeTuple_frame h hfresh.pos hfresh.le hfits).mono (by simp),
      rfl, rfl, rfl, rfl, ?_, ?_, ?_, ?_⟩
  · rw [Fits] at hfits
    rw [totalLen, placeTuple_upper h.upper_lt hfits, map_singleton, sum_singleton, hself]
    show page.upper - size + size = page.upper
    omega
  · intro offset' hmem
    rw [mem_singleton.mp hmem]
    exact hfresh.unused
  · intro offset' hmem
    rw [mem_singleton.mp hmem, hself]
    exact ⟨⟨hfresh.pos, by omega⟩, rfl⟩
  · intro offset' hv
    have hle := hv.2
    have hfreshLe := hfresh.le
    rw [hmax] at hle
    by_cases hoff : offset' = offset
    · exact Or.inr (mem_singleton.mpr hoff)
    · exact Or.inl ⟨hv.1, by omega⟩

/-- Runs of inserts compose. -/
lemma InsertedAt.trans {offsets' : List ℕ} (h : InsertedAt page page' offsets)
    (h' : InsertedAt page' page'' offsets') : InsertedAt page page'' (offsets ++ offsets') := by
  have hdisjoint : ∀ offset ∈ offsets, offset ∉ offsets' := by
    intro offset hmem hmem'
    -- an offset in use is not fresh
    exact ItemId.not_isUnused_of_isNormal (h.normal offset hmem).2 (h'.unused offset hmem')
  have hkept : ∀ offset ∈ offsets, page''.getItemId offset = page'.getItemId offset :=
    fun offset hmem => h'.frame.item offset (h.normal offset hmem).1 (hdisjoint offset hmem)
  refine ⟨h'.layout, (h.frame.mono fun _ => mem_append_left _).trans
    (h'.frame.mono fun _ => mem_append_right _), h'.type_eq.trans h.type_eq,
    h'.special_eq.trans h.special_eq, h'.selfPageId_eq.trans h.selfPageId_eq,
    h'.tds_eq.trans h.tds_eq, ?_, ?_, ?_, ?_⟩
  · have hlens : page''.totalLen offsets = page'.totalLen offsets :=
      congrArg sum (map_congr_left fun offset hmem => by rw [hkept offset hmem])
    have hsum : page''.totalLen (offsets ++ offsets') =
        page''.totalLen offsets + page''.totalLen offsets' := by
      rw [totalLen, map_append, sum_append, totalLen, totalLen]
    have h1 := h.upper_eq
    have h2 := h'.upper_eq
    omega
  · intro offset hmem
    rcases mem_append.mp hmem with hmem | hmem
    · exact h.unused offset hmem
    · by_cases hle : page.getMaxOffset < offset
      · rw [getItemId_of_gt hle]
        rfl
      · have hpos := (h'.normal offset hmem).1.1
        have hnot : offset ∉ offsets := fun hmem' => hdisjoint offset hmem' hmem
        rw [← h.frame.item offset ⟨hpos, by omega⟩ hnot]
        exact h'.unused offset hmem
  · intro offset hmem
    rcases mem_append.mp hmem with hmem | hmem
    · obtain ⟨hv, hn⟩ := h.normal offset hmem
      rw [hkept offset hmem]
      exact ⟨hv.mono h'.frame.getMaxOffset_le, hn⟩
    · exact h'.normal offset hmem
  · intro offset hv
    rcases h'.valid_or offset hv with hv' | hmem
    · rcases h.valid_or offset hv' with hv'' | hmem
      · exact Or.inl hv''
      · exact Or.inr (mem_append_left _ hmem)
    · exact Or.inr (mem_append_right _ hmem)

/-- Inserting nothing changes nothing. -/
lemma insertedAt_nil (h : page.Layout) : InsertedAt page page [] :=
  ⟨h, TupleFrame.of_eq rfl rfl, rfl, rfl, rfl, rfl, rfl, fun _ hmem => absurd hmem (by simp),
    fun _ hmem => absurd hmem (by simp), fun _ hv => Or.inl hv⟩

/-! ## Placing tuples one after the other -/

/-- A call of `AddTuple` that finds room: the offset, the image and its size. -/
structure Placement where
  offset : ℕ
  image : ByteMem
  size : ℕ

/-- `page'` is `page` with the tuples of `run` placed one after the other. -/
def PlacedRun : DataPage → List Placement → DataPage → Prop
  | page, [], page' => page' = page
  | page, new :: run, page' =>
    page.Fresh new.offset ∧ page.Fits new.size new.offset ∧ heapDiskTupHeaderSize ≤ new.size ∧
      PlacedRun (page.placeTuple new.image new.size new.offset) run page'

section PlacedRun

variable {run run' : List Placement}

/-- Tuples placed one after the other are inserted at their offsets. -/
lemma PlacedRun.inserted (hheap : page.type = .heap) (h : page.Layout)
    (hrun : PlacedRun page run page') : InsertedAt page page' (run.map Placement.offset) := by
  induction run generalizing page with
  | nil =>
    rw [show page' = page from hrun]
    exact insertedAt_nil h
  | cons new run ih =>
    obtain ⟨hfresh, hfits, hsize, hrest⟩ := hrun
    have hins : InsertedAt page (page.placeTuple new.image new.size new.offset) [new.offset] :=
      insertedAt_place hheap h hfresh hfits hsize
    exact hins.trans (ih (hins.type_eq.trans hheap) hins.layout hrest)

/-- Two runs make one. -/
lemma PlacedRun.append (hrun : PlacedRun page run page')
    (hrun' : PlacedRun page' run' page'') : PlacedRun page (run ++ run') page'' := by
  induction run generalizing page with
  | nil =>
    rw [show page' = page from hrun] at hrun'
    exact hrun'
  | cons new run ih => exact ⟨hrun.1, hrun.2.1, hrun.2.2.1, ih hrun.2.2.2⟩

/-- The item and the bytes of a placed tuple, at the end of the run. -/
lemma PlacedRun.stored (hheap : page.type = .heap) (h : page.Layout)
    (hrun : PlacedRun page run page') {new : Placement} (hmem : new ∈ run) :
    (page'.getItemId new.offset).len = new.size ∧
      ∀ i, i < new.size → page'.mem ((page'.getItemId new.offset).offset + i) = new.image i := by
  induction run generalizing page with
  | nil => exact absurd hmem not_mem_nil
  | cons first run ih =>
    obtain ⟨hfresh, hfits, hsize, hrest⟩ := hrun
    have hins : InsertedAt page (page.placeTuple first.image first.size first.offset)
        [first.offset] := insertedAt_place hheap h hfresh hfits hsize
    have hrestIns := hrest.inserted (hins.type_eq.trans hheap) hins.layout
    rcases mem_cons.mp hmem with rfl | hmem
    · have hself : (page.placeTuple new.image new.size new.offset).getItemId new.offset =
          ⟨.normal, page.upper - new.size, new.size⟩ :=
        getItemId_placeTuple h.upper_lt hfits hfresh.pos hfresh.le
      obtain ⟨hv, hn⟩ := hins.normal new.offset (mem_singleton.mpr rfl)
      -- the rest of the run goes to unused items
      have hnot : new.offset ∉ run.map Placement.offset := fun hmem' =>
        ItemId.not_isUnused_of_isNormal hn (hrestIns.unused new.offset hmem')
      have hitem := hrestIns.frame.item new.offset hv hnot
      rw [hitem, hself]
      refine ⟨rfl, fun i hi => ?_⟩
      have hbytes := hrestIns.frame.bytes new.offset hv hnot hn i (by rw [hself]; exact hi)
      rw [hself] at hbytes
      exact hbytes.trans (placeTuple_mem h.upper_lt hfits hi)
    · exact ih (hins.type_eq.trans hheap) hins.layout hrest hmem

/-- The tuples of the run are new tuples of `writer`. -/
def StampedBy (writer : HeapWriter) (run : List Placement) : Prop :=
  ∀ new ∈ run, ∃ tuple : HeapTuple, new.image = tuple.stamped writer ∧ new.size = tuple.size

end PlacedRun

/-! ## Single inserts -/

/-- `GetFreeItemId` finds an unused item or the one behind the last. -/
lemma getFreeItemId_fresh (page : DataPage) : page.Fresh page.getFreeItemId := by
  have hnew : page.Fresh (page.getMaxOffset + 1) :=
    ⟨by omega, le_rfl, by rw [getItemId_of_gt (by omega)]; rfl⟩
  rw [getFreeItemId]
  split
  · split
    next offset hfind =>
      have hrange := mem_of_find?_eq_some hfind
      rw [mem_range'_1] at hrange
      have hunused := find?_some hfind
      exact ⟨by omega, by omega, hunused⟩
    next => exact hnew
  · exact hnew

/-- The space check of the insert leaves room for tuple and item. -/
lemma fits_of_getFreeSpaceForInsert (hsize : heapDiskTupHeaderSize ≤ size)
    (hspace : size ≤ page.getFreeSpaceForInsert) : page.Fits size offset := by
  unfold heapDiskTupHeaderSize at hsize
  rw [getFreeSpaceForInsert, getFreeSpaceRaw] at hspace
  rw [Fits, lowerWith]
  split <;> omega

/-- The undo record depends on the TDs and the id of the page only. -/
lemma undoRecordAt_congr (htds : page'.tds = page.tds) (hself : page'.selfPageId = page.selfPageId)
    (writer : HeapWriter) (offset : ℕ) (data : UndoData) :
    page'.undoRecordAt writer offset data = page.undoRecordAt writer offset data := by
  rw [undoRecordAt, undoRecordAt, getTd, getTd, htds, hself]

variable {writer : HeapWriter} {record : UndoRecord}

section

variable {tuple : HeapTuple}
  {image : ByteMem}
  {data : UndoData}
  (h : page.Layout)
  (hadd : page.addNewTuple writer tuple image data = some (page', record))
include h hadd

/-- An insert places one tuple and names its offset in its record. -/
lemma addNewTuple_placed :
    ∃ offset, PlacedRun page [⟨offset, image, tuple.size⟩] page' ∧
      record = page.undoRecordAt writer offset data := by
  rw [addNewTuple] at hadd
  by_cases hspace : tuple.size > page.getFreeSpaceForInsert
  · rw [if_pos hspace] at hadd
    simp at hadd
  have hfresh := page.getFreeItemId_fresh
  have hfits : page.Fits tuple.size page.getFreeItemId :=
    fits_of_getFreeSpaceForInsert tuple.header_le (by omega)
  have hne : page.getFreeItemId ≠ invalidItemOffsetNumber := Nat.one_le_iff_ne_zero.mp hfresh.pos
  have hadded : page.addTuple image tuple.size invalidItemOffsetNumber =
      (page.placeTuple image tuple.size page.getFreeItemId, page.getFreeItemId) := by
    rw [← addTuple_of_fits h.upper_lt hne hfits, addTuple, addTuple, if_pos rfl, if_neg hne]
  rw [if_neg hspace, hadded] at hadd
  simp only [if_neg hne, Option.some.injEq, Prod.mk.injEq] at hadd
  obtain ⟨rfl, rfl⟩ := hadd
  exact ⟨_, ⟨hfresh, hfits, tuple.header_le, rfl⟩, undoRecordAt_congr rfl rfl writer _ data⟩

/-- So it is an insertion at that offset. -/
lemma addNewTuple_inserted (hheap : page.type = .heap) :
    ∃ offset, InsertedAt page page' [offset] ∧ record = page.undoRecordAt writer offset data := by
  obtain ⟨offset, hrun, hrecord⟩ := addNewTuple_placed h hadd
  exact ⟨offset, hrun.inserted hheap h, hrecord⟩

end

/-! ## Batch inserts -/

/-- Offsets of a range that can take new tuples one after the other. -/
def RangeUsable (page : DataPage) (range : ℕ × ℕ) : Prop :=
  1 ≤ range.1 ∧ range.2 ≤ page.getMaxOffset ∧
    ∀ offset, range.1 ≤ offset → offset ≤ range.2 → (page.getItemId offset).isUnused = true

/-- The ranges are in order and usable; only the last one may be new. -/
def RangesUsable (page : DataPage) : List (ℕ × ℕ) → Prop
  | [] => True
  | range :: ranges =>
    (page.RangeUsable range ∧ (∀ range' ∈ ranges, range.2 < range'.1) ∧ RangesUsable page ranges) ∨
      (range.1 = page.getMaxOffset + 1 ∧ ranges = [])

/-- The loop over one range: it fills a prefix of the range. -/
lemma batchInsertInOneRangeOffset_placed (writer : HeapWriter) (saveFreeSpace endOffnum : ℕ)
    {tuples tuples' : List HeapTuple} {offnum offnum' : ℕ} (hheap : page.type = .heap)
    (h : page.Layout)
    (husable : page.RangeUsable (offnum, endOffnum) ∨ offnum = page.getMaxOffset + 1)
    (hrun : batchInsertInOneRangeOffset writer saveFreeSpace endOffnum tuples offnum page =
      some (page', offnum', tuples')) :
    offnum ≤ offnum' ∧ (offnum' ≤ endOffnum + 1 ∨ offnum' = offnum) ∧
      (∃ run, PlacedRun page run page' ∧ StampedBy writer run ∧
        run.map Placement.offset = range' offnum (offnum' - offnum)) ∧
      (page.RangeUsable (offnum, endOffnum) → page'.getMaxOffset = page.getMaxOffset) := by
  induction tuples generalizing offnum page with
  | nil =>
    simp only [batchInsertInOneRangeOffset, Option.some.injEq, Prod.mk.injEq] at hrun
    obtain ⟨rfl, rfl, _⟩ := hrun
    rw [Nat.sub_self, range'_zero]
    exact ⟨le_rfl, Or.inr rfl, ⟨[], rfl, fun _ hmem => absurd hmem not_mem_nil, rfl⟩,
      fun _ => rfl⟩
  | cons tuple tuples ih =>
    rw [batchInsertInOneRangeOffset] at hrun
    by_cases hcond : offnum ≤ endOffnum ∧
        page.getFreeSpaceForInsert ≥ tuple.size + saveFreeSpace
    · obtain ⟨hle, hspace⟩ := hcond
      -- the tuple goes to `offnum`, and the rest of the range stays usable
      have hfresh : page.Fresh offnum := by
        rcases husable with ⟨h1, h2, h3⟩ | hnew
        · exact ⟨h1, by show offnum ≤ page.getMaxOffset + 1; omega, h3 offnum le_rfl hle⟩
        · exact ⟨by omega, by omega, by rw [getItemId_of_gt (by omega)]; rfl⟩
      have hne : offnum ≠ invalidItemOffsetNumber := Nat.one_le_iff_ne_zero.mp hfresh.pos
      have hfits : page.Fits tuple.size offnum :=
        fits_of_getFreeSpaceForInsert tuple.header_le (by omega)
      rw [if_pos ⟨hle, hspace⟩, addTuple_of_fits h.upper_lt hne hfits] at hrun
      simp only [if_neg hne] at hrun
      set placed := page.placeTuple (tuple.stamped writer) tuple.size offnum with hplaced
      have hins : InsertedAt page placed [offnum] :=
        insertedAt_place hheap h hfresh hfits tuple.header_le
      have hmax : placed.getMaxOffset = max page.getMaxOffset offnum :=
        placeTuple_getMaxOffset hfresh.le
      have hkeep : page.RangeUsable (offnum, endOffnum) →
          placed.RangeUsable (offnum + 1, endOffnum) := by
        intro ⟨h1, h2, h3⟩
        refine ⟨by show 1 ≤ offnum + 1; omega, by show endOffnum ≤ placed.getMaxOffset; omega, ?_⟩
        intro offset hge hle'
        have hge' : offnum + 1 ≤ offset := hge
        have hle'' : offset ≤ endOffnum := hle'
        rw [hins.frame.item offset ⟨by omega, by omega⟩ (by simp; omega)]
        exact h3 offset (by omega) hle'
      have husable' : placed.RangeUsable (offnum + 1, endOffnum) ∨
          offnum + 1 = placed.getMaxOffset + 1 := by
        rcases husable with hu | hnew
        · exact Or.inl (hkeep hu)
        · exact Or.inr (by omega)
      obtain ⟨hge, hend, ⟨run, hrest, hstamped, hoffsets⟩, hmax'⟩ :=
        ih (hins.type_eq.trans hheap) hins.layout husable' hrun
      refine ⟨by omega, Or.inl (by omega), ?_, ?_⟩
      · refine ⟨⟨offnum, tuple.stamped writer, tuple.size⟩ :: run,
          ⟨hfresh, hfits, tuple.header_le, hrest⟩, ?_, ?_⟩
        · intro new hmem
          rcases mem_cons.mp hmem with rfl | hmem
          · exact ⟨tuple, rfl, rfl⟩
          · exact hstamped new hmem
        · rw [map_cons, hoffsets, show offnum' - offnum = offnum' - (offnum + 1) + 1 by omega,
            range'_succ]
      · intro hu
        have hle' : offnum ≤ page.getMaxOffset := le_trans hle hu.2.1
        rw [hmax' (hkeep hu), hmax]
        omega
    · rw [if_neg hcond] at hrun
      simp only [Option.some.injEq, Prod.mk.injEq] at hrun
      obtain ⟨rfl, rfl, _⟩ := hrun
      rw [Nat.sub_self, range'_zero]
      exact ⟨le_rfl, Or.inr rfl, ⟨[], rfl, fun _ hmem => absurd hmem not_mem_nil, rfl⟩,
        fun _ => rfl⟩

/-- Filling one range leaves the ranges behind it usable. -/
lemma RangesUsable.of_inserted (hu : page.RangesUsable ranges)
    (hins : InsertedAt page page' offsets) (hmax : page'.getMaxOffset = page.getMaxOffset)
    (hbound : ∀ offset ∈ offsets, offset ≤ bound) (hranges : ∀ range ∈ ranges, bound < range.1) :
    page'.RangesUsable ranges := by
  induction ranges with
  | nil => trivial
  | cons range ranges ih =>
    have habove := hranges range mem_cons_self
    rcases hu with ⟨⟨h1, h2, h3⟩, hordered, hrest⟩ | ⟨hnew, hlast⟩
    · refine Or.inl ⟨⟨h1, by omega, ?_⟩, hordered,
        ih hrest fun range' hmem => hranges range' (mem_cons_of_mem _ hmem)⟩
      intro offset hge hle
      have hnot : offset ∉ offsets := fun hmem => by
        have := hbound offset hmem
        omega
      rw [hins.frame.item offset ⟨by omega, by omega⟩ hnot]
      exact h3 offset hge hle
    · exact Or.inr ⟨by omega, hlast⟩

variable {tuples : List HeapTuple}

/-- The loop over the ranges places tuples exactly at the offsets of the ranges in use. -/
lemma batchInsertRanges_placed (writer : HeapWriter) (saveFreeSpace : ℕ) {inUse : List (ℕ × ℕ)}
    (hheap : page.type = .heap) (h : page.Layout) (hu : page.RangesUsable ranges)
    (hrun : batchInsertRanges writer saveFreeSpace ranges tuples page = some (page', inUse)) :
    ∃ run, PlacedRun page run page' ∧ StampedBy writer run ∧
      run.map Placement.offset = rangeOffsets inUse := by
  induction ranges generalizing tuples page inUse with
  | nil =>
    simp only [batchInsertRanges, Option.some.injEq, Prod.mk.injEq] at hrun
    obtain ⟨rfl, rfl⟩ := hrun
    exact ⟨[], rfl, fun _ hmem => absurd hmem not_mem_nil, rfl⟩
  | cons range ranges ih =>
    obtain ⟨startOffset, endOffset⟩ := range
    rw [batchInsertRanges] at hrun
    have husable : page.RangeUsable (startOffset, endOffset) ∨
        startOffset = page.getMaxOffset + 1 := by
      rcases hu with ⟨hrange, _, _⟩ | ⟨hnew, _⟩
      · exact Or.inl hrange
      · exact Or.inr hnew
    cases hone : batchInsertInOneRangeOffset writer saveFreeSpace endOffset tuples
      startOffset page with
    | none =>
      rw [hone] at hrun
      simp at hrun
    | some filled =>
      obtain ⟨page1, offnum, rest⟩ := filled
      obtain ⟨hge, hend, ⟨run, hplaced, hstamped, hfilled⟩, hmax⟩ :=
        batchInsertInOneRangeOffset_placed writer saveFreeSpace endOffset hheap h husable hone
      have hins := hplaced.inserted hheap h
      rw [hfilled] at hins
      simp only [hone] at hrun
      by_cases hstop : offnum = startOffset
      -- a range that takes no tuple ends the loop
      · rw [if_pos hstop] at hrun
        cases hrun
        rw [hstop, Nat.sub_self, range'_zero] at hfilled
        exact ⟨run, hplaced, hstamped, hfilled⟩
      · rw [if_neg hstop] at hrun
        have hu1 : page1.RangesUsable ranges := by
          rcases hu with ⟨hrange, hordered, hrest⟩ | ⟨_, hlast⟩
          · refine hrest.of_inserted hins (hmax hrange) ?_ hordered
            intro offset hmem
            rw [mem_range'_1] at hmem
            show offset ≤ endOffset
            omega
          · rw [hlast]
            trivial
        cases hrec : batchInsertRanges writer saveFreeSpace ranges rest page1 with
        | none =>
          rw [hrec] at hrun
          exact absurd hrun (by simp)
        | some result =>
          obtain ⟨page2, inUse'⟩ := result
          rw [hrec] at hrun
          cases hrun
          obtain ⟨run', hplaced', hstamped', hfilled'⟩ :=
            ih (hins.type_eq.trans hheap) hins.layout hu1 hrec
          have hoffsets : rangeOffsets ((startOffset, offnum - 1) :: inUse') =
              range' startOffset (offnum - startOffset) ++ rangeOffsets inUse' := by
            rw [rangeOffsets, flatMap_cons]
            show range' startOffset (offnum - 1 + 1 - startOffset) ++ _ = _
            rw [show offnum - 1 + 1 = offnum by omega]
            rfl
          refine ⟨run ++ run', hplaced.append hplaced', ?_, ?_⟩
          · intro new hmem
            exact (mem_append.mp hmem).elim (hstamped new) (hstamped' new)
          · rw [hoffsets, map_append, hfilled, hfilled']

/-- Ranges of unused items, last one first, all below `bound`. -/
def LocatedBelow (page : DataPage) : ℕ → List (ℕ × ℕ) → Prop
  | _, [] => True
  | bound, range :: ranges =>
    range.1 ≤ range.2 ∧ range.2 < bound ∧ page.RangeUsable range ∧ LocatedBelow page range.1 ranges

lemma LocatedBelow.mono {bound' : ℕ} (h : page.LocatedBelow bound ranges) (hle : bound ≤ bound') :
    page.LocatedBelow bound' ranges := by
  cases ranges with
  | nil => trivial
  | cons range ranges => exact ⟨h.1, lt_of_lt_of_le h.2.1 hle, h.2.2⟩

/-- The ranges found from behind are usable in the order of the page. -/
lemma LocatedBelow.rangesUsable {above : List (ℕ × ℕ)} (h : page.LocatedBelow bound ranges)
    (habove : page.RangesUsable above)
    (hge : ∀ range ∈ above, bound ≤ range.1) : page.RangesUsable (ranges.reverse ++ above) := by
  induction ranges generalizing bound above with
  | nil => exact habove
  | cons range ranges ih =>
    obtain ⟨h1, h2, husable, hrest⟩ := h
    rw [reverse_cons, append_assoc, singleton_append]
    refine ih hrest (Or.inl ⟨husable, ?_, habove⟩) ?_
    · intro range' hmem
      exact lt_of_lt_of_le h2 (hge range' hmem)
    · intro range' hmem
      rcases mem_cons.mp hmem with rfl | hmem
      · exact le_rfl
      · have := hge range' hmem
        omega

/-- The loop of `LocateUsableItemIds`: while `inRange`, the last range ends right before the
offset to look at. -/
lemma locateLoop_located (saveFreeSpace : ℕ) {n start usedSpace : ℕ} {inRange : Bool}
    (hstart : 1 ≤ start) (hend : start + n ≤ page.getMaxOffset + 1)
    (h : page.LocatedBelow start ranges)
    (hin : inRange → ∃ range rest, ranges = range :: rest ∧ range.2 + 1 = start) :
    page.LocatedBelow (start + n)
      (page.locateLoop saveFreeSpace (range' start n) tuples usedSpace inRange ranges).1 := by
  induction n generalizing start usedSpace tuples inRange ranges with
  | zero => exact h
  | succ n ih =>
    rw [range'_succ]
    cases tuples with
    | nil => exact h.mono (by omega)
    | cons tuple tuples =>
      rw [locateLoop, show start + (n + 1) = start + 1 + n by omega]
      by_cases hunused : (page.getItemId start).isUnused
      · rw [if_pos hunused]
        by_cases hspace : page.getFreeSpaceRaw < usedSpace + tuple.size + saveFreeSpace
        · rw [if_pos hspace]
          exact h.mono (by omega)
        · rw [if_neg hspace]
          have hone : page.RangeUsable (start, start) := by
            refine ⟨hstart, by show start ≤ page.getMaxOffset; omega, fun offset hge hle => ?_⟩
            rwa [show offset = start from le_antisymm hle hge]
          have hgrown : page.LocatedBelow (start + 1) (growRanges inRange start ranges) ∧
              ∃ range rest, growRanges inRange start ranges = range :: rest ∧
                range.2 + 1 = start + 1 := by
            cases ranges with
            | nil => exact ⟨⟨le_rfl, Nat.lt_succ_self start, hone, trivial⟩, _, _, rfl, rfl⟩
            | cons range rest =>
              rw [growRanges]
              cases inRange with
              | false =>
                exact ⟨⟨le_rfl, Nat.lt_succ_self start, hone, h⟩, _, _, rfl, rfl⟩
              | true =>
                obtain ⟨range', rest', heq, hlast⟩ := hin rfl
                obtain ⟨rfl, rfl⟩ := cons_eq_cons.mp heq
                obtain ⟨h1, h2, ⟨hpos, _, husable⟩, hrest⟩ := h
                refine ⟨⟨by show range.1 ≤ start; omega, Nat.lt_succ_self start,
                  ⟨hpos, by show start ≤ page.getMaxOffset; omega, fun offset hge hle => ?_⟩,
                    hrest⟩,
                  _, _, rfl, rfl⟩
                by_cases hoff : offset = start
                · rwa [hoff]
                · exact husable offset hge (by have : offset ≤ start := hle; omega)
          exact ih (by omega) (by omega) hgrown.1 fun _ => hgrown.2
      · rw [if_neg hunused]
        exact ih (by omega) (by omega) (h.mono (by omega)) fun hfalse => absurd hfalse (by decide)

/-- The ranges a batch insert is given are usable. -/
lemma getUsableOffsetRanges_usable (page : DataPage) (saveFreeSpace : ℕ) (tuples : List HeapTuple) :
    page.RangesUsable (page.getUsableOffsetRanges saveFreeSpace tuples) := by
  have hlocated : ∃ ranges, page.LocatedBelow (page.getMaxOffset + 1) ranges ∧
      (page.locateUsableItemIds saveFreeSpace tuples).1 = ranges.reverse := by
    rw [locateUsableItemIds]
    split
    · refine ⟨_, ?_, rfl⟩
      rw [Nat.add_comm]
      exact locateLoop_located saveFreeSpace le_rfl (by omega) trivial fun h => absurd h (by decide)
    · exact ⟨[], trivial, rfl⟩
  obtain ⟨ranges, hbelow, heq⟩ := hlocated
  have hold : page.RangesUsable (page.locateUsableItemIds saveFreeSpace tuples).1 := by
    have hrev := hbelow.rangesUsable (show page.RangesUsable [] from trivial)
      fun _ hmem => absurd hmem (by simp)
    rwa [append_nil, ← heq] at hrev
  rw [getUsableOffsetRanges]
  split
  · exact hold
  · split
    · rw [heq]
      refine hbelow.rangesUsable (Or.inr ⟨rfl, rfl⟩) ?_
      intro range hmem
      rw [mem_singleton.mp hmem]
    · exact hold

section

variable (hheap : page.type = .heap) (h : page.Layout) {saveFreeSpace : ℕ}
    (hrun : page.batchInsertSmallTuples writer saveFreeSpace tuples = some (page', record))
include hheap h hrun

/-- A batch insert places its tuples at the offsets of the ranges in its record. -/
lemma batchInsertSmallTuples_placed :
    ∃ ranges run, PlacedRun page run page' ∧ StampedBy writer run ∧
      run.map Placement.offset = rangeOffsets ranges ∧
      record = page.undoRecordAt writer invalidItemOffsetNumber (.heapBatchInsert ranges) := by
  rw [batchInsertSmallTuples] at hrun
  split at hrun
  · simp at hrun
  split at hrun
  · simp at hrun
  next page1 inUse hbatch =>
    cases hrun
    obtain ⟨run, hplaced, hstamped, hfilled⟩ :=
      batchInsertRanges_placed writer saveFreeSpace hheap h
      (page.getUsableOffsetRanges_usable saveFreeSpace tuples) hbatch
    have hins := hplaced.inserted hheap h
    exact ⟨inUse, run, hplaced, hstamped, hfilled,
      undoRecordAt_congr hins.tds_eq hins.selfPageId_eq writer _ _⟩

/-- So it is an insertion at those offsets. -/
lemma batchInsertSmallTuples_inserted :
    ∃ ranges, InsertedAt page page' (rangeOffsets ranges) ∧
      record = page.undoRecordAt writer invalidItemOffsetNumber (.heapBatchInsert ranges) := by
  obtain ⟨ranges, run, hplaced, _, hfilled, hrecord⟩ := batchInsertSmallTuples_placed hheap h hrun
  exact ⟨ranges, hfilled ▸ hplaced.inserted hheap h, hrecord⟩

end

/-! ## Taking inserts back -/

/-- `page'` is `page` with the items at `offsets` set unused. -/
structure RemovedAt (page page' : DataPage) (offsets : List ℕ) : Prop where
  type_eq : page'.type = page.type
  special_eq : page'.special = page.special
  upper_eq : page'.upper = page.upper
  tds_eq : page'.tds = page.tds
  mem_eq : page'.mem = page.mem
  getMaxOffset_eq : page'.getMaxOffset = page.getMaxOffset
  removed : ∀ offset ∈ offsets, page'.getItemId offset = ItemId.unused
  kept : ∀ offset, 1 ≤ offset → offset ∉ offsets → page'.getItemId offset = page.getItemId offset

/-- Undoing an insert frees the item. -/
lemma getItemId_undoInsertAt (hpos : 1 ≤ offset) :
    (page.undoInsertAt offset).getItemId offset = ItemId.unused := by
  by_cases hle : offset ≤ page.getMaxOffset
  · have hv : (page.addPotentialDelItemSize offset).ValidOffset offset := ⟨hpos, hle⟩
    rw [undoInsertAt, getItemId_putItemId_self hv]
  · rw [getItemId_of_gt]
    rw [undoInsertAt, putItemId_getMaxOffset]
    show page.getMaxOffset < offset
    omega

lemma RemovedAt.isUnused (h : RemovedAt page page' offsets) (hmem : offset ∈ offsets) :
    (page'.getItemId offset).isUnused := by
  rw [h.removed offset hmem]
  rfl

/-- Undoing several inserts frees exactly their items. -/
lemma foldl_undoInsertAt_removed (hpos : ∀ offset ∈ offsets, 1 ≤ offset) (page : DataPage) :
    RemovedAt page (offsets.foldl undoInsertAt page) offsets := by
  induction offsets generalizing page with
  | nil => exact ⟨rfl, rfl, rfl, rfl, rfl, rfl, fun _ hmem => absurd hmem (by simp),
    fun _ _ _ => rfl⟩
  | cons offset offsets ih =>
    have hfirst := hpos offset mem_cons_self
    have hrest := ih (fun o ho => hpos o (mem_cons_of_mem _ ho)) (page.undoInsertAt offset)
    have hother : ∀ offset', 1 ≤ offset' → offset' ≠ offset →
        (page.undoInsertAt offset).getItemId offset' = page.getItemId offset' :=
      fun offset' hpos' hne => getItemId_putItemId_of_ne hfirst hpos' (Ne.symm hne) _
    refine ⟨hrest.type_eq, hrest.special_eq, hrest.upper_eq, hrest.tds_eq, hrest.mem_eq, ?_, ?_, ?_⟩
    · rw [foldl_cons, hrest.getMaxOffset_eq]
      exact putItemId_getMaxOffset _ _
    · intro offset' hmem
      by_cases hmem' : offset' ∈ offsets
      · exact hrest.removed offset' hmem'
      · have heq : offset' = offset := (mem_cons.mp hmem).resolve_right hmem'
        rw [heq] at hmem' ⊢
        rw [foldl_cons, hrest.kept offset hfirst hmem']
        exact getItemId_undoInsertAt hfirst
    · intro offset' hpos' hnot
      rw [mem_cons, not_or] at hnot
      rw [foldl_cons, hrest.kept offset' hpos' hnot.2, hother offset' hpos' hnot.1]

/-- Inserting and removing leaves the other tuples. -/
lemma InsertedAt.frame_of_removed {p : DataPage} (h : InsertedAt page page' offsets)
    (hitems : p.items = page'.items) (hmem : p.mem = page'.mem)
    (hremoved : RemovedAt p page'' offsets) : TupleFrame page page'' (· ∈ offsets) := by
  refine h.frame.trans ⟨?_, ?_, ?_⟩
  · rw [hremoved.getMaxOffset_eq, getMaxOffset, getMaxOffset, hitems]
  · intro offset hv hnot
    rw [hremoved.kept offset hv.1 hnot, getItemId, getItemId, hitems]
  · intro offset _ _ _ i _
    rw [hremoved.mem_eq, hmem]

end DataPage

end DStore
