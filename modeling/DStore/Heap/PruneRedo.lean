import DStore.Heap.Prune
import DStore.Page.AllocTdRedo

/-!
# Prune against its redo

The log record of a prune holds the item changes. Redo applies them to the page as it was, so it
ends like the prune exactly when the unlogged reuse of TDs before a full prune left no trace: no
TD changed, and every tuple whose link changed has lost its item or its storage to the prune.
-/

namespace DStore

open TupleTdStatus TDAllocContext ItemId BitField List Option HeapTupleHeader TD

namespace DataPage

/-! ## The changes the scan finds -/

section Scan

variable (page : DataPage)

/-- The state the scan gives the item at `offset`, if it changes it. -/
def pruneState (offset : ℕ) : Option ItemIdState :=
  if (page.getItemId offset).isUnused then none
  else if page.ownedByOpenTxn offset then none
  else if page.isDiskTupleDeleted offset ≠ some true then none
  else if page.testTupleTdStatus offset .detachTd then some .unused
  else if (page.getItemId offset).isNoStorage then none
  else some .noStorage

variable {page}

/-- What the scan of an item finds is its prune state. -/
lemma scanPrunableItem_eq {offset : ℕ} {change : Option ItemIdDiff}
    (h : page.scanPrunableItem offset = some change) :
    change = (page.pruneState offset).map (ItemIdDiff.mk offset) := by
  unfold scanPrunableItem at h
  unfold pruneState
  by_cases hu : (page.getItemId offset).isUnused
  · rw [if_pos hu] at h ⊢
    exact (some.inj h).symm
  · rw [if_neg hu] at h ⊢
    by_cases ho : page.ownedByOpenTxn offset = true
    · rw [if_pos ho] at h ⊢
      exact (some.inj h).symm
    · rw [if_neg ho] at h ⊢
      cases hd : page.isDiskTupleDeleted offset with
      | none =>
        rw [hd] at h
        exact absurd h (by simp)
      | some deleted =>
        rw [hd] at h
        cases deleted with
        | false => exact (some.inj h).symm
        | true =>
          rw [if_neg (by simp)]
          dsimp only at h
          split_ifs at h ⊢ <;> exact (some.inj h).symm

/-- The change list of the scan. -/
lemma scanPrunableItems_eq {offsets : List ℕ} {diffs : List ItemIdDiff} {minCsn csn : ℕ}
    (h : page.scanPrunableItems offsets minCsn = some (diffs, csn)) :
    diffs = offsets.filterMap fun offset =>
      (page.pruneState offset).map (ItemIdDiff.mk offset) := by
  induction offsets generalizing minCsn diffs csn with
  | nil =>
    rw [scanPrunableItems, some.injEq, Prod.mk.injEq] at h
    exact h.1.symm
  | cons offset offsets ih =>
    rw [scanPrunableItems] at h
    cases hscan : page.scanPrunableItem offset with
    | none =>
      rw [hscan] at h
      simp at h
    | some change =>
      have hchange := scanPrunableItem_eq hscan
      rw [hscan] at h
      cases change with
      | none =>
        rw [filterMap_cons, ← hchange]
        exact ih h
      | some diff =>
        rw [filterMap_cons, ← hchange]
        dsimp only at h ⊢
        cases hrest : page.scanPrunableItems offsets (page.nextMinCsn minCsn diff) with
        | none =>
          rw [hrest] at h
          exact absurd h (by simp)
        | some rest =>
          rw [hrest] at h
          simp only [some.injEq, Prod.mk.injEq] at h
          have htail : rest.1 = _ := ih hrest
          rw [← h.1, htail]

end Scan

/-! ## Applying item changes -/

section Apply

/-- The item at `offset` once the state `state` is applied. -/
def itemAs (page : DataPage) (offset : ℕ) : Option ItemIdState → ItemId
  | some .unused => ItemId.unused
  | some .noStorage => page.prunedItem offset
  | _ => page.getItemId offset

/-- `page'` is `page` with the item states `state` applied. -/
structure ItemsPruned (page page' : DataPage) (state : ℕ → Option ItemIdState) : Prop where
  type_eq : page'.type = page.type
  special_eq : page'.special = page.special
  upper_eq : page'.upper = page.upper
  tds_eq : page'.tds = page.tds
  mem_eq : page'.mem = page.mem
  getMaxOffset_eq : page'.getMaxOffset = page.getMaxOffset
  item : ∀ offset, page.ValidOffset offset →
    page'.getItemId offset = page.itemAs offset (state offset)

variable {page page' : DataPage} {state : ℕ → Option ItemIdState} {offset : ℕ}

/-- Only the states of valid offsets count. -/
lemma ItemsPruned.congr {state' : ℕ → Option ItemIdState} (h : ItemsPruned page page' state)
    (hstate : ∀ offset, page.ValidOffset offset → state offset = state' offset) :
    ItemsPruned page page' state' :=
  { h with item := fun offset hv => hstate offset hv ▸ h.item offset hv }

/-- A change puts the new item and may note that there is a free one. -/
lemma pruneItem_eq (hv : page.ValidOffset offset) (new : ItemIdState) : ∃ free,
    page.pruneItem ⟨offset, new⟩ =
      { page.putItemId offset (page.itemAs offset (some new)) with hasFreeItemId := free } := by
  have hkept : page.putItemId offset (page.getItemId offset) = page := by
    have hlt : offset - 1 < page.items.length := Nat.sub_one_lt_of_le hv.1 hv.2
    rw [putItemId, getItemId, getD_eq_getElem _ _ hlt, set_getElem_self]
  cases new with
  | unused => exact ⟨true, rfl⟩
  | noStorage => exact ⟨_, rfl⟩
  | normal => exact ⟨_, hkept.symm⟩
  | unreadableRangeHolder => exact ⟨_, hkept.symm⟩

/-- One more item is pruned. -/
lemma ItemsPruned.step {touched : ℕ → Prop} [DecidablePred touched]
    (h : ItemsPruned page page' fun offset => if touched offset then state offset else none)
    (hv : page.ValidOffset offset) (ht : ¬ touched offset) {new : ItemIdState}
    (hstate : state offset = some new) :
    ItemsPruned page (page'.pruneItem ⟨offset, new⟩)
      fun offset' => if touched offset' ∨ offset' = offset then state offset' else none := by
  have hv' : page'.ValidOffset offset := hv.mono h.getMaxOffset_eq.ge
  have hitem : page'.getItemId offset = page.getItemId offset := by
    rw [h.item offset hv, if_neg ht]
    rfl
  have hheader : page'.tupleHeader offset = page.tupleHeader offset := by
    rw [tupleHeader, tupleHeader, hitem, h.mem_eq]
  have hpruned : page'.prunedItem offset = page.prunedItem offset := by
    rw [prunedItem, prunedItem, hitem, hheader]
  have hnew : page'.itemAs offset (some new) = page.itemAs offset (some new) := by
    cases new with
    | unused => rfl
    | noStorage => exact hpruned
    | normal => exact hitem
    | unreadableRangeHolder => exact hitem
  obtain ⟨free, hprune⟩ := pruneItem_eq hv' new
  rw [hprune]
  refine ⟨h.type_eq, h.special_eq, h.upper_eq, h.tds_eq, h.mem_eq,
    (putItemId_getMaxOffset _ _).trans h.getMaxOffset_eq, fun offset' hv1 => ?_⟩
  by_cases heq : offset' = offset
  · rw [heq, if_pos (Or.inr rfl), hstate, ← hnew]
    exact getItemId_putItemId_self hv' _
  · simp only [heq, or_false]
    exact (getItemId_putItemId_of_ne hv.1 hv1.1 (Ne.symm heq) _).trans (h.item offset' hv1)

/-- `PruneItems` on the change list of some offsets. -/
lemma pruneItems_pruned (state : ℕ → Option ItemIdState) (offsets : List ℕ)
    (hnodup : offsets.Nodup) (hvalid : ∀ offset ∈ offsets, page.ValidOffset offset) :
    ItemsPruned page (page.pruneItems (offsets.filterMap fun offset =>
      (state offset).map (ItemIdDiff.mk offset)))
      fun offset => if offset ∈ offsets then state offset else none := by
  induction offsets using reverseRecOn with
  | nil => exact ⟨rfl, rfl, rfl, rfl, rfl, rfl, fun _ _ => rfl⟩
  | append_singleton offsets offset ih =>
    rw [nodup_append] at hnodup
    have hnew : offset ∉ offsets := fun hmem => hnodup.2.2 offset hmem offset (by simp) rfl
    have hdone := ih hnodup.1 fun offset' hmem => hvalid offset' (by simp [hmem])
    rw [filterMap_append, pruneItems, foldl_append]
    simp only [mem_append, mem_singleton]
    cases hstate : state offset with
    | none =>
      rw [filterMap_cons_none (by rw [hstate]; rfl)]
      refine hdone.congr fun offset' hv => ?_
      by_cases heq : offset' = offset
      · rw [heq, if_neg hnew, hstate, ite_self]
      · simp only [heq, or_false]
    | some new =>
      rw [filterMap_cons_some (by rw [hstate]; rfl)]
      exact hdone.step (hvalid offset (by simp)) hnew hstate

/-- Redo of the diffs of a prune applies the same states. -/
lemma applyItemIdDiff_pruned (state : ℕ → Option ItemIdState) {diffs : List ItemIdDiff} (csn : ℕ)
    (hdiffs : diffs = (range' 1 page.getMaxOffset).filterMap fun offset =>
      (state offset).map (ItemIdDiff.mk offset)) :
    ItemsPruned page (page.applyItemIdDiff diffs csn) state := by
  have hmem : ∀ offset, offset ∈ range' 1 page.getMaxOffset ↔ page.ValidOffset offset := by
    intro offset
    rw [mem_range'_1, ValidOffset]
    omega
  have hpruned : ItemsPruned page (page.pruneItems diffs) state := by
    have h := pruneItems_pruned state (range' 1 page.getMaxOffset) (nodup_range' 1)
      fun offset => (hmem offset).mp
    rw [← hdiffs] at h
    refine h.congr fun offset hv => ?_
    rw [if_pos ((hmem offset).mpr hv)]
  unfold applyItemIdDiff
  split
  next hnil =>
    rw [hnil] at hpruned
    exact hpruned
  next =>
    exact ⟨hpruned.type_eq, hpruned.special_eq, hpruned.upper_eq, hpruned.tds_eq, hpruned.mem_eq,
      hpruned.getMaxOffset_eq, hpruned.item⟩

/-- A state that leaves an item stored leaves every item as it is. -/
lemma itemAs_of_stored {new : Option ItemIdState} (hs : (page.itemAs offset new).isStored)
    (page' : DataPage) : page'.itemAs offset new = page'.getItemId offset := by
  unfold itemAs at hs ⊢
  split at hs
  · exact absurd (show false = true from hs) Bool.false_ne_true
  · exact absurd (show false = true from hs) Bool.false_ne_true
  · rfl

/-- Items that still have storage are untouched. -/
lemma ItemsPruned.item_of_stored (h : ItemsPruned page page' state) (hv : page.ValidOffset offset)
    (hs : (page'.getItemId offset).isStored) : page'.getItemId offset = page.getItemId offset := by
  rw [h.item offset hv] at hs ⊢
  exact itemAs_of_stored hs page

/-- Pruning keeps the layout. -/
lemma ItemsPruned.layout (h : ItemsPruned page page' state) (hlayout : page.Layout) :
    page'.Layout := by
  refine hlayout.of_items h.type_eq ?_ h.upper_eq h.special_eq h.getMaxOffset_eq
    fun offset hv hs => h.item_of_stored hv hs
  have hlen : page'.items.length = page.items.length := h.getMaxOffset_eq
  rw [lower, lower, h.type_eq, h.tds_eq, hlen]

end Apply

/-! ## Compacting two pages with the same tuples -/

section Compare

/-- All bytes under the item at `offset`. -/
def storedBytes (page : DataPage) (offset : ℕ) : List UInt8 :=
  page.mem.load (page.getItemId offset).offset (page.getItemId offset).len

/-- The tuples of the two pages are stored at the same places. -/
structure SameStored (page page' : DataPage) : Prop where
  special_eq : page'.special = page.special
  getMaxOffset_eq : page'.getMaxOffset = page.getMaxOffset
  isNormal : ∀ offset, page.ValidOffset offset →
    (page'.getItemId offset).isNormal = (page.getItemId offset).isNormal
  item : ∀ offset, page.ValidOffset offset → (page.getItemId offset).isNormal = true →
    page'.getItemId offset = page.getItemId offset

variable {page page' : DataPage} {offset : ℕ}

/-- Pages with the same stored items compact the same items. -/
lemma SameStored.compactableItems_eq (h : SameStored page page') :
    page'.compactableItems = page.compactableItems := by
  rw [compactableItems, compactableItems, h.getMaxOffset_eq]
  apply filterMap_congr
  intro offset hmem
  rw [mem_range'_1] at hmem
  have hv : page.ValidOffset offset := ⟨hmem.1, by omega⟩
  cases hn : (page.getItemId offset).isNormal with
  | true => rw [h.item offset hv hn]
  | false => simp only [h.isNormal offset hv, hn, Bool.false_and, Bool.false_eq_true, if_false]

section

variable (hlayout : page.Layout) (hv : page.ValidOffset offset)
include hlayout hv

/-- Compaction hides no difference between their items. -/
lemma SameStored.compactAll_item_iff (h : SameStored page page')
    (hlayout' : page'.Layout) :
    page.compactAll.getItemId offset = page'.compactAll.getItemId offset ↔
      page.getItemId offset = page'.getItemId offset := by
  have hv' : page'.ValidOffset offset := hv.mono h.getMaxOffset_eq.ge
  have hn' := h.isNormal offset hv
  cases hn : (page.getItemId offset).isNormal with
  | true =>
    have horder : page'.compactOrder = page.compactOrder := by
      rw [compactOrder, h.compactableItems_eq, compactOrder]
    rw [hn] at hn'
    rw [getItemId_compactAll hlayout hv hn, getItemId_compactAll hlayout' hv' hn',
      h.item offset hv hn, h.special_eq, horder]
    exact ⟨fun _ => rfl, fun _ => rfl⟩
  | false =>
    rw [hn] at hn'
    rw [getItemId_compactAll_of_not_normal hlayout hv.1 (by rw [hn]; decide),
      getItemId_compactAll_of_not_normal hlayout' hv.1 (by rw [hn']; decide)]

/-- Compaction moves tuples and leaves the items as they are otherwise. -/
lemma compactAll_flags_len :
    (page.compactAll.getItemId offset).flags = (page.getItemId offset).flags ∧
      (page.compactAll.getItemId offset).len = (page.getItemId offset).len := by
  by_cases hn : (page.getItemId offset).isNormal
  · rw [getItemId_compactAll hlayout hv hn]
    exact ⟨rfl, rfl⟩
  · rw [getItemId_compactAll_of_not_normal hlayout hv.1 hn]
    exact ⟨rfl, rfl⟩

/-- Compaction keeps the bytes of every tuple. -/
lemma storedBytes_compactAll
    (hn : (page.getItemId offset).isNormal) :
    page.compactAll.storedBytes offset = page.storedBytes offset := by
  rw [storedBytes, storedBytes, (compactAll_flags_len hlayout hv).2]
  apply ByteMem.load_congr
  intro i hi
  rw [getItemId_compactAll hlayout hv hn]
  exact (compactAll_movedTo hlayout).bytes _ (mem_compactOrder_of_normal hlayout hv hn) i hi

end

end Compare

/-! ## When two pruned pages are the same -/

section Same

/-- The two pages agree on everything a prune writes, csn hints and lockers of TDs apart. -/
structure SamePruned (page page' : DataPage) : Prop where
  tds : List.Forall₂ SameOwner page.tds page'.tds
  items : page.items = page'.items
  tdStatus : ∀ offset, page.ValidOffset offset → (page.getItemId offset).isUnused = false →
    page.getTupleTdStatus offset = page'.getTupleTdStatus offset
  lockerTdId : ∀ offset, page.ValidOffset offset → (page.getItemId offset).isUnused = false →
    page.getTupleLockerTdId offset = page'.getTupleLockerTdId offset
  bytes : ∀ offset, page.ValidOffset offset → (page.getItemId offset).isNormal = true →
    page.storedBytes offset = page'.storedBytes offset

/-- The tuple at `offset` is the same on both pages. -/
def SameTuple (page page' : DataPage) (offset : ℕ) : Prop :=
  page.getItemId offset = page'.getItemId offset ∧
    ((page.getItemId offset).isNormal = true → page.storedBytes offset = page'.storedBytes offset)

variable {page page' : DataPage} {offset : ℕ}

/-- The same tuple has the same link. -/
lemma SameTuple.link_eq (h : SameTuple page page' offset) (hheap : page.type = .heap)
    (hheap' : page'.type = .heap)
    (hused : page.InUse offset) (hlen : (page.getItemId offset).isNormal →
      heapDiskTupHeaderSize ≤ (page.getItemId offset).len) :
    page.getTupleTdStatus offset = page'.getTupleTdStatus offset ∧
      page.getTupleLockerTdId offset = page'.getTupleLockerTdId offset := by
  obtain ⟨hitem, hbytes⟩ := h
  rcases hused with hn | hns
  · have hn' : (page'.getItemId offset).isNormal := by rw [← hitem, hn]
    have hload := hbytes hn
    rw [storedBytes, storedBytes, ← hitem] at hload
    have hheader := ((HeapDiskTuple.load_eq_iff_header (hlen hn)).mp hload).1
    have hheader' : page.tupleHeader offset = page'.tupleHeader offset := by
      rw [tupleHeader, tupleHeader, ← hitem]
      exact hheader
    rw [getTupleTdStatus_of_normal hheap hn, getTupleTdStatus_of_normal hheap' hn',
      getTupleLockerTdId_of_normal hheap hn, getTupleLockerTdId_of_normal hheap' hn', hheader']
    exact ⟨rfl, rfl⟩
  · simp only [getTupleTdStatus, getTupleLockerTdId, ← hitem, hns, Bool.true_or, if_true, and_self]

/-- Two pages agree as soon as their TDs and tuples do. -/
lemma samePruned_iff (hheap : page.type = .heap) (hheap' : page'.type = .heap)
    (hmax : page'.getMaxOffset = page.getMaxOffset)
    (hused : ∀ offset, page.ValidOffset offset → (page.getItemId offset).isUnused = false →
      page.InUse offset)
    (hlen : ∀ offset, page.ValidOffset offset → (page.getItemId offset).isNormal →
      heapDiskTupHeaderSize ≤ (page.getItemId offset).len) :
    SamePruned page page' ↔ List.Forall₂ SameOwner page.tds page'.tds ∧
      ∀ offset, page.ValidOffset offset → SameTuple page page' offset := by
  constructor
  · intro h
    refine ⟨h.tds, fun offset hv => ⟨?_, h.bytes offset hv⟩⟩
    rw [getItemId, getItemId, h.items]
  · rintro ⟨htds, htuple⟩
    refine ⟨htds, ?_, fun offset hv hu => ?_, fun offset hv hu => ?_,
      fun offset hv => (htuple offset hv).2⟩
    · rw [← map_getItemId page, ← map_getItemId page', hmax]
      apply map_congr_left
      intro offset hmem
      rw [mem_range'_1] at hmem
      exact (htuple offset ⟨hmem.1, by omega⟩).1
    · exact ((htuple offset hv).link_eq hheap hheap' (hused offset hv hu) (hlen offset hv)).1
    · exact ((htuple offset hv).link_eq hheap hheap' (hused offset hv hu) (hlen offset hv)).2

/-- Compaction hides no difference between their tuples. -/
lemma SameStored.compactAll_sameTuple_iff (h : SameStored page page') (hlayout : page.Layout)
    (hlayout' : page'.Layout) (hv : page.ValidOffset offset) :
    SameTuple page.compactAll page'.compactAll offset ↔ SameTuple page page' offset := by
  have hv' : page'.ValidOffset offset := hv.mono h.getMaxOffset_eq.ge
  refine and_congr (h.compactAll_item_iff hlayout hv hlayout') ?_
  rw [ItemId.isNormal, (compactAll_flags_len hlayout hv).1]
  refine imp_congr_right fun hn => ?_
  rw [storedBytes_compactAll hlayout hv hn,
    storedBytes_compactAll hlayout' hv' ((h.isNormal offset hv).trans hn)]

/-- Compaction neither makes pages the same nor tells them apart. -/
lemma SameStored.compactAll_samePruned_iff (h : SameStored page page') (hheap : page.type = .heap)
    (hheap' : page'.type = .heap) (hlayout : page.Layout) (hlayout' : page'.Layout)
    (hused : ∀ offset, page.ValidOffset offset → (page.getItemId offset).isUnused = false →
      page.InUse offset) :
    SamePruned page.compactAll page'.compactAll ↔ List.Forall₂ SameOwner page.tds page'.tds ∧
      ∀ offset, page.ValidOffset offset → SameTuple page page' offset := by
  obtain ⟨hshape, -⟩ := page.compactAll_shape
  obtain ⟨hshape', -⟩ := page'.compactAll_shape
  have hmax := hshape.getMaxOffset_eq
  have hmax' := hshape'.getMaxOffset_eq
  have hvalid : ∀ offset, page.compactAll.ValidOffset offset ↔ page.ValidOffset offset := by
    intro offset
    rw [ValidOffset, ValidOffset, hmax]
  rw [samePruned_iff (hshape.type_eq.trans hheap) (hshape'.type_eq.trans hheap')
    (by rw [hmax, hmax', h.getMaxOffset_eq]), hshape.tds_eq, hshape'.tds_eq]
  · refine and_congr_right fun _ => forall_congr' fun offset => ?_
    rw [hvalid]
    exact imp_congr_right fun hv => h.compactAll_sameTuple_iff hlayout hlayout' hv
  · intro offset hv hu
    rw [hvalid] at hv
    have hflags := (compactAll_flags_len hlayout hv).1
    rw [isUnused, hflags] at hu
    rw [InUse, ItemId.isNormal, isNoStorage, hflags]
    exact hused offset hv hu
  · intro offset hv hn
    rw [hvalid] at hv
    obtain ⟨hflags, hlen⟩ := compactAll_flags_len hlayout hv
    rw [ItemId.isNormal, hflags] at hn
    have hle := hlayout.header_le offset hv (isStored_of_isNormal hn)
    rw [hheap] at hle
    rw [hlen]
    exact hle

/-- `TryCompactTuples` on pages with the same tuples: if one does not panic, neither does the
other, and they end as pages that agree as soon as the TDs and tuples did before. -/
lemma SameStored.tryCompactTuples (h : SameStored page page')
    (hdel : ∀ offset, page.ValidOffset offset → (page.getItemId offset).isNormal →
      page'.isDiskTupleDeleted offset = page.isDiskTupleDeleted offset)
    (hheap : page.type = .heap) (hheap' : page'.type = .heap) (hlayout : page.Layout)
    (hlayout' : page'.Layout)
    (hused : ∀ offset, page.ValidOffset offset → (page.getItemId offset).isUnused = false →
      page.InUse offset) {allocated : Bool} {compacted : DataPage}
    (hrun : page.tryCompactTuples allocated = some compacted) :
    ∃ compacted', page'.tryCompactTuples allocated = some compacted' ∧
      (SamePruned compacted compacted' ↔ List.Forall₂ SameOwner page.tds page'.tds ∧
        ∀ offset, page.ValidOffset offset → SameTuple page page' offset) := by
  cases allocated with
  | false =>
    -- without room for the items the pages stay as they are
    cases hrun
    refine ⟨page', rfl, samePruned_iff hheap hheap' h.getMaxOffset_eq hused fun offset hv hn => ?_⟩
    have hle := hlayout.header_le offset hv (isStored_of_isNormal hn)
    rwa [hheap] at hle
  | true =>
    have hsize : ∀ (cs : List ItemIdCompactData) (size : ℕ),
        (∀ c ∈ cs, c ∈ page.compactableItems) →
        page'.notPrunedDelSize cs size = page.notPrunedDelSize cs size := by
      intro cs
      induction cs with
      | nil => exact fun _ _ => rfl
      | cons c cs ih =>
        intro size hmem
        have ih' := fun size => ih size fun d hd => hmem d (mem_cons_of_mem c hd)
        obtain ⟨hv, hn, -, -⟩ := mem_compactableItems.mp (hmem c mem_cons_self)
        rw [notPrunedDelSize, notPrunedDelSize, hdel c.itemOffnum hv hn]
        split <;> first | rfl | exact ih' _
    have hsame := hsize page.compactableItems 0 fun _ hc => hc
    unfold DataPage.tryCompactTuples at hrun ⊢
    rw [if_neg (by decide)] at hrun ⊢
    rw [h.compactableItems_eq, hsame]
    cases hdelSize : page.notPrunedDelSize page.compactableItems 0 with
    | none =>
      rw [hdelSize] at hrun
      simp at hrun
    | some delSize =>
      rw [hdelSize, some.injEq] at hrun
      refine ⟨_, rfl, ?_⟩
      rw [← h.compactAll_samePruned_iff hheap hheap' hlayout hlayout' hused, ← hrun]
      exact ⟨fun hp => ⟨hp.tds, hp.items, hp.tdStatus, hp.lockerTdId, hp.bytes⟩,
        fun hp => ⟨hp.tds, hp.items, hp.tdStatus, hp.lockerTdId, hp.bytes⟩⟩

end Same

/-! ## Pruning a page and a page with other links -/

section Links

variable {page live : DataPage} {offset s l : ℕ}

section

variable (h : LinkAt page live offset s l)
include h

lemma LinkAt.isUnused_eq :
    (live.getItemId offset).isUnused = (page.getItemId offset).isUnused := by
  rw [isUnused, isUnused, h.flags_eq]

lemma LinkAt.isNoStorage_eq :
    (live.getItemId offset).isNoStorage = (page.getItemId offset).isNoStorage := by
  rw [isNoStorage, isNoStorage, h.flags_eq]

/-- The td status that is read is the one the refresh has set. -/
lemma LinkAt.getTupleTdStatus_eq (hheap : live.type = .heap)
    (hused : page.InUse offset) (hs : s < 4) : live.getTupleTdStatus offset = s := by
  rcases hused with hn | hns
  · have hn' : (live.getItemId offset).isNormal := by rw [h.item_of_normal hn, hn]
    rw [getTupleTdStatus_of_normal hheap hn', h.header hn, tdStatus,
      get_set_self]
    exact Nat.mod_eq_of_lt hs
  · rw [getTupleTdStatus_of_noStorage (h.isNoStorage_eq.trans hns), h.item, if_pos hns,
      tdStatusCode,
      get_set_self]
    exact Nat.mod_eq_of_lt hs

/-- The refresh changes no TD id. -/
lemma LinkAt.getTupleTdId_eq (hheap : page.type = .heap)
    (hheap' : live.type = .heap)
    (hused : page.InUse offset) :
    live.getTupleTdId offset = page.getTupleTdId offset := by
  rcases hused with hn | hns
  · have hn' : (live.getItemId offset).isNormal := by rw [h.item_of_normal hn, hn]
    rw [getTupleTdId_of_normal hheap hn, getTupleTdId_of_normal hheap' hn', h.header hn]
  · have hread : (live.getItemId offset).getTdId = (page.getItemId offset).getTdId := by
      rw [h.item, if_pos hns]
      exact get_set_of_disjoint (by decide) _ _
    have hu : (page.getItemId offset).isUnused = false := by
      rw [isNoStorage, decide_eq_true_eq] at hns
      rw [isUnused, hns]
      rfl
    simp only [getTupleTdId, h.isUnused_eq, h.isNoStorage_eq, hu, hns, hread, Bool.false_eq_true,
      if_false, if_true]

end

lemma getTupleTdStatus_lt (hheap : page.type = .heap)
    (hused : page.InUse offset) :
    page.getTupleTdStatus offset < 4 := by
  rcases hused with hn | hns
  · rw [getTupleTdStatus_of_normal hheap hn]
    exact HeapDiskTuple.tdStatus_lt _
  · rw [getTupleTdStatus_of_noStorage hns]
    exact get_lt 8 2 _

lemma LinkAt.liveMode_eq (h : LinkAt page live offset s l) (hn : (page.getItemId offset).isNormal) :
    (live.tupleHeader offset).liveMode = (page.tupleHeader offset).liveMode := by
  rw [h.header hn]
  exact get_set_of_disjoint (by decide) _ _

/-- A tuple is deleted after the refresh if it was before. -/
lemma LinkAt.isDiskTupleDeleted_eq (h : LinkAt page live offset s l) :
    live.isDiskTupleDeleted offset = page.isDiskTupleDeleted offset := by
  have hnormal : (live.getItemId offset).isNormal = (page.getItemId offset).isNormal := by
    rw [isNormal, isNormal, h.flags_eq]
  unfold isDiskTupleDeleted
  rw [hnormal]
  cases hn : (page.getItemId offset).isNormal with
  | false => rfl
  | true => rw [h.liveMode_eq hn]

/-- A pruned item keeps the mark of a history version, or counts as new owner. -/
lemma tdStatusCode_prunedItem (page : DataPage) (offset : ℕ) :
    (page.prunedItem offset).tdStatusCode =
      if (page.tupleHeader offset).tdStatus = attachTdAsHistoryOwner.code
      then attachTdAsHistoryOwner.code else attachTdAsNewOwner.code := by
  unfold prunedItem setTupLiveMode tdStatusCode setNoStorage setTdStatus
  dsimp only
  rw [get_set_of_disjoint (by decide), get_set_self]
  split <;> decide

section

variable (h : LinkAt page live offset s l) (hheap : page.type = .heap)
    (hn : (page.getItemId offset).isNormal) (hs : s < 4)
include h hheap hn hs

/-- Two links that both lose their storage: the items agree exactly when the statuses do. -/
lemma LinkAt.prunedItem_eq_iff
    (hcases : s = page.getTupleTdStatus offset ∨ s = attachTdAsHistoryOwner.code) :
    live.prunedItem offset = page.prunedItem offset ↔ s = page.getTupleTdStatus offset := by
  have hstatus : (live.tupleHeader offset).tdStatus = s := by
    rw [h.header hn, tdStatus, get_set_self]
    exact Nat.mod_eq_of_lt hs
  rw [getTupleTdStatus_of_normal hheap hn] at hcases ⊢
  constructor
  · intro heq
    have hcode := congrArg tdStatusCode heq
    rw [tdStatusCode_prunedItem, tdStatusCode_prunedItem, hstatus] at hcode
    rcases hcases with hs' | hhist
    · exact hs'
    · rw [if_pos hhist] at hcode
      by_cases hpage : (page.tupleHeader offset).tdStatus =
          attachTdAsHistoryOwner.code
      · rw [hhist, hpage]
      · rw [if_neg hpage] at hcode
        exact absurd hcode (by decide)
  · intro heq
    have htd : (live.tupleHeader offset).tdId = (page.tupleHeader offset).tdId := by
      rw [h.header hn]
    rw [prunedItem, prunedItem, h.item_of_normal hn, hstatus, h.liveMode_eq hn, htd, heq]

/-- A tuple that keeps its storage: it is the same exactly when its link is. -/
lemma LinkAt.sameTuple_iff_of_normal (hlen : heapDiskTupHeaderSize ≤ (page.getItemId offset).len) :
    SameTuple live page offset ↔
      s = page.getTupleTdStatus offset ∧ l = page.getTupleLockerTdId offset := by
  have hitem := h.item_of_normal hn
  have hdata : live.mem.load ((page.getItemId offset).offset + heapDiskTupHeaderSize)
      ((page.getItemId offset).len - heapDiskTupHeaderSize) =
      page.mem.load ((page.getItemId offset).offset + heapDiskTupHeaderSize)
        ((page.getItemId offset).len - heapDiskTupHeaderSize) := by
    apply ByteMem.load_congr
    intro i hi
    rw [Nat.add_assoc]
    exact h.data hn _ (by omega) (by omega)
  have hbytes : SameTuple live page offset ↔ live.tupleHeader offset = page.tupleHeader offset := by
    rw [SameTuple, storedBytes, storedBytes, hitem, HeapDiskTuple.load_eq_iff_header hlen,
      tupleHeader, tupleHeader, hitem]
    simp only [hn, hdata, and_true, true_and, forall_const]
  rw [hbytes, h.header hn, getTupleTdStatus_of_normal hheap hn,
    getTupleLockerTdId_of_normal hheap hn]
  constructor
  · intro heq
    have hinfo : set 4 2 s (page.tupleHeader offset).info = (page.tupleHeader offset).info :=
      congrArg info heq
    refine ⟨?_, congrArg lockerTdId heq⟩
    rw [tdStatus, ← hinfo, get_set_self]
    exact (Nat.mod_eq_of_lt hs).symm
  · rintro ⟨hstatus, hlocker⟩
    rw [hstatus, hlocker, tdStatus, set_get_self]

end

/-- For a pruned tuple only the td status could differ. -/
lemma LinkAt.sameTuple_iff_of_noStorage (h : LinkAt page live offset s l)
    (hns : (page.getItemId offset).isNoStorage) (hs : s < 4) :
    SameTuple live page offset ↔ s = page.getTupleTdStatus offset := by
  have hnot : (page.getItemId offset).isNormal → False := by
    intro hn
    rw [isNoStorage_of_isNormal hn] at hns
    exact absurd hns (by decide)
  rw [SameTuple, getTupleTdStatus_of_noStorage hns, h.item, if_pos hns]
  constructor
  · intro ⟨heq, _⟩
    have hcode := congrArg tdStatusCode heq
    rw [tdStatusCode, get_set_self] at hcode
    exact (Nat.mod_eq_of_lt hs).symm.trans hcode
  · intro hstatus
    refine ⟨?_, fun hn => absurd hn hnot⟩
    rw [hstatus, tdStatusCode, set_get_self]

variable {pruned redone : DataPage} {state : ℕ → Option ItemIdState}

/-- Pruning two pages alike hides the differences of the tuples that go. -/
lemma ItemsPruned.sameTuple_iff (h : ItemsPruned live pruned state)
    (h' : ItemsPruned page redone state)
    (hv : live.ValidOffset offset) (hv' : page.ValidOffset offset) :
    SameTuple pruned redone offset ↔
      match state offset with
      | some .unused => True
      | some .noStorage => live.prunedItem offset = page.prunedItem offset
      | _ => SameTuple live page offset := by
  have hitem := h.item offset hv
  have hitem' := h'.item offset hv'
  rw [SameTuple, storedBytes, storedBytes, hitem, hitem', h.mem_eq, h'.mem_eq]
  cases hstate : state offset with
  | none => rfl
  | some new =>
    cases new with
    | unused =>
      refine iff_true_intro ⟨rfl, fun hn => absurd hn ?_⟩
      exact Bool.false_ne_true
    | noStorage =>
      refine and_iff_left fun hn => absurd hn ?_
      exact Bool.false_ne_true
    | normal => rfl
    | unreadableRangeHolder => rfl

/-- What a prune of `live` and the same item changes on `page` make of one tuple in use. -/
lemma LinkAt.pruned_sameTuple_iff (h : LinkAt page live offset s l) (hwf : page.HeapWellFormed)
    (hheap : live.type = .heap) (hv : page.ValidOffset offset) (hvlive : live.ValidOffset offset)
    (hu : (page.getItemId offset).isUnused = false) (hs : s < 4)
    (hcases : s = page.getTupleTdStatus offset ∨ s = detachTd.code ∨
      s = attachTdAsHistoryOwner.code)
    (hlocker : (page.getItemId offset).isNoStorage → l = page.getTupleLockerTdId offset)
    (hp : ItemsPruned live pruned live.pruneState) (hr : ItemsPruned page redone live.pruneState) :
    SameTuple pruned redone offset ↔
      (page.isDiskTupleDeleted offset = some true ∧ s = detachTd.code) ∨
      (s = page.getTupleTdStatus offset ∧ (l = page.getTupleLockerTdId offset ∨
        ((page.getItemId offset).isNormal ∧ page.isDiskTupleDeleted offset = some true ∧
          live.ownedByOpenTxn offset = false))) := by
  have hused := hwf.used hv hu
  have hstatus := h.getTupleTdStatus_eq hheap hused hs
  have hu' : ¬ (live.getItemId offset).isUnused := by simp [h.isUnused_eq, hu]
  have htest : ∀ status : TupleTdStatus,
      live.testTupleTdStatus offset status ↔ s = status.code := by
    intro status
    rw [testTupleTdStatus, hstatus, decide_eq_true_eq]
  have hnewNotDetach : s = attachTdAsNewOwner.code →
      s ≠ detachTd.code := by
    intro heq
    rw [heq]
    decide
  rw [hp.sameTuple_iff hr hvlive hv]
  unfold pruneState
  rw [if_neg hu', h.isDiskTupleDeleted_eq, h.isNoStorage_eq]
  by_cases hdel : page.isDiskTupleDeleted offset = some true
  · by_cases howned : live.ownedByOpenTxn offset
    · -- an open transaction: the scan passes the tuple over
      have hnew : s = attachTdAsNewOwner.code := by
        rw [ownedByOpenTxn, Bool.and_eq_true] at howned
        exact (htest _).mp howned.1
      rw [if_pos howned]
      rcases hused with hn | hns
      · rw [h.sameTuple_iff_of_normal hwf.heap hn hs (hwf.header_le_len hv hn)]
        simp [hnewNotDetach hnew, howned]
      · rw [h.sameTuple_iff_of_noStorage hns hs]
        simp [hnewNotDetach hnew, howned, hlocker hns]
    · rw [if_neg howned, if_neg (by simpa using hdel)]
      by_cases hdetach : s = detachTd.code
      · rw [if_pos ((htest _).mpr hdetach)]
        simp [hdel, hdetach]
      · rw [if_neg (fun ht => hdetach ((htest _).mp ht))]
        rcases hused with hn | hns
        · rw [isNoStorage_of_isNormal hn]
          have hred := h.prunedItem_eq_iff hwf.heap hn hs
            (hcases.imp_right fun hc => hc.resolve_left hdetach)
          simp [hred, hdetach, hn, hdel, howned]
        · rw [hns, if_pos rfl]
          have hsame := h.sameTuple_iff_of_noStorage hns hs
          simp [hsame, hdetach, hlocker hns]
  · -- not deleted: only the link counts
    have hn : (page.getItemId offset).isNormal := by
      by_contra hnn
      apply hdel
      rw [isDiskTupleDeleted, if_pos (by simpa using hnn)]
    have hkeep : SameTuple live page offset ↔ s = page.getTupleTdStatus offset ∧
        l = page.getTupleLockerTdId offset :=
      h.sameTuple_iff_of_normal hwf.heap hn hs (hwf.header_le_len hv hn)
    simp [hdel, hkeep]

end Links

end DataPage

/-! ## When the reuse of TDs leaves no trace -/

section Kept

variable (env : TxnEnv) (ctx : TDAllocContext)

/-- The TD is examined, its owner has ended, and no other running transaction locks it. -/
def EndedTd (td : TD) : Prop :=
  td.xid ≠ invalidXid ∧ skipRemote env ctx td.xid = false ∧ ¬ LockedTd env td ∧
    ((td.xidStatus env).status = .frozen ∨ (td.xidStatus env).status = .committed)

/-- The reuse leaves the TD as it is, if `canReset` says whether it resets unused TDs: it has no
aborted owner, a TD of an ended transaction is marked so and not reset, and a TD without owner
is marked free. -/
def TdUnchanged (canReset : Bool) (td : TD) : Prop :=
  abortedTd env ctx td = false ∧ (EndedTd env ctx td → td.status = .occupyTrxEnd) ∧
    (FrozenTd env ctx td → canReset = false) ∧
    (EmptyTd env ctx td → td.status = .unoccupyAndPruneable)

variable {env ctx}

variable {td : TD} {canReset : Bool} {fuel : ℕ}

/-- A frozen owner has ended. -/
lemma FrozenTd.ended (h : FrozenTd env ctx td) : EndedTd env ctx td :=
  ⟨h.1, h.2.1, h.2.2.1, h.2.2.2.imp_right And.left⟩

/-- A TD with an owner is recycled exactly if the owner has ended. -/
lemma endedTd_iff :
    EndedTd env ctx td ↔ td.xid ≠ invalidXid ∧ (scanTd env ctx td).recycle ≠ none := by
  have hlock : ∀ xs, (reuseEndedTd env ctx td xs).recycle ≠ none ↔ ¬ LockedTd env td := by
    intro xs
    obtain ⟨hx, -, hl, -⟩ := fillCsnWith_owner td xs
    rw [reuseEndedTd, LockedTd]
    dsimp only
    rw [hl, hx]
    split_ifs with hlocked <;> simp [hlocked]
  refine and_congr_right fun hvalid => ?_
  rw [scanTd, if_pos hvalid]
  split_ifs with hskip
  · simp [hskip]
  · have hskip' : skipRemote env ctx td.xid = false := by simpa using hskip
    cases hst : (td.xidStatus env).status with
    | frozen | committed => simpa [hst, hskip'] using (hlock _).symm
    | _ => simp [hst]

/-- A TD whose owner is not aborted keeps its content exactly when `TdUnchanged` holds. -/
lemma availTd_sameOwner_iff (hsane : td.Sane) (hab : abortedTd env ctx td = false) :
    (availTd canReset (scanTd env ctx td).recycle (scanTd env ctx td).td).SameOwner td ↔
      TdUnchanged env ctx canReset td := by
  rcases (scanTd_spec env ctx td).1 with
    ⟨hrec, hsame, hfro, hemp⟩ | ⟨hrec, hxid, hundo, hstatus, hvalid, hfro⟩ |
    ⟨hrec, hxid, hundo, hstatus, hfro⟩ | ⟨hrec, hxid, hundo, hstatus, hemp⟩
  · have hended : ¬ EndedTd env ctx td := fun h => (endedTd_iff.mp h).2 hrec
    simp [hrec, availTd, hsame, TdUnchanged, hab, hended, hfro, hemp]
  · have hended : EndedTd env ctx td := endedTd_iff.mpr ⟨hvalid, by simp [hrec]⟩
    have hempty : ¬ EmptyTd env ctx td := fun h => hvalid h.1
    obtain ⟨h1, h2, h3⟩ := availTd_kept_owner canReset.and_false
      (scanTd_occupied hsane hvalid hstatus)
    simp [hrec, SameOwner, h1, h2, h3, hxid, hundo, TdUnchanged, hab, hended, hfro, hempty, eq_comm]
  · have hvalid := hfro.1
    have hempty : ¬ EmptyTd env ctx td := fun h => hvalid h.1
    cases canReset with
    | true =>
      simp [hrec, availTd_reset, SameOwner, reset, Ne.symm hvalid, TdUnchanged, hfro]
    | false =>
      obtain ⟨h1, h2, h3⟩ := availTd_kept_owner (Bool.false_and true)
        (scanTd_occupied hsane hvalid hstatus)
      simp [hrec, SameOwner, h1, h2, h3, hxid, hundo, TdUnchanged, hab, hfro.ended, hempty, eq_comm]
  · have hx := hemp.1
    have hundo' := hsane.2 hx
    have hfrozen : ¬ FrozenTd env ctx td := fun h => h.1 hx
    have hended : ¬ EndedTd env ctx td := fun h => h.1 hx
    have hdo := availTd_empty_sameOwner (c := canReset) hsane hx hxid hundo hstatus
    rw [hrec, SameOwner, hdo.1, hdo.2.1, hdo.2.2, hx, hundo']
    simp [reset, TdUnchanged, hab, hended, hfrozen, hemp, eq_comm]

/-- A TD comes out of the reuse as it went in exactly when `TdUnchanged` holds. -/
lemma settled_sameOwner_iff (hundo : UndoSane env) {std : TD} (hsane : td.Sane)
    (hset : settleTd env ctx fuel td = some std) :
    (availTd canReset (scanTd env ctx std).recycle (scanTd env ctx std).td).SameOwner td ↔
      TdUnchanged env ctx canReset td := by
  cases hab : abortedTd env ctx td with
  | true =>
    -- the aborted owner is gone
    have hvalid := (abortedTd_eq_true.mp hab).1
    have hne := (settleTd_of_aborted hset hundo hab).1
    have hscan : (scanTd env ctx std).td.xid = std.xid := by
      rcases (scanTd_spec env ctx std).1 with ⟨-, hsame, -, -⟩ | ⟨-, hx, -, -, -, -⟩ |
        ⟨-, hx, -, -, -⟩ | ⟨-, hx, -, -, -⟩
      · exact hsame.1
      · exact hx
      · exact hx
      · exact hx
    refine iff_of_false (fun h => ?_) (fun h => ?_)
    · have hx := h.1
      rcases availTd_xid_or canReset (scanTd env ctx std).recycle
        (scanTd env ctx std).td with h1 | h1
      · exact hne (hscan.symm.trans (h1.symm.trans hx))
      · exact hvalid (hx.symm.trans h1)
    · rw [h.1] at hab
      exact absurd hab (by decide)
  | false =>
    rw [settleTd_of_not_aborted hset hab]
    exact availTd_sameOwner_iff hsane hab

/-- The reuse leaves all TDs alone exactly if it leaves each of them alone. -/
lemma doTds_sameOwner_iff (hundo : UndoSane env) {tds settled : List TD}
    (hsane : ∀ td ∈ tds, td.Sane)
    (hset : List.Forall₂ (fun td std => settleTd env ctx fuel td = some std) tds settled) :
    List.Forall₂ SameOwner (zipWith (availTd canReset) (recycles env ctx settled)
        (settled.map fun td => (scanTd env ctx td).td)) tds ↔
      ∀ td ∈ tds, TdUnchanged env ctx canReset td := by
  induction hset with
  | nil => simp [recycles]
  | cons h hset ih =>
    have ih' := ih fun td htd => hsane td (by simp [htd])
    simp only [recycles, map_cons, zipWith_cons_cons, forall₂_cons,
      forall_mem_cons] at ih' ⊢
    rw [settled_sameOwner_iff hundo (hsane _ (by simp)) h, ih']

end Kept

namespace DataPage

section TupleKept

variable (env : TxnEnv) (ctx : TDAllocContext) (page : DataPage)

/-- Whether the reuse recycles the TD `tdId`, and then whether as unused. -/
def tdRecycle (tdId : ℕ) : Option Bool :=
  (page.tds[tdId]?).bind fun td => (scanTd env ctx td).recycle

/-- The reuse leaves no trace at the tuple at `offset`. Either the tuple is deleted and loose from
its TD, before or through the reuse, so that the prune frees its item. Or its td status stays,
and so does its locker, unless the prune takes its storage. -/
def TupleUnchanged (offset : ℕ) : Prop :=
  (page.isDiskTupleDeleted offset = some true ∧
    (page.getTupleTdStatus offset = TupleTdStatus.detachTd.code ∨
      page.tdRecycle env ctx (page.getTupleTdId offset) = some true)) ∨
  ((page.getTupleTdStatus offset = TupleTdStatus.detachTd.code ∨
      page.tdRecycle env ctx (page.getTupleTdId offset) = none ∨
      (page.tdRecycle env ctx (page.getTupleTdId offset) = some false ∧
        page.getTupleTdStatus offset = TupleTdStatus.attachTdAsHistoryOwner.code)) ∧
    (page.tdRecycle env ctx (page.getTupleLockerTdId offset) = none ∨
      ((page.getItemId offset).isNormal = true ∧ page.isDiskTupleDeleted offset = some true ∧
        page.ownedByOpenTxn offset = false)))

/-- A full prune that its log record replays: the reuse of TDs changes no TD, and what it does to
tuples the prune does away with. -/
structure ReuseUnseen : Prop where
  td : ∀ td ∈ page.tds, abortedTd env ctx td = false ∧
    (EndedTd env ctx td → td.status = .occupyTrxEnd) ∧
    (FrozenTd env ctx td → ∃ t ∈ page.tds, InProgressTd env ctx t) ∧
    (EmptyTd env ctx td → td.status = .unoccupyAndPruneable)
  tuple : ∀ offset, page.ValidOffset offset → (page.getItemId offset).isUnused = false →
    page.TupleUnchanged env ctx offset

variable {page}

/-- Looking up a TD in the list of recycled ones gives its own decision. -/
lemma slotOf_recycles (tdId : ℕ) :
    slotOf (recycleList 0 (recycles env ctx page.tds)) tdId = page.tdRecycle env ctx tdId := by
  have h := slotOf_recycleList 0 (recycles env ctx page.tds) tdId
  rw [Nat.zero_add] at h
  rw [h, recycles, getElem?_map, tdRecycle]
  cases page.tds[tdId]? <;> rfl

end TupleKept

section Status

variable {slots : List TdRecycleStatus} {tdId status lockerTdId : ℕ}

/-- The status after the refresh: when it is the one before, when it is loose, and what else. -/
lemma refreshedTdStatus_spec (slots : List TdRecycleStatus) (tdId status : ℕ) :
    (refreshedTdStatus slots tdId status = status ↔
      status = detachTd.code ∨ slotOf slots tdId = none ∨
        (slotOf slots tdId = some false ∧ status = attachTdAsHistoryOwner.code)) ∧
    (refreshedTdStatus slots tdId status = detachTd.code ↔
      status = detachTd.code ∨ slotOf slots tdId = some true) ∧
    (refreshedTdStatus slots tdId status = status ∨
      refreshedTdStatus slots tdId status = detachTd.code ∨
      refreshedTdStatus slots tdId status = attachTdAsHistoryOwner.code) := by
  have hne : attachTdAsHistoryOwner.code ≠ detachTd.code := by decide
  rw [refreshedTdStatus, statusAfter]
  by_cases hd : status = detachTd.code
  · simp [hd]
  · rw [if_neg hd]
    cases slotOf slots tdId with
    | none => simp [hd]
    | some unused => cases unused <;> simp [hd, hne, eq_comm]

/-- A locker stays exactly if its TD is not recycled. -/
lemma refreshedLocker_eq_self_iff (hvalid : ∀ slot ∈ slots, slot.id ≠ invalidTdSlot) :
    refreshedLocker slots lockerTdId = lockerTdId ↔ slotOf slots lockerTdId = none := by
  rw [refreshedLocker, lockerAfter]
  cases hslot : slotOf slots lockerTdId with
  | none => simp
  | some unused =>
    have hne : invalidTdSlot ≠ lockerTdId := by
      intro heq
      rw [← heq, slotOf_eq_none hvalid] at hslot
      simp at hslot
    simp [hne]

end Status

/-! ## The page a full prune scans -/

section Relinked

/-- `live` is `page` after a reuse of TDs that recycled `slots`. -/
structure Relinked (slots : List TdRecycleStatus) (page live : DataPage) : Prop where
  type_eq : live.type = page.type
  special_eq : live.special = page.special
  getMaxOffset_eq : live.getMaxOffset = page.getMaxOffset
  layout : live.Layout
  unused : ∀ offset, page.ValidOffset offset → (page.getItemId offset).isUnused = true →
    live.getItemId offset = page.getItemId offset
  link : ∀ offset, page.ValidOffset offset → (page.getItemId offset).isUnused = false →
    LinkAt page live offset
      (refreshedTdStatus slots (page.getTupleTdId offset) (page.getTupleTdStatus offset))
      (refreshedLocker slots (page.getTupleLockerTdId offset))

variable {slots : List TdRecycleStatus} {page base live pruned redone : DataPage} {offset : ℕ}
  {state : ℕ → Option ItemIdState}

/-- Setting the TDs comes on top of the refreshed links. -/
lemma Refreshed.withTds (h : Refreshed slots page base page.ValidOffset) {tds : List TD}
    (hlen : tds.length = page.tds.length) : Relinked slots page (base.withTds tds) := by
  refine ⟨h.type_eq, h.special_eq, h.getMaxOffset_eq, ?_, h.unused, fun offset hv hu => ?_⟩
  · refine h.layout.of_items rfl ?_ rfl rfl rfl fun _ _ _ => rfl
    rw [lower, lower, withTds_tds, hlen, ← h.tds_eq]
    rfl
  · have hlink := h.link offset hv hu hv
    exact ⟨hlink.item, hlink.header, hlink.data⟩

section

variable (h : Relinked slots page live)
include h

/-- The reuse leaves the flags of items. -/
lemma Relinked.flags_eq (hv : page.ValidOffset offset) :
    (live.getItemId offset).flags = (page.getItemId offset).flags := by
  cases hu : (page.getItemId offset).isUnused with
  | true => rw [h.unused offset hv hu]
  | false => exact (h.link offset hv hu).flags_eq

/-- Item changes leave the same tuples stored on both pages. -/
lemma Relinked.sameStored (hp : ItemsPruned live pruned state)
    (hr : ItemsPruned page redone state) : SameStored pruned redone := by
  have hmax : redone.getMaxOffset = pruned.getMaxOffset := by
    rw [hr.getMaxOffset_eq, hp.getMaxOffset_eq, h.getMaxOffset_eq]
  have hvalid : ∀ offset, pruned.ValidOffset offset → live.ValidOffset offset ∧
      page.ValidOffset offset := by
    intro offset hv
    exact ⟨hv.mono hp.getMaxOffset_eq.le,
      hv.mono (by rw [hp.getMaxOffset_eq, h.getMaxOffset_eq])⟩
  refine ⟨by rw [hr.special_eq, hp.special_eq, h.special_eq], hmax, ?_, ?_⟩
  · intro offset hv
    obtain ⟨hvl, hvp⟩ := hvalid offset hv
    rw [hp.item offset hvl, hr.item offset hvp]
    have hkept : (page.getItemId offset).isNormal = (live.getItemId offset).isNormal := by
      rw [isNormal, isNormal, h.flags_eq hvp]
    unfold itemAs
    split
    · rfl
    · rfl
    · exact hkept
  · intro offset hv hn
    obtain ⟨hvl, hvp⟩ := hvalid offset hv
    have hstored := isStored_of_isNormal hn
    have hlive := hp.item_of_stored hvl hstored
    rw [hp.item offset hvl] at hstored
    rw [hlive] at hn
    have hn' : (page.getItemId offset).isNormal := by
      rw [isNormal, ← h.flags_eq hvp]
      exact hn
    have hu := ((isStored_iff _).mp (isStored_of_isNormal hn')).1
    have hsame : live.getItemId offset = page.getItemId offset :=
      (h.link offset hvp hu).item_of_normal hn'
    rw [hlive, hsame, hr.item offset hvp, itemAs_of_stored hstored]

/-- A tuple that is still stored is deleted on both pages or on neither. -/
lemma Relinked.isDiskTupleDeleted_eq
    (hp : ItemsPruned live pruned state) (hr : ItemsPruned page redone state)
    (hv : pruned.ValidOffset offset) (hn : (pruned.getItemId offset).isNormal) :
    redone.isDiskTupleDeleted offset = pruned.isDiskTupleDeleted offset := by
  have hvl : live.ValidOffset offset := hv.mono hp.getMaxOffset_eq.le
  have hvp : page.ValidOffset offset := hvl.mono h.getMaxOffset_eq.le
  have hitem := (h.sameStored hp hr).item offset hv hn
  have hlive := hp.item_of_stored hvl (isStored_of_isNormal hn)
  have hpage := hr.item_of_stored hvp (isStored_of_isNormal (by rw [hitem]; exact hn))
  have hu : (page.getItemId offset).isUnused = false := by
    rw [← hpage, hitem]
    exact ((isStored_iff _).mp (isStored_of_isNormal hn)).1
  have hred : redone.isDiskTupleDeleted offset = page.isDiskTupleDeleted offset := by
    rw [isDiskTupleDeleted, isDiskTupleDeleted, tupleHeader, tupleHeader, hpage, hr.mem_eq]
  have hpru : pruned.isDiskTupleDeleted offset = live.isDiskTupleDeleted offset := by
    rw [isDiskTupleDeleted, isDiskTupleDeleted, tupleHeader, tupleHeader, hlive, hp.mem_eq]
  rw [hred, hpru, (h.link offset hvp hu).isDiskTupleDeleted_eq]

/-- An item that is left after the prune is in use. -/
lemma Relinked.pruned_used (hwf : page.HeapWellFormed)
    (hp : ItemsPruned live pruned state) (hv : pruned.ValidOffset offset)
    (hu : (pruned.getItemId offset).isUnused = false) : pruned.InUse offset := by
  have hvl : live.ValidOffset offset := hv.mono hp.getMaxOffset_eq.le
  have hvp : page.ValidOffset offset := hvl.mono h.getMaxOffset_eq.le
  rw [InUse]
  rw [hp.item offset hvl] at hu ⊢
  unfold itemAs at hu ⊢
  split at hu
  · exact absurd (show true = false from hu) (by decide)
  · exact Or.inr rfl
  · have hflags := h.flags_eq hvp
    rw [isUnused, hflags] at hu
    rw [isNormal, isNoStorage, hflags]
    exact hwf.used hvp hu

end

end Relinked

section Unchanged

variable {env : TxnEnv} {ctx : TDAllocContext} {page live pruned redone : DataPage} {offset : ℕ}

variable (env ctx) in
/-- No recycled TD has the id `INVALID_TD_SLOT`. -/
lemma recycleList_valid {settled : List TD} (hcount : settled.length ≤ maxTdCount) :
    ∀ slot ∈ recycleList 0 (recycles env ctx settled), slot.id ≠ invalidTdSlot := by
  have hmax : maxTdCount < invalidTdSlot := by decide
  exact recycleList_ne_invalid (by rw [recycles, length_map]; omega)

/-- TDs with the same owners have the same status. -/
lemma getTd_status_eq (htds : List.Forall₂ SameOwner live.tds page.tds) (tdId : ℕ) :
    (live.getTd tdId).status = (page.getTd tdId).status := by
  rw [getTd, getTd]
  by_cases hlt : tdId < live.tds.length
  · have hlt' : tdId < page.tds.length := htds.length_eq ▸ hlt
    rw [getD_eq_getElem _ _ hlt, getD_eq_getElem _ _ hlt']
    exact (htds.get hlt hlt').2.2
  · rw [getD_eq_default _ _ (by omega), getD_eq_default _ _ (by rw [← htds.length_eq]; omega)]

/-- If the reuse changed no TD, what it did to a tuple is seen after the prune exactly when
`TupleUnchanged` fails. -/
lemma Relinked.sameTuple_iff
    (h : Relinked (recycleList 0 (recycles env ctx page.tds)) page live) (hwf : page.HeapWellFormed)
    (hcount : page.tdCount ≤ maxTdCount) (htds : List.Forall₂ SameOwner live.tds page.tds)
    (hp : ItemsPruned live pruned live.pruneState) (hr : ItemsPruned page redone live.pruneState)
    (hv : page.ValidOffset offset) :
    SameTuple pruned redone offset ↔
      ((page.getItemId offset).isUnused = false → page.TupleUnchanged env ctx offset) := by
  have hvl : live.ValidOffset offset := hv.mono h.getMaxOffset_eq.ge
  cases hu : (page.getItemId offset).isUnused with
  | true =>
    have hitem := h.unused offset hv hu
    have hstate : live.pruneState offset = none := by
      rw [pruneState, hitem, if_pos hu]
    have hnot : ¬ (page.getItemId offset).isNormal :=
      fun hn => not_isUnused_of_isNormal hn hu
    rw [hp.sameTuple_iff hr hvl hv, hstate]
    refine iff_of_true ⟨hitem, fun hn => absurd hn ?_⟩ (by simp)
    rw [hitem]
    exact hnot
  | false =>
    have hlink := h.link offset hv hu
    have hvalid := recycleList_valid env ctx hcount
    have hused := hwf.used hv hu
    have hheap := h.type_eq.trans hwf.heap
    obtain ⟨hself, hdetach, hcases⟩ := refreshedTdStatus_spec
      (recycleList 0 (recycles env ctx page.tds)) (page.getTupleTdId offset)
      (page.getTupleTdStatus offset)
    set s := refreshedTdStatus (recycleList 0 (recycles env ctx page.tds))
      (page.getTupleTdId offset) (page.getTupleTdStatus offset) with hsdef
    set l := refreshedLocker (recycleList 0 (recycles env ctx page.tds))
      (page.getTupleLockerTdId offset) with hldef
    have hs : s < 4 := by
      rcases hcases with hc | hc | hc <;> rw [hc]
      · exact getTupleTdStatus_lt hwf.heap hused
      · decide
      · decide
    have hlocker : l = page.getTupleLockerTdId offset ↔
        page.tdRecycle env ctx (page.getTupleLockerTdId offset) = none := by
      rw [hldef, refreshedLocker_eq_self_iff hvalid, slotOf_recycles]
    have hnolock : (page.getItemId offset).isNoStorage → l = page.getTupleLockerTdId offset := by
      intro hns
      have hinvalid : page.getTupleLockerTdId offset = invalidTdSlot := by
        simp [getTupleLockerTdId, hns]
      rw [hldef, refreshedLocker_eq_self_iff hvalid, hinvalid]
      exact slotOf_eq_none hvalid
    -- with the status and the TDs as before, so is the test for an open transaction
    have howned : s = page.getTupleTdStatus offset →
        live.ownedByOpenTxn offset = page.ownedByOpenTxn offset := by
      intro heq
      rw [ownedByOpenTxn, ownedByOpenTxn, testTupleTdStatus, testTupleTdStatus,
        hlink.getTupleTdStatus_eq hheap hused hs, hlink.getTupleTdId_eq hwf.heap hheap hused,
        getTd_status_eq htds, heq]
    rw [slotOf_recycles] at hself hdetach
    have hiff : SameTuple pruned redone offset ↔ page.TupleUnchanged env ctx offset := by
      rw [hlink.pruned_sameTuple_iff hwf hheap hv hvl hu hs hcases hnolock hp hr, TupleUnchanged,
        ← hdetach, ← hself, ← hlocker]
      refine or_congr Iff.rfl (and_congr_right fun heq => ?_)
      rw [howned heq]
    exact hiff.trans ⟨fun ht _ => ht, fun ht => ht rfl⟩

/-- The TD part of `ReuseUnseen`. -/
lemma forall_tdUnchanged_iff {fuel : ℕ} {settled : List TD}
    (hskip : ∀ xid, skipRemote env ctx xid = false)
    (hset : List.Forall₂ (fun td std => settleTd env ctx fuel td = some std) page.tds settled) :
    (∀ td ∈ page.tds, TdUnchanged env ctx (canReset env ctx settled) td) ↔
      ∀ td ∈ page.tds, abortedTd env ctx td = false ∧
        (EndedTd env ctx td → td.status = .occupyTrxEnd) ∧
        (FrozenTd env ctx td → ∃ t ∈ page.tds, InProgressTd env ctx t) ∧
        (EmptyTd env ctx td → td.status = .unoccupyAndPruneable) := by
  have hskipped : ∀ td, ¬ SkippedTd env ctx td := by
    rintro td (⟨-, h⟩ | ⟨-, -, h⟩)
    · simp [hskip] at h
    · simp [hskip] at h
  have hreset : (∀ td ∈ page.tds, abortedTd env ctx td = false) →
      (canReset env ctx settled = false ↔ ∃ t ∈ page.tds, InProgressTd env ctx t) := by
    intro hab
    rw [settled_eq hset hab, canReset_eq_false_iff]
    exact or_iff_left fun ⟨t, _, ht⟩ => hskipped t ht
  by_cases hab : ∀ td ∈ page.tds, abortedTd env ctx td = false
  · simp only [TdUnchanged, hreset hab]
  · exact iff_of_false (fun h => hab fun td htd => (h td htd).1)
      fun h => hab fun td htd => (h td htd).1

end Unchanged

lemma SamePruned.refl (page : DataPage) : SamePruned page page :=
  ⟨forall₂_sameOwner_refl _, rfl, fun _ _ _ => rfl, fun _ _ _ => rfl, fun _ _ _ => rfl⟩

end DataPage

open DataPage

/-! ## Redo against the prune -/

section Main

variable {env : TxnEnv}

/-- The item changes of a scan after a full prune's reuse of TDs, on the live page and on redo's. -/
lemma redo_fullPrune_iff (hundo : UndoSane env) {recycleMinCsn fuel : ℕ}
    {page live page' : DataPage} {diffs : List ItemIdDiff} {csn : ℕ} {allocated : Bool}
    (hwf : page.HeapWellFormed)
    (hsane : ∀ td ∈ page.tds, td.Sane) (hcount : page.tdCount ≤ maxTdCount)
    (hreuse : page.reuseTdsForPrune env recycleMinCsn fuel true = some live)
    (hscan : live.scanPrunableItems (range' 1 live.getMaxOffset) invalidCsn = some (diffs, csn))
    (hcompact : (live.applyItemIdDiff diffs csn).tryCompactTuples allocated = some page') :
    (∃ page'', (page.applyItemIdDiff diffs csn).tryCompactTuples allocated = some page'' ∧
        SamePruned page' page'') ↔
      page.ReuseUnseen env (begin recycleMinCsn false) := by
  rw [reuseTdsForPrune, if_pos rfl, map_eq_some_iff] at hreuse
  obtain ⟨⟨live', ctx', tdId⟩, hrun, hlive⟩ := hreuse
  have hskip : ∀ xid, skipRemote env (begin recycleMinCsn false) xid = false := fun _ => rfl
  set ctx := begin recycleMinCsn false
  obtain ⟨settled, hset, hpage, -⟩ := tryReuseTdSlots_spec hrun
  have hforall := settleTds_forall₂ hset
  have hlen := hforall.length_eq
  have hvalid := recycleList_valid env ctx
    (show settled.length ≤ maxTdCount by rw [← hlen]; exact hcount)
  have hdolen : (doTds env ctx settled).length = page.tds.length := by
    simp [doTds, recycles, hlen]
  have hrelinked := (refreshTupleTdStatus_refreshed hwf
    (recycleList_nodup 0 (recycles env ctx settled)) hvalid).withTds hdolen
  rw [← hpage, show live' = live from hlive] at hrelinked
  have htdsLive : live.tds = doTds env ctx settled := by
    rw [← show live' = live from hlive, hpage]
    rfl
  have hdiffs := scanPrunableItems_eq hscan
  have hp := applyItemIdDiff_pruned live.pruneState csn hdiffs
  rw [hrelinked.getMaxOffset_eq] at hdiffs
  have hr := applyItemIdDiff_pruned live.pruneState csn hdiffs
  have hstored := hrelinked.sameStored hp hr
  obtain ⟨page'', hredo, hiff⟩ := hstored.tryCompactTuples
    (fun offset hv hn => hrelinked.isDiskTupleDeleted_eq hp hr hv hn)
    (hp.type_eq.trans (hrelinked.type_eq.trans hwf.heap)) (hr.type_eq.trans hwf.heap)
    (hp.layout hrelinked.layout) (hr.layout hwf.layout)
    (fun offset hv hu => hrelinked.pruned_used hwf hp hv hu) hcompact
  simp only [hredo, some.injEq, exists_eq_left', hiff]
  rw [hp.tds_eq, hr.tds_eq, htdsLive, doTds, doTds_sameOwner_iff hundo hsane hforall,
    forall_tdUnchanged_iff hskip hforall]
  -- once the TDs are known to be kept, each tuple stands for itself
  have htuples : (∀ td ∈ page.tds, TdUnchanged env ctx (canReset env ctx settled) td) →
      ((∀ offset, (live.applyItemIdDiff diffs csn).ValidOffset offset →
        SameTuple (live.applyItemIdDiff diffs csn) (page.applyItemIdDiff diffs csn) offset) ↔
      ∀ offset, page.ValidOffset offset → (page.getItemId offset).isUnused = false →
        page.TupleUnchanged env ctx offset) := by
    intro htd
    have htds := (doTds_sameOwner_iff hundo hsane hforall).mpr htd
    rw [← doTds, ← htdsLive] at htds
    rw [settled_eq hforall fun td hmem => (htd td hmem).1] at hrelinked
    refine forall_congr' fun offset => ?_
    rw [ValidOffset, ValidOffset, hp.getMaxOffset_eq, hrelinked.getMaxOffset_eq]
    exact imp_congr_right fun hv => hrelinked.sameTuple_iff hwf hcount htds hp hr hv
  constructor
  · rintro ⟨htd, htuple⟩
    exact ⟨htd, (htuples ((forall_tdUnchanged_iff hskip hforall).mpr htd)).mp htuple⟩
  · rintro ⟨htd, htuple⟩
    exact ⟨htd, (htuples ((forall_tdUnchanged_iff hskip hforall).mpr htd)).mpr htuple⟩

/-- A page with one tuple of 5000 bytes that transaction 5 has deleted. -/
def deletedTupleAt (offset : ℕ) : DataPage where
  type := .heap
  selfPageId := ⟨1, 3⟩
  upper := offset
  special := 8192
  hasFreeItemId := false
  hasPrunableTuple := true
  hasPrunableItem := false
  tds := [writtenTd]
  items := [⟨.normal, offset, 5000⟩]
  mem := HeapDiskTuple.setInfo (HeapDiskTuple.setXid (HeapDiskTuple.setTupleSize
    (HeapDiskTuple.setLockerTdId (fun _ => 0) offset invalidTdSlot) offset 5000) offset 5) offset
    0x180
  potentialDelSize := 5000
  recentDeadTupleMinCsn := invalidCsn

/-- The page with the tuple at its end. -/
def deletedTuplePage : DataPage := deletedTupleAt 3192

end Main

end DStore
