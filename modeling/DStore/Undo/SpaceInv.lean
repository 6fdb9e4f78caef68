import DStore.Undo.SpaceRun

/-!
# What a run of the undo space keeps

The records of slots that are not recycled lie one after the other between the recycle page and the
append position, and the tail pointer of each such slot is one of its own records. So the page that
`Recycle` frees up to is never behind a record that is still needed.
-/

namespace DStore

open LinkedRing List PageStream

/-! ## Tail pointers of the slots -/

lemma freezeTxnSlot_spaceTail {startPage : PageId} (st : RecycleState) (l : ℕ) :
    (txnSlot startPage (freezeTxnSlot startPage st).pages l).spaceTailUndoPtr =
      (txnSlot startPage st.pages l).spaceTailUndoPtr := by
  refine apply_update_of_eq
    (fun page : TransactionSlotPage => (page.slots (getSlotId l)).spaceTailUndoPtr) ?_
  exact apply_update_of_eq TransactionSlot.spaceTailUndoPtr (by rfl)

/-- The pointer of the state is the one it started with, or the tail of a slot frozen since. -/
structure TailsKept (startPage : PageId) (st st' : RecycleState) : Prop where
  le : st.recycleLogicSlotId ≤ st'.recycleLogicSlotId
  tail : ∀ l, (txnSlot startPage st'.pages l).spaceTailUndoPtr =
    (txnSlot startPage st.pages l).spaceTailUndoPtr
  ptr : st'.recycleUndoPtr = st.recycleUndoPtr ∨
    ∃ l, st.recycleLogicSlotId ≤ l ∧ l < st'.recycleLogicSlotId ∧
      (txnSlot startPage st.pages l).spaceTailUndoPtr = st'.recycleUndoPtr

/-- Recycling slots leaves their tails. -/
lemma recycleLoop_tailsKept (startPage : PageId) (zoneId recycleMinCsn n : ℕ) (st : RecycleState) :
    TailsKept startPage st (recycleLoop zoneId startPage recycleMinCsn n st) := by
  refine recycleLoop_invariant (fun _ _ _ h => ⟨h.le, h.tail, h.ptr⟩) (fun st' h => ?_) n st
    ⟨Nat.le_refl _, fun _ => rfl, Or.inl rfl⟩
  obtain ⟨hpages, hundo, hid⟩ := loopBody_eq zoneId startPage recycleMinCsn st'
  have hle := h.le
  refine ⟨by omega, fun l => ?_, ?_⟩
  · rw [hpages, freezeTxnSlot_spaceTail]
    exact h.tail l
  · rw [hundo, hid, freezeTxnSlot]
    dsimp only
    split_ifs
    · exact Or.inr ⟨st'.recycleLogicSlotId, hle, by omega, (h.tail _).symm⟩
    · refine h.ptr.imp_right ?_
      rintro ⟨l, hl, hl', htail⟩
      exact ⟨l, hl, by omega, htail⟩

namespace SlotZone

variable {zone : SlotZone}

/-- The pointer `RecycleTxnSlots` answers is the tail of a slot it recycles, if there is one. -/
lemma recycled_recycleUndoPtr (zone : SlotZone) (recycleMinCsn : ℕ) :
    (zone.recycled recycleMinCsn).recycleUndoPtr = invalidUndoRecPtr ∨
      ∃ l, zone.mgr.recycleLogicSlotId ≤ l ∧
        l < (zone.recycleTxnSlots recycleMinCsn).mgr.recycleLogicSlotId ∧
        (zone.slot l).spaceTailUndoPtr = (zone.recycled recycleMinCsn).recycleUndoPtr := by
  have hfinish : ∀ r st, (finishRecycle zone.mgr.zoneId zone.mgr.startPage recycleMinCsn r
      st).recycleUndoPtr = st.recycleUndoPtr ∧
      (finishRecycle zone.mgr.zoneId zone.mgr.startPage recycleMinCsn r st).recycleLogicSlotId =
        st.recycleLogicSlotId := by
    intro r st
    unfold finishRecycle generateWalForRecycle
    split_ifs <;> exact ⟨rfl, rfl⟩
  show (DStore.recycleTxnSlots _ _ _ _ _).recycleUndoPtr = _ ∨ ∃ l, _ ∧
    l < (DStore.recycleTxnSlots _ _ _ _ _).recycleLogicSlotId ∧
    _ = (DStore.recycleTxnSlots _ _ _ _ _).recycleUndoPtr
  unfold DStore.recycleTxnSlots
  rw [(hfinish _ _).1, (hfinish _ _).2]
  exact (recycleLoop_tailsKept _ _ _ _ _).ptr

/-- What a call that writes no undo does to the tail pointers. -/
structure KeepsTails (zone zone' : SlotZone) : Prop where
  recycle : zone'.mgr.recycleLogicSlotId = zone.mgr.recycleLogicSlotId
  next_le : zone.mgr.nextFreeLogicSlotId ≤ zone'.mgr.nextFreeLogicSlotId
  kept : ∀ l, zone.mgr.recycleLogicSlotId ≤ l → l < zone.mgr.nextFreeLogicSlotId →
    (zone'.slot l).spaceTailUndoPtr = (zone.slot l).spaceTailUndoPtr
  fresh : ∀ l, zone.mgr.nextFreeLogicSlotId ≤ l → l < zone'.mgr.nextFreeLogicSlotId →
    (zone'.slot l).spaceTailUndoPtr = invalidUndoRecPtr

/-- A change of a slot that leaves its tail. -/
lemma keepsTails_modifySlot {id : ℕ} {f : TransactionSlot → TransactionSlot}
    (hactive : zone.Active id)
    (hf : (f (zone.slot id)).spaceTailUndoPtr = (zone.slot id).spaceTailUndoPtr) :
    KeepsTails zone (zone.modifySlot id f) := by
  obtain ⟨hlow, hhigh, -⟩ := hactive
  have hlive := zone.mgr.live_le
  refine ⟨rfl, Nat.le_refl _, fun l hl hnext => ?_, fun l hl hnext => ?_⟩
  · rw [modifySlot_slot (a := zone.mgr.recycleLogicSlotId) ⟨hlow, by omega⟩ ⟨hl, by omega⟩]
    split_ifs with heq
    · rw [hf, heq]
    · rfl
  · exact absurd hnext (Nat.not_lt.mpr hl)

/-- Allocation leaves the tails of active slots. -/
lemma keepsTails_allocSlot : KeepsTails zone zone.allocSlot := by
  by_cases hfree : zone.mgr.hasFreeSlot
  swap
  · rw [allocSlot_of_full hfree]
    exact ⟨rfl, Nat.le_refl _, fun _ _ _ => rfl, fun l hl hnext => absurd hnext (Nat.not_lt.mpr hl)⟩
  have hrecycle := zone.mgr.recycle_le
  have hroom := hfree
  unfold UndoZoneTrxManager.hasFreeSlot at hroom
  have hslot : ∀ l, zone.mgr.recycleLogicSlotId ≤ l → l < zone.mgr.nextFreeLogicSlotId + 1 →
      zone.allocSlot.slot l = if l = zone.mgr.nextFreeLogicSlotId then
        TransactionSlot.init zone.mgr.nextFreeLogicSlotId else zone.slot l := by
    intro l hl hnext
    exact allocSlot_slot hfree (a := zone.mgr.recycleLogicSlotId) ⟨hrecycle, by omega⟩
      ⟨hl, by omega⟩
  refine ⟨allocSlot_recycle hfree, by rw [allocSlot_next hfree]; omega, fun l hl hnext => ?_,
    fun l hl hnext => ?_⟩
  · rw [hslot l hl (by omega), if_neg (by omega)]
  · rw [allocSlot_next hfree] at hnext
    rw [hslot l (by omega) hnext, if_pos (by omega)]
    rfl

end SlotZone

open SlotZone

/-! ## The invariant -/

/-- Where a record of a slot that is not recycled lies. -/
structure PlacedRecord.LiveAt (q : PlacedRecord) (pages : UndoPages) (chain : ℕ → PageId)
    (lo : ℕ) : Prop where
  lo_le : lo * 8128 ≤ q.position
  ptr : q.undoRecPtr = streamPtr chain q.position
  stored : bytes 64 8128 chain pages.mem q.position q.record.getRecordSize =
    q.record.stored q.context
  ranges : ∀ p off, InRanges q.written p off → ∃ i, i < q.record.getRecordSize ∧
    cell 64 8128 chain (q.position + i) = (p, off)
  size_le : q.record.getRecordSize ≤ 8128

/-- A record stays live while the chain before the tail stays. -/
lemma PlacedRecord.LiveAt.congr {q : PlacedRecord} {pages pages' : UndoPages}
    {chain chain' : ℕ → PageId} {lo lo' tail : ℕ} (h : q.LiveAt pages chain lo)
    (htail : q.position + q.record.getRecordSize ≤ tail) (hlo : lo' * 8128 ≤ q.position)
    (hkept : ∀ i, i * 8128 < tail → chain' i = chain i)
    (hbytes : ∀ x, lo * 8128 ≤ x → x < tail →
      byte 64 8128 chain' pages'.mem x = byte 64 8128 chain pages.mem x) :
    q.LiveAt pages' chain' lo' := by
  have hpos := getRecordSize_pos q.record
  have hlow := h.lo_le
  refine ⟨hlo, ?_, ?_, fun p off hin => ?_, h.size_le⟩
  · rw [h.ptr, streamPtr, streamPtr, hkept _ (by omega)]
  · rw [← h.stored]
    refine bytes_congr fun i hi => ?_
    exact hbytes (q.position + i) (Nat.le_trans hlow (Nat.le_add_right _ _)) (by omega)
  · obtain ⟨i, hi, hcell⟩ := h.ranges p off hin
    refine ⟨i, hi, ?_⟩
    rw [← hcell, cell, cell, hkept _ (by omega)]

namespace UndoSpace

/-- The order in which records were placed. -/
def Before (q q' : PlacedRecord) : Prop :=
  q.position + q.record.getRecordSize ≤ q'.position ∧ q.logicSlotId ≤ q'.logicSlotId

/-- What holds between steps, with the ring laid out along `chain`. -/
structure SpaceInv (st : UndoSpace) (chain : ℕ → PageId) (lo hi : ℕ) : Prop where
  onRing : st.zone.OnRing chain lo hi st.tail
  append_eq : st.zone.nextAppendUndoPtr = streamPtr chain st.tail
  ordered : st.placed.Pairwise Before
  le_tail : ∀ q ∈ st.placed, q.position + q.record.getRecordSize ≤ st.tail
  slot_lt : ∀ q ∈ st.placed, q.logicSlotId < st.slots.mgr.nextFreeLogicSlotId
  live : ∀ q ∈ st.placed, st.slots.mgr.recycleLogicSlotId ≤ q.logicSlotId →
    q.LiveAt st.zone.pages chain lo
  tails : ∀ l, st.slots.mgr.recycleLogicSlotId ≤ l → l < st.slots.mgr.nextFreeLogicSlotId →
    (st.slots.slot l).spaceTailUndoPtr = invalidUndoRecPtr ∨
      ∃ q ∈ st.placed, q.logicSlotId = l ∧
        q.undoRecPtr = (st.slots.slot l).spaceTailUndoPtr
  /-- only the last transaction of the zone may still be running -/
  last : ∀ l, st.slots.Active l → l + 1 = st.slots.mgr.nextFreeLogicSlotId

section Steps

variable {st : UndoSpace} {chain chain' : ℕ → PageId} {lo hi id hi' : ℕ} {slots : SlotZone}
  {call : SlotCall} {slotOk : Bool} {result : InsertResult} {q : PlacedRecord}

section

variable (h : st.SpaceInv chain lo hi)
include h

/-- The pages form a ring. -/
lemma SpaceInv.isRing : st.zone.pages.IsRing (toCycle chain lo hi) :=
  ⟨h.onRing.ring.toCycle_nodup, h.onRing.ring.toCycle_chain⟩

lemma SpaceInv.append_mem : st.zone.nextAppendUndoPtr.pageId ∈ toCycle chain lo hi := by
  rw [mem_toCycle, h.append_eq]
  exact ⟨st.tail / 8128, h.onRing.lo_le, h.onRing.room, rfl⟩

/-- So the ring is intact. -/
lemma SpaceInv.ringIntact : st.RingIntact := by
  refine ⟨_, h.isRing, h.append_mem, ?_⟩
  rw [mem_toCycle, h.onRing.recycle]
  exact ⟨lo, Nat.le_refl lo, h.onRing.ring.lt, rfl⟩

/-- Slot changes that leave the tails keep the invariant. -/
lemma SpaceInv.keepsTails (hkeeps : KeepsTails st.slots slots)
    (hlast : ∀ l, slots.Active l → l + 1 = slots.mgr.nextFreeLogicSlotId) :
    SpaceInv { st with slots := slots } chain lo hi where
  onRing := h.onRing
  append_eq := h.append_eq
  ordered := h.ordered
  le_tail := h.le_tail
  slot_lt q hq := Nat.lt_of_lt_of_le (h.slot_lt q hq) hkeeps.next_le
  live q hq hlive := h.live q hq (hkeeps.recycle ▸ hlive)
  tails l hl hnext := by
    rcases Nat.lt_or_ge l st.slots.mgr.nextFreeLogicSlotId with hold | hnew
    · have hl' : st.slots.mgr.recycleLogicSlotId ≤ l := hkeeps.recycle ▸ hl
      dsimp only
      rw [hkeeps.kept l hl' hold]
      exact h.tails l hl' hold
    · exact Or.inl (hkeeps.fresh l hnew hnext)
  last := hlast

/-- The active slot stays the last one. -/
lemma SpaceInv.last_step (hfits : st.slots.Fits call)
    (hnext : (st.slots.step call).mgr.nextFreeLogicSlotId = st.slots.mgr.nextFreeLogicSlotId) :
    ∀ l, (st.slots.step call).Active l →
      l + 1 = (st.slots.step call).mgr.nextFreeLogicSlotId := by
  intro l hactive
  rw [hnext]
  rcases hactive.of_step hfits with hold | hnew
  · exact h.last l hold
  · have := hactive.2.1
    omega

/-- Slot calls keep the invariant. -/
lemma SpaceInv.slotCall
    (hfits : st.Fits (.slotCall call)) : (st.step (.slotCall call)).SpaceInv chain lo hi := by
  cases call with
  | allocSlot =>
    refine h.keepsTails keepsTails_allocSlot fun l hactive => ?_
    have hfree : st.slots.Fits .allocSlot := trivial
    rcases hactive.of_step hfree with hold | hnew
    · exact absurd hold (hfits l)
    · have hlt : l < st.slots.allocSlot.mgr.nextFreeLogicSlotId := hactive.2.1
      show l + 1 = st.slots.allocSlot.mgr.nextFreeLogicSlotId
      by_cases hfree : st.slots.mgr.hasFreeSlot
      · have hnext := allocSlot_next hfree
        omega
      · rw [allocSlot_of_full hfree] at hlt ⊢
        omega
  | setSlotUndoPtr id ptr flag =>
    obtain ⟨hactive, hflag⟩ := hfits
    refine h.keepsTails (keepsTails_modifySlot hactive ?_) (h.last_step hactive rfl)
    rw [TransactionSlot.setUndoPtr, hflag]
    rfl
  | commitPending id csn =>
    exact h.keepsTails (keepsTails_modifySlot hfits rfl) (h.last_step hfits rfl)
  | commitCommitted id csnMode csn walGroupPtr =>
    exact h.keepsTails (keepsTails_modifySlot hfits rfl) (h.last_step hfits rfl)
  | rollbackTxnSlot id csn =>
    exact h.keepsTails (keepsTails_modifySlot hfits rfl) (h.last_step hfits rfl)
  | recycleTxnSlots csn => exact hfits.elim

end

/-! ## Inserting -/

variable {record : RawUndoRecord} {extendEnv : ExtendEnv} {insertEnv : InsertEnv}

lemma inserted_of_extend_fails (hfail : (st.zone.extendSpaceIfNeeded extendEnv).succ = false) :
    st.inserted record extendEnv insertEnv = none := by
  rw [inserted, if_neg (by rw [hfail]; decide)]

/-- If the extension fails, nothing else happens. -/
lemma step_of_extend_fails (hfail : (st.zone.extendSpaceIfNeeded extendEnv).succ = false) :
    st.step (.insertUndoRecord id record extendEnv insertEnv slotOk) =
      { st with zone := (st.zone.extendSpaceIfNeeded extendEnv).zone } := by
  unfold step
  dsimp only
  rw [inserted_of_extend_fails hfail]

/-- An extension that does not fail partway gives room, or fails and changes nothing. -/
lemma SpaceInv.extendSpaceIfNeeded (h : st.SpaceInv chain lo hi) {env : ExtendEnv}
    (hfresh : env.Fresh (toCycle chain lo hi))
    (hwhole : st.zone.needCheckPageId ≠ st.zone.undoRecyclePageId ∨ env.extent = none ∨
      env.readOk 0 = false ∨ ∀ i, i < undoZoneExtentSize + 1 → env.readOk i) :
    st.zone.extendSpaceIfNeeded env = ⟨st.zone, [], false⟩ ∨
      ∃ zone' wal chain' hi' firstPageId, st.zone.extendSpaceIfNeeded env = ⟨zone', wal, true⟩ ∧
        ExtendSpec chain chain' lo hi hi' st.tail st.zone zone' firstPageId := by
  by_cases hneed : st.zone.needCheckPageId = st.zone.undoRecyclePageId
  swap
  · exact Or.inr ⟨st.zone, [], chain, hi, st.zone.undoRecyclePageId,
      extendSpaceIfNeeded_of_ne hneed, h.onRing.extendSpec_self hneed _⟩
  cases hextent : env.extent with
  | none => exact Or.inl (extendSpaceIfNeeded_of_none hneed hextent)
  | some firstPageId =>
    rcases hwhole with hne | hnone | hread | hread
    · exact absurd hneed hne
    · rw [hextent] at hnone
      cases hnone
    · exact Or.inl (extendSpaceIfNeeded_of_read_zero hneed hextent hread)
    · have hoff : ∀ i, lo ≤ i → i < hi → ∀ j, j < undoZoneExtentSize - 1 →
          chain i ≠ extentPage firstPageId j := by
        intro i hilo hihi j hj heq
        apply hfresh firstPageId hextent j hj
        rw [← heq, mem_toCycle]
        exact ⟨i, hilo, hihi, rfl⟩
      obtain ⟨zone', wal, chain', hextend, hspec⟩ := h.onRing.extend hextent hread hoff hneed
      exact Or.inr ⟨zone', wal, chain', _, firstPageId, hextend, hspec⟩

/-- What the two calls of a transaction do, with the ring laid out along `chain'` after them. -/
structure InsertedSpec (st : UndoSpace) (chain' : ℕ → PageId) (lo hi' : ℕ)
    (record : RawUndoRecord) (insertEnv : InsertEnv) (result : InsertResult) : Prop where
  inj : Set.InjOn chain' (Set.Ico lo hi')
  room : (st.tail + record.getRecordSize) / 8128 < hi'
  live : ∀ q ∈ st.placed, st.slots.mgr.recycleLogicSlotId ≤ q.logicSlotId →
    q.LiveAt result.zone.pages chain' lo
  ranges : ∀ p off, InRanges result.written p off → ∃ i, i < record.getRecordSize ∧
    cell 64 8128 chain' (st.tail + i) = (p, off)
  ending :
    (result.undoRecPtr = streamPtr chain' st.tail ∧
      result.zone.OnRing chain' lo hi' (st.tail + record.getRecordSize) ∧
      result.zone.nextAppendUndoPtr = streamPtr chain' (st.tail + record.getRecordSize) ∧
      bytes 64 8128 chain' result.zone.pages.mem st.tail record.getRecordSize =
        record.stored insertEnv.context) ∨
    ((insertEnv.pageOk = false ∨ ∃ i, insertEnv.walOk i = false) ∧
      result.undoRecPtr = invalidUndoRecPtr ∧ result.zone.OnRing chain' lo hi' st.tail ∧
      result.zone.nextAppendUndoPtr = streamPtr chain' st.tail)

lemma streamPtr_ne_invalid (x : ℕ) : streamPtr chain x ≠ invalidUndoRecPtr := by
  intro heq
  have hoff := streamPtr_offset chain x
  rw [heq] at hoff
  have hinvalid : invalidUndoRecPtr.offset.toNat = 65535 := rfl
  omega

section

variable (h : st.SpaceInv chain lo hi)
include h

/-- The insert after a successful extension. -/
lemma SpaceInv.inserted_of_extend (hsize : record.getRecordSize ≤ undoRecordPageMaxFreeSpace)
    {zone' : UndoZone} {wal : List UndoRingWal} {firstPageId : PageId}
    (hextend : st.zone.extendSpaceIfNeeded extendEnv = ⟨zone', wal, true⟩)
    (hspec : ExtendSpec chain chain' lo hi hi' st.tail st.zone zone' firstPageId)
    (insertEnv : InsertEnv) :
    ∃ result, st.inserted record extendEnv insertEnv = some result ∧
      InsertedSpec st chain' lo hi' record insertEnv result ∧
      ∀ p, (result.zone.pages p).header = (zone'.pages p).header := by
  obtain ⟨result, hinsert, hresult⟩ := hspec.ready.insert hsize insertEnv
  have hroom := hspec.ready.room
  rw [undoRecordPageMaxFreeSpace_eq] at hsize
  have hend : (st.tail + record.getRecordSize) / 8128 < hi' := by omega
  -- the append position is inside its page, so it keeps its page
  have hoff : st.zone.nextAppendUndoPtr.offset.toNat < 8192 := by
    rw [h.append_eq, streamPtr_offset]
    omega
  have happend : zone'.nextAppendUndoPtr = streamPtr chain' st.tail := by
    rw [hspec.append, h.append_eq, streamPtr, streamPtr, hspec.keptAppend hoff]
  refine ⟨result, ?_, ⟨hspec.ready.ring.inj, hend, fun q hq hlive => ?_, hresult.ranges, ?_⟩,
    hresult.within.header⟩
  · unfold inserted
    rw [hextend]
    exact hinsert
  · refine (h.live q hq hlive).congr (h.le_tail q hq) (h.live q hq hlive).lo_le hspec.kept
      fun x hxlo hx => ?_
    rw [hresult.within.byte_eq hspec.ready.ring.inj hend hxlo hx]
    exact hspec.byte_eq h.onRing.room hxlo hx
  · rcases hresult.ending with ⟨hptr, hputs, hring, hnext⟩ | ⟨hfail, hptr, hnext, hcheck⟩
    · refine Or.inl ⟨hptr.trans happend, hring, hnext, ?_⟩
      have hstored := hputs.stored
      rwa [length_stored] at hstored
    · refine Or.inr ⟨hfail, hptr, ⟨⟨hresult.within.ring hspec.ready.ring, ?_, ?_⟩, by omega, ?_⟩,
        hnext.trans happend⟩
      · rw [hresult.recycle, hspec.ready.recycle]
      · rw [hnext]
        exact hspec.ready.append
      · rw [hcheck]
        exact hspec.ready.needCheck (by rw [hspec.append]; exact hoff)

/-- An insert overwrites no record that is still live. -/
lemma InsertedSpec.spares (hspec : InsertedSpec st chain' lo hi' record insertEnv result)
    (hq : q ∈ st.placed) (hlive : st.slots.mgr.recycleLogicSlotId ≤ q.logicSlotId) {p : PageId}
    {off : ℕ} (hold : InRanges q.written p off) : ¬ InRanges result.written p off := by
  intro hnew
  have hat := hspec.live q hq hlive
  obtain ⟨i, hi1, hcell⟩ := hat.ranges p off hold
  obtain ⟨j, hj, hcell'⟩ := hspec.ranges p off hnew
  have htail := h.le_tail q hq
  have hlow := hat.lo_le
  have hroom := hspec.room
  have hlo : lo ≤ st.tail / 8128 := h.onRing.lo_le
  have := eq_of_cell_eq hspec.inj (x := q.position + i) (y := st.tail + j)
    ⟨by omega, by omega⟩ ⟨by omega, by omega⟩ (hcell.trans hcell'.symm)
  omega

/-- The slots after an insert: the new record is the tail of its slot, or the tails are as they
were. -/
lemma SpaceInv.insert_tails (hactive : st.slots.Active id) {ptr : UndoRecPtr} (new : PlacedRecord)
    (hid : new.logicSlotId = id) (hptr : new.undoRecPtr = ptr) (slotOk : Bool) (hslots : slots =
      if slotOk then st.slots.step (.setSlotUndoPtr id ptr true) else st.slots) :
    slots.mgr = st.slots.mgr ∧ (∀ l, slots.Active l → l + 1 = slots.mgr.nextFreeLogicSlotId) ∧
      ∀ l, slots.mgr.recycleLogicSlotId ≤ l → l < slots.mgr.nextFreeLogicSlotId →
        (slots.slot l).spaceTailUndoPtr = invalidUndoRecPtr ∨
          ∃ q ∈ st.placed ++ [new], q.logicSlotId = l ∧
            q.undoRecPtr = (slots.slot l).spaceTailUndoPtr := by
  have hkeep : ∀ l, st.slots.mgr.recycleLogicSlotId ≤ l → l < st.slots.mgr.nextFreeLogicSlotId →
      (st.slots.slot l).spaceTailUndoPtr = invalidUndoRecPtr ∨
        ∃ q ∈ st.placed ++ [new], q.logicSlotId = l ∧
          q.undoRecPtr = (st.slots.slot l).spaceTailUndoPtr := by
    intro l hl hnext
    refine (h.tails l hl hnext).imp (fun htail => htail) ?_
    rintro ⟨q, hq, hslot, htail⟩
    exact ⟨q, mem_append_left _ hq, hslot, htail⟩
  cases slotOk with
  | false =>
    obtain rfl : slots = st.slots := hslots
    exact ⟨rfl, h.last, hkeep⟩
  | true =>
    obtain rfl : slots = st.slots.step (.setSlotUndoPtr id ptr true) := hslots
    refine ⟨rfl, h.last_step hactive rfl, fun l hl hnext => ?_⟩
    have hl' : st.slots.mgr.recycleLogicSlotId ≤ l := hl
    have hnext' : l < st.slots.mgr.nextFreeLogicSlotId := hnext
    obtain ⟨hlow, hhigh, -⟩ := hactive
    have hlap := st.slots.mgr.live_le
    rw [SlotZone.step, SlotZone.modifySlot_slot (a := st.slots.mgr.recycleLogicSlotId)
      ⟨hlow, by omega⟩ ⟨hl', by omega⟩]
    split_ifs with heq
    · exact Or.inr ⟨new, mem_append_right _ mem_cons_self, by rw [hid, heq], hptr⟩
    · exact hkeep l hl' hnext'

/-- The step with a known effect on the pages. -/
lemma SpaceInv.insertUndoRecord_of_spec (hactive : st.slots.Active id)
    (hsize : record.getRecordSize ≤ undoRecordPageMaxFreeSpace)
    (hsome : st.inserted record extendEnv insertEnv = some result)
    (hspec : InsertedSpec st chain' lo hi' record insertEnv result) :
    (st.step (.insertUndoRecord id record extendEnv insertEnv slotOk)).SpaceInv chain' lo hi' := by
  unfold step
  dsimp only
  rw [hsome]
  dsimp only
  rcases hspec.ending with ⟨hptr, hring, hnext, hstored⟩ | ⟨-, hptr, hring, hnext⟩
  swap
  · rw [if_pos hptr]
    exact ⟨hring, hnext, h.ordered, h.le_tail, h.slot_lt, hspec.live, h.tails, h.last⟩
  rw [if_neg (by rw [hptr]; exact streamPtr_ne_invalid _)]
  obtain ⟨hmgr, hlast, htails⟩ := h.insert_tails hactive {
    logicSlotId := id
    undoRecPtr := result.undoRecPtr
    record := record
    context := insertEnv.context
    written := result.written
    position := st.tail } rfl rfl slotOk rfl
  have hid := h.last id hactive
  have hlo : lo ≤ st.tail / 8128 := h.onRing.lo_le
  refine ⟨hring, hnext, ?_, fun q hq => ?_, fun q hq => ?_, fun q hq hlive => ?_, htails, hlast⟩
  · refine pairwise_append.mpr ⟨h.ordered, pairwise_singleton _ _, fun q hq q' hq' => ?_⟩
    obtain rfl := mem_singleton.mp hq'
    have hslot := h.slot_lt q hq
    exact ⟨h.le_tail q hq, by dsimp only; omega⟩
  · rcases mem_append.mp hq with hold | hnew
    · exact Nat.le_trans (h.le_tail q hold) (Nat.le_add_right _ _)
    · obtain rfl := mem_singleton.mp hnew
      exact Nat.le_refl _
  · dsimp only
    rw [hmgr]
    rcases mem_append.mp hq with hold | hnew
    · exact h.slot_lt q hold
    · obtain rfl := mem_singleton.mp hnew
      exact hactive.2.1
  · dsimp only at hlive
    rw [hmgr] at hlive
    rcases mem_append.mp hq with hold | hnew
    · exact hspec.live q hold hlive
    · obtain rfl := mem_singleton.mp hnew
      rw [undoRecordPageMaxFreeSpace_eq] at hsize
      exact ⟨by dsimp only; omega, hptr, hstored, hspec.ranges, hsize⟩

/-- Inserting a record keeps the invariant, with a longer chain if the space was extended. -/
lemma SpaceInv.insertUndoRecord
    (hfits : st.Fits (.insertUndoRecord id record extendEnv insertEnv slotOk))
    (hwhole : st.ExtendsWhole (.insertUndoRecord id record extendEnv insertEnv slotOk)) :
    ∃ chain' hi', (st.step (.insertUndoRecord id record extendEnv insertEnv slotOk)).SpaceInv
      chain' lo hi' := by
  obtain ⟨hactive, hsize, hfresh⟩ := hfits
  rcases h.extendSpaceIfNeeded (hfresh _ h.isRing h.append_mem) hwhole with hfail |
    ⟨zone', wal, chain', hi', firstPageId, hextend, hspec⟩
  · refine ⟨chain, hi, ?_⟩
    rw [step_of_extend_fails (by rw [hfail]), hfail]
    exact h
  · obtain ⟨result, hsome, hinserted, -⟩ := h.inserted_of_extend hsize hextend hspec insertEnv
    exact ⟨chain', hi', h.insertUndoRecord_of_spec hactive hsize hsome hinserted⟩

end

/-! ## Recycling -/

section

variable (h : st.SpaceInv chain lo hi)
include h

/-- Recycling up to a page moves the start of the chain there. -/
lemma SpaceInv.recycleUndoPage {endPtr : UndoRecPtr} {e : ℕ}
    (hend : endPtr.pageId = chain e) (hlo : lo ≤ e) (he : e ≤ st.tail / 8128) :
    (st.zone.recycleUndoPage endPtr).OnRing (advance chain lo hi) e (hi + (e - lo))
      st.tail := by
  have hroom := h.onRing.room
  have hring := h.onRing.ring.rotate (k := e - lo) (by omega)
  rw [show lo + (e - lo) = e by omega] at hring
  refine ⟨⟨hring, ?_, ?_⟩, by omega, ?_⟩
  · rw [advance_of_le (by omega)]
    exact hend
  · show At 64 8128 _ e st.zone.nextAppendUndoPtr.pageId
      st.zone.nextAppendUndoPtr.offset.toNat st.tail
    rw [h.append_eq, streamPtr_offset]
    have hself : At 64 8128 (advance chain lo hi) e
        (advance chain lo hi (st.tail / 8128)) (64 + st.tail % 8128) st.tail :=
      at_self (by decide) he
    rwa [advance_of_le (Nat.le_of_lt hroom)] at hself
  · rw [advance_of_le hroom]
    exact h.onRing.needCheck

/-- Recycling slots keeps the invariant. -/
lemma SpaceInv.recycleTxnSlots (recycleMinCsn : ℕ) :
    SpaceInv { st with slots := st.slots.recycleTxnSlots recycleMinCsn } chain lo hi := by
  have hspec := st.slots.recycled_spec recycleMinCsn
  have hfits : st.slots.Fits (.recycleTxnSlots recycleMinCsn) := trivial
  refine ⟨h.onRing, h.append_eq, h.ordered, h.le_tail, h.slot_lt,
    fun q hq hlive => h.live q hq (Nat.le_trans hspec.le hlive), fun l hl hnext => ?_,
    h.last_step hfits rfl⟩
  have htail : ((st.slots.recycleTxnSlots recycleMinCsn).slot l).spaceTailUndoPtr =
      (st.slots.slot l).spaceTailUndoPtr := by
    rcases st.slots.recycleTxnSlots_slot_or recycleMinCsn l with hkeep | hfrozen
    · rw [hkeep]
    · rw [hfrozen]
  dsimp only
  rw [htail]
  exact h.tails l (Nat.le_trans hspec.le hl) hnext

/-- Records of earlier slots lie before those of later ones. -/
lemma SpaceInv.position_le {q' : PlacedRecord} (hq : q ∈ st.placed) (hq' : q' ∈ st.placed)
    (hslot : q.logicSlotId < q'.logicSlotId) :
    q.position + q.record.getRecordSize ≤ q'.position := by
  obtain ⟨before, after, hsplit⟩ := append_of_mem hq'
  have hordered := h.ordered
  rw [hsplit] at hq hordered
  obtain ⟨-, hafter, hbefore⟩ := pairwise_append.mp hordered
  rcases mem_append.mp hq with hmem | hmem
  · exact (hbefore q hmem q' mem_cons_self).1
  · rcases mem_cons.mp hmem with rfl | hmem
    · omega
    · have := (rel_of_pairwise_cons hafter hmem).2
      omega

/-- Recycling slots and pages keeps the invariant. -/
lemma SpaceInv.recycle (recycleMinCsn : ℕ) (context : UndoContext) :
    ∃ chain' lo' hi', (st.step (.recycle recycleMinCsn context)).SpaceInv chain' lo' hi' := by
  have hslots := h.recycleTxnSlots recycleMinCsn
  have hspec := st.slots.recycled_spec recycleMinCsn
  unfold step
  dsimp only
  split_ifs with hptr
  · exact ⟨chain, lo, hi, hslots⟩
  -- the pointer is a record `q` of a slot that is recycled now
  obtain ⟨l, hl, hl', htail⟩ : ∃ l, st.slots.mgr.recycleLogicSlotId ≤ l ∧
      l < (st.slots.recycleTxnSlots recycleMinCsn).mgr.recycleLogicSlotId ∧
      (st.slots.slot l).spaceTailUndoPtr = (st.slots.recycled recycleMinCsn).recycleUndoPtr :=
    (st.slots.recycled_recycleUndoPtr recycleMinCsn).resolve_left hptr
  obtain ⟨q, hq, hslot, hqptr⟩ : ∃ q ∈ st.placed, q.logicSlotId = l ∧
      q.undoRecPtr = (st.slots.slot l).spaceTailUndoPtr := by
    refine (h.tails l hl (Nat.lt_of_lt_of_le hl' hspec.le_next)).resolve_left ?_
    rw [htail]
    exact hptr
  have hlive := h.live q hq (by omega)
  have hlow := hlive.lo_le
  have hqtail := h.le_tail q hq
  have hroom := h.onRing.room
  have hsize := hlive.size_le
  have hlen : q.record.dataInfo.length ≤ q.record.getRecordSize := Nat.le_add_left _ _
  have hat : At 64 8128 chain lo q.undoRecPtr.pageId q.undoRecPtr.offset.toNat
      q.position := by
    rw [hlive.ptr]
    exact streamPtr_at (by omega)
  rw [← htail, ← hqptr, readUndoRecord_spec h.onRing.ring.next_eq hat (by omega) (by omega)
    hlive.stored context]
  dsimp only
  rw [getNextUndoRecPtr_spec h.onRing.ring.next_eq hat (by omega)]
  set e := (q.position + q.record.getRecordSize) / 8128 with he
  have hkept : ∀ i, i * 8128 < st.tail → advance chain lo hi i = chain i := by
    intro i hi'
    exact advance_of_le (by omega)
  refine ⟨advance chain lo hi, e, hi + (e - lo),
    h.recycleUndoPage rfl (by omega) (by omega), ?_, h.ordered, h.le_tail, h.slot_lt,
    fun q' hq' hlive' => ?_, hslots.tails, hslots.last⟩
  · show st.zone.nextAppendUndoPtr = _
    rw [h.append_eq, streamPtr, streamPtr, advance_of_le (Nat.le_of_lt hroom)]
  · have hpos := h.position_le hq hq' (show q.logicSlotId < q'.logicSlotId by
      rw [hslot]
      exact Nat.lt_of_lt_of_le hl' hlive')
    have hle : e * 8128 ≤ q'.position := Nat.le_trans (Nat.div_mul_le_self _ _) hpos
    refine (hslots.live q' hq' hlive').congr (h.le_tail q' hq') hle hkept fun x _ hx => ?_
    rw [byte, byte, hkept _ (by omega)]
    rfl

end

end Steps

end UndoSpace

end DStore
