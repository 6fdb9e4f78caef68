import DStore.Undo.RecordRoundTrip
import DStore.Undo.SpaceInv

/-!
# The undo ring never overwrites live undo

From `UndoZone::Init` on, every insert leaves the records of slots that are not recycled alone, and
the pages stay one ring with the append page and the recycle page on it, as long as no extension of
the ring fails partway.
-/

namespace DStore

open UndoPages PageId UndoZone LinkedRing

/-! ## The first extent -/

/-- The pages of the first extent, lap after lap. -/
def firstChain (firstPageId : PageId) (i : ℕ) : PageId := extentPage firstPageId (i % 127)

/-- The pages of the first extent after the initialisation. -/
lemma initUndoRecordSpace_pages (pages : UndoPages) (firstPageId : PageId) {j : ℕ} (hj : j < 127) :
    (initUndoRecordSpace pages firstPageId).pages (extentPage firstPageId j) =
      ⟨{ version := 0
         cur := extentPage firstPageId j
         prev := if j = 0 then firstPageId.plus 127 else extentPage firstPageId (j - 1)
         next := if j + 1 = 127 then firstPageId.plus 1 else extentPage firstPageId (j + 1) },
        fun _ => 0⟩ := by
  have hnew := @putNewPagesLoop_new (firstPageId.plus 1) (firstPageId.plus 1)
    (firstPageId.plus 127) (fun _ => true) 127 0 j ⟨pages, []⟩ (by decide) (fun _ _ _ => rfl)
    (Nat.zero_le j) (by omega)
  rw [Nat.zero_add] at hnew
  exact hnew

/-- They form a ring. -/
lemma initUndoRecordSpace_onRing (pages : UndoPages) (firstPageId : PageId) :
    (initUndoRecordSpace pages firstPageId).OnRing (firstChain firstPageId) 0 127 0 := by
  have hzero : extentPage firstPageId 0 = firstPageId.plus 1 := by
    rw [extentPage, plus_plus]
  have hlast : extentPage firstPageId 126 = firstPageId.plus 127 := by
    rw [extentPage, plus_plus]
  have hchain : ∀ i, i < 127 → firstChain firstPageId i = extentPage firstPageId i := by
    intro i hi
    rw [firstChain, Nat.mod_eq_of_lt hi]
  have hwrap : firstChain firstPageId 127 = extentPage firstPageId 0 := rfl
  refine ⟨⟨⟨by decide, ?_, rfl, ?_, ?_⟩, hzero.symm, ?_⟩, by decide, ?_⟩
  · rintro i ⟨-, hi⟩ j ⟨-, hj⟩ heq
    rw [hchain i hi, hchain j hj] at heq
    exact extentPage_injOn firstPageId hi hj heq
  · intro i _ hi
    rw [hchain i hi, next, initUndoRecordSpace_pages pages firstPageId hi]
    dsimp only
    split_ifs with hend
    · rw [hend, hwrap, hzero]
    · rw [hchain (i + 1) (by omega)]
  · intro i _ hi
    rw [hchain i hi]
    rcases Nat.lt_or_ge (i + 1) 127 with hlt | hge
    · rw [hchain (i + 1) hlt, prev, initUndoRecordSpace_pages pages firstPageId hlt]
      dsimp only
      rw [if_neg (by omega), Nat.add_sub_cancel]
    · obtain rfl : i = 126 := by omega
      rw [hwrap, prev, initUndoRecordSpace_pages pages firstPageId (by decide), hlast]
      rfl
  · have hoff : (initUndoRecordSpace pages firstPageId).nextAppendUndoPtr.offset.toNat =
        64 := rfl
    rw [hoff]
    exact ⟨0, Nat.le_refl 0, hzero.symm, by decide, by decide, by decide⟩
  · show (firstPageId.plus 1).plus 1 = extentPage firstPageId 1
    rfl

namespace UndoSpace

/-- The invariant holds at the start. -/
lemma spaceInv_initial (pages : UndoPages) (firstPageId : PageId) (zoneId : ℕ)
    (startPage : PageId) :
    (initial pages firstPageId zoneId startPage).SpaceInv (firstChain firstPageId) 0 127 where
  onRing := initUndoRecordSpace_onRing pages firstPageId
  append_eq := by
    have hzero : firstChain firstPageId 0 = firstPageId.plus 1 := by
      rw [firstChain, extentPage, plus_plus]
    show _ = streamPtr (firstChain firstPageId) 0
    rw [streamPtr, Nat.zero_div, Nat.zero_mod, hzero]
    rfl
  ordered := List.Pairwise.nil
  le_tail q hq := absurd hq List.not_mem_nil
  slot_lt q hq := absurd hq List.not_mem_nil
  live q hq := absurd hq List.not_mem_nil
  tails l _ hl := absurd hl (Nat.not_lt_zero l)
  last l hl := absurd hl.2.1 (Nat.not_lt_zero l)

/-! ## Runs -/

section Runs

variable {st : UndoSpace} {chain : ℕ → PageId} {lo hi : ℕ}

/-- Every step keeps the invariant. -/
lemma SpaceInv.step {s : UndoStep} (h : st.SpaceInv chain lo hi) (hfits : st.Fits s)
    (hwhole : st.ExtendsWhole s) : ∃ chain' lo' hi', (st.step s).SpaceInv chain' lo' hi' := by
  cases s with
  | slotCall call => exact ⟨chain, lo, hi, h.slotCall hfits⟩
  | insertUndoRecord id record extendEnv insertEnv slotOk =>
    obtain ⟨chain', hi', hinv⟩ := h.insertUndoRecord hfits hwhole
    exact ⟨chain', lo, hi', hinv⟩
  | recycle recycleMinCsn context => exact h.recycle recycleMinCsn context

/-- It holds in every reachable state. -/
lemma Reachable.spaceInv {pages : UndoPages} {firstPageId : PageId} {zoneId : ℕ}
    {startPage : PageId}
    (h : Reachable (initial pages firstPageId zoneId startPage) ExtendsWhole st) :
    ∃ chain lo hi, st.SpaceInv chain lo hi := by
  induction h with
  | start => exact ⟨_, _, _, spaceInv_initial pages firstPageId zoneId startPage⟩
  | step _ hfits hok ih =>
    obtain ⟨chain, lo, hi, hinv⟩ := ih
    exact hinv.step hfits hok

/-- No step writes to a record that is still needed, whether its extension fails or not. -/
lemma SpaceInv.sparesLive {s : UndoStep} (h : st.SpaceInv chain lo hi) (hfits : st.Fits s) :
    st.SparesLive s := by
  have hnothing : ∀ p off, ¬ InRanges [] p off := by
    rintro p off ⟨r, hr, -⟩
    exact absurd hr List.not_mem_nil
  cases s with
  | slotCall call => exact fun q _ _ p off _ => hnothing p off
  | recycle recycleMinCsn context => exact fun q _ _ p off _ => hnothing p off
  | insertUndoRecord id record extendEnv insertEnv slotOk =>
    obtain ⟨-, hsize, hfresh⟩ := hfits
    intro q hq hlive p off hold
    unfold UndoSpace.writtenBy
    dsimp only
    by_cases hsucc : (st.zone.extendSpaceIfNeeded extendEnv).succ
    swap
    · rw [inserted_of_extend_fails (by simpa using hsucc)]
      exact hnothing p off
    -- an extension that succeeds has read every buffer it needed
    have hwhole : st.ExtendsWhole (.insertUndoRecord id record extendEnv insertEnv slotOk) := by
      by_cases hneed : st.zone.needCheckPageId = st.zone.undoRecyclePageId
      swap
      · exact Or.inl hneed
      cases hextent : extendEnv.extent with
      | none => exact Or.inr (Or.inl hextent)
      | some firstPageId =>
        rw [extendSpaceIfNeeded_of_some hneed hextent] at hsucc
        dsimp only at hsucc
        split_ifs at hsucc with hwritten
        exact Or.inr (Or.inr (Or.inr (extendUndoPageRing_spec.1.mp hwritten)))
    rcases h.extendSpaceIfNeeded (hfresh _ h.isRing h.append_mem) hwhole with hfail |
      ⟨zone', wal, chain', hi', firstPageId, hextend, hspec⟩
    · rw [hfail] at hsucc
      cases hsucc
    · obtain ⟨result, hsome, hinserted, -⟩ := h.inserted_of_extend hsize hextend hspec insertEnv
      rw [hsome]
      exact hinserted.spares h hq hlive hold

end Runs

/-- In every run from `UndoZone::Init` on whose extensions do not fail partway, no step writes to a
byte of a record whose slot is not recycled, and the pages are one ring with the append page and the
recycle page on it. -/
theorem undo_ring_safe (pages : UndoPages) (firstPageId : PageId) (zoneId : ℕ)
    (startPage : PageId) (st : UndoSpace)
    (h : Reachable (initial pages firstPageId zoneId startPage) ExtendsWhole st) :
    st.RingIntact ∧ ∀ s, st.Fits s → st.SparesLive s := by
  obtain ⟨chain, lo, hi, hinv⟩ := h.spaceInv
  exact ⟨hinv.ringIntact, fun s hfits => hinv.sparesLive hfits⟩

/-! ## An extension that fails partway -/

/-- Undo pages as they come from the file. -/
def zeroPages : UndoPages := fun _ => ⟨⟨0, ⟨0, 0⟩, ⟨0, 0⟩, ⟨0, 0⟩⟩, fun _ => 0⟩

/-- A zone on the extent from page `(1, 0)` on, with its slots from page `(2, 0)` on. -/
def freshSpace : UndoSpace := initial zeroPages ⟨1, 0⟩ 0 ⟨2, 0⟩

/-- A record that takes the whole content of a page. -/
def pageRecord : RawUndoRecord :=
  ⟨insertHeader, List.replicate (8124 - insertHeader.getCompressedSize 0) 0⟩

lemma getRecordSize_pageRecord : pageRecord.getRecordSize = 8128 := by
  have hlt := getCompressedSize_lt insertHeader
  have hlength : pageRecord.dataInfo.length = 8124 - insertHeader.getCompressedSize 0 :=
    List.length_replicate
  rw [RawUndoRecord.getRecordSize, hlength, show pageRecord.header = insertHeader from rfl]
  omega

/-- An insert in which nothing fails. -/
def goodInsert : InsertEnv := ⟨zeroContext, true, fun _ => true⟩

/-- After `n` records of a page each: slot 0 is still running, and the page `(1, 1001)` is as it
was. -/
structure Filled (n : ℕ) (st : UndoSpace) : Prop where
  reachable : Reachable freshSpace ExtendsWhole st
  inv : st.SpaceInv (firstChain ⟨1, 0⟩) 0 127
  tail_eq : st.tail = n * 8128
  active : st.slots.Active 0
  untouched : (st.zone.pages ⟨1, 1001⟩).header = (zeroPages ⟨1, 1001⟩).header

lemma filled_zero : Filled 0 (freshSpace.step (.slotCall .allocSlot)) := by
  have hfits : freshSpace.Fits (.slotCall .allocSlot) :=
    fun l hl => absurd hl.2.1 (Nat.not_lt_zero l)
  refine ⟨.step .start hfits trivial, (spaceInv_initial _ _ _ _).slotCall hfits, rfl, ?_, ?_⟩
  · decide
  · show ((initUndoRecordSpace zeroPages ⟨1, 0⟩).pages ⟨1, 1001⟩).header = _
    rw [initUndoRecordSpace]
    dsimp only
    rw [putNewPagesIntoRing_of_ne (by decide)]

/-- One more record fills one more page. -/
lemma Filled.succ {n : ℕ} {st : UndoSpace} (h : Filled n st) (hn : n < 126) :
    ∃ st', Filled (n + 1) st' := by
  have htail := h.tail_eq
  have hne : st.zone.needCheckPageId ≠ st.zone.undoRecyclePageId := by
    rw [h.inv.onRing.needCheck_ne_iff]
    omega
  have hsize : pageRecord.getRecordSize ≤ undoRecordPageMaxFreeSpace := by
    rw [getRecordSize_pageRecord, undoRecordPageMaxFreeSpace_eq]
  have hextend : st.zone.extendSpaceIfNeeded ⟨none, fun _ => true⟩ = ⟨st.zone, [], true⟩ :=
    extendSpaceIfNeeded_of_ne hne
  obtain ⟨result, hsome, hspec, hheader⟩ := h.inv.inserted_of_extend hsize hextend
    (h.inv.onRing.extendSpec_self hne ⟨0, 0⟩) goodInsert
  have hptr : result.undoRecPtr ≠ invalidUndoRecPtr := by
    rcases hspec.ending with ⟨hptr, -⟩ | ⟨hfail | ⟨i, hfail⟩, -⟩
    · rw [hptr]
      exact streamPtr_ne_invalid _
    · cases hfail
    · cases hfail
  refine ⟨st.step (.insertUndoRecord 0 pageRecord ⟨none, fun _ => true⟩ goodInsert false),
    .step h.reachable ⟨h.active, hsize, fun _ _ _ _ hextent => by cases hextent⟩
      (Or.inl hne),
    h.inv.insertUndoRecord_of_spec h.active hsize hsome hspec, ?_, ?_, ?_⟩
  all_goals
    unfold UndoSpace.step
    dsimp only
    rw [hsome]
    dsimp only
    rw [if_neg hptr]
  · dsimp only
    rw [htail, getRecordSize_pageRecord]
    omega
  · exact h.active
  · rw [← h.untouched]
    exact hheader _

/-- All pages of the first extent can be filled. -/
lemma exists_filled {n : ℕ} (hn : n ≤ 126) : ∃ st, Filled n st := by
  induction n with
  | zero => exact ⟨_, filled_zero⟩
  | succ n ih =>
    obtain ⟨st, hst⟩ := ih (by omega)
    exact hst.succ (by omega)

/-- A ring through the append page consists of the pages of the chain. -/
lemma SpaceInv.mem_of_isRing {st : UndoSpace} {chain : ℕ → PageId} {lo hi : ℕ}
    (h : st.SpaceInv chain lo hi) {ring : Cycle PageId} (hring : st.zone.pages.IsRing ring)
    (happend : st.zone.nextAppendUndoPtr.pageId ∈ ring) : ∀ p ∈ ring, Mem chain lo hi p := by
  refine forall_mem_of_chain hring.chain happend
    (mem_toCycle.mp h.append_mem) ?_
  rintro p q ⟨i, hilo, hihi, rfl⟩ ⟨hnext, -⟩
  rw [← hnext, h.onRing.ring.next_eq i hilo hihi]
  exact h.onRing.ring.mem_of_le (by omega) hihi

/-- The second extent shares no page with the first. -/
lemma firstChain_ne_extentPage (i j : ℕ) (hj : j < undoZoneExtentSize - 1) :
    firstChain ⟨1, 0⟩ i ≠ extentPage ⟨1, 1000⟩ j := by
  intro heq
  have hj' : j < 127 := hj
  have hi := Nat.mod_lt i (show 127 > 0 by decide)
  rw [firstChain, extentPage, extentPage, plus_plus,
    show (⟨1, 1000⟩ : PageId) = (⟨1, 0⟩ : PageId).plus 1000 from rfl, plus_plus,
    plus_plus] at heq
  have := plus_inj (by omega) (by omega) heq
  omega

/-- The extent from page `(1, 1000)` on is free. -/
lemma Filled.fits {n : ℕ} {st : UndoSpace} (h : Filled n st) (readOk : ℕ → Bool) (slotOk : Bool) :
    st.Fits (.insertUndoRecord 0 pageRecord ⟨some ⟨1, 1000⟩, readOk⟩ goodInsert slotOk) := by
  refine ⟨h.active, ?_, fun ring hring happend firstPageId hextent j hj hmem => ?_⟩
  · rw [getRecordSize_pageRecord, undoRecordPageMaxFreeSpace_eq]
  · cases hextent
    obtain ⟨i, -, -, heq⟩ := h.inv.mem_of_isRing hring happend _ hmem
    exact firstChain_ne_extentPage i j hj heq

/-- An insert leaves its transaction running. -/
lemma active_insertUndoRecord {st : UndoSpace} {id : ℕ} (h : st.slots.Active id)
    (record : RawUndoRecord) (extendEnv : ExtendEnv) (insertEnv : InsertEnv) (slotOk : Bool) :
    (st.step (.insertUndoRecord id record extendEnv insertEnv slotOk)).slots.Active id := by
  have hset : ∀ ptr, (st.slots.step (.setSlotUndoPtr id ptr true)).Active id := fun ptr => by
    refine ⟨h.1, h.2.1, ?_⟩
    rcases st.slots.modifySlot_slot_or id id (fun slot => slot.setUndoPtr ptr true) with heq | heq
    all_goals
      rw [SlotZone.step, heq]
      exact h.2.2
  unfold step
  dsimp only
  split
  · exact h
  · split_ifs
    · exact h
    · exact hset _
    · exact h

/-- A transaction writes 126 pages, extends the ring for one more record and commits; then its
slot and its pages are recycled. -/
theorem freshSpace_safe :
    ∃ st, Filled 126 st ∧
      let final := ((st.step (.insertUndoRecord 0 pageRecord ⟨some ⟨1, 1000⟩, fun _ => true⟩
        goodInsert true)).step (.slotCall (.commitCommitted 0 .default 6 ⟨1, 0, 100⟩))).step
        (.recycle 7 zeroContext)
      final.RingIntact ∧ ∀ s, final.Fits s → final.SparesLive s := by
  obtain ⟨st, hst⟩ := exists_filled (n := 126) (Nat.le_refl _)
  refine ⟨st, hst, undo_ring_safe zeroPages ⟨1, 0⟩ 0 ⟨2, 0⟩ _ (.step (.step (.step hst.reachable
    (hst.fits _ true) ?_) ?_ trivial) trivial trivial)⟩
  · exact Or.inr (Or.inr (Or.inr fun _ _ => rfl))
  · exact active_insertUndoRecord hst.active _ _ _ _

/-- A run that keeps to a condition is a run. -/
lemma Reachable.mono {start st : UndoSpace} {ok ok' : UndoSpace → UndoStep → Prop}
    (h : Reachable start ok st) (hok : ∀ st s, ok st s → ok' st s) : Reachable start ok' st := by
  induction h with
  | start => exact .start
  | step _ hfits hs ih => exact .step ih hfits (hok _ _ hs)

/-- The append page is linked to the new extent, whose pages were never written. -/
theorem extend_failure_breaks_ring :
    ∃ st, Reachable freshSpace (fun _ _ => True) st ∧ ¬ st.RingIntact := by
  obtain ⟨st, hst⟩ := exists_filled (n := 126) (Nat.le_refl _)
  have htail := hst.tail_eq
  have hneed : st.zone.needCheckPageId = st.zone.undoRecyclePageId := by
    by_contra hne
    have := hst.inv.onRing.needCheck_ne_iff.mp hne
    omega
  have hpage : st.zone.nextAppendUndoPtr.pageId = ⟨1, 127⟩ := by
    rw [hst.inv.append_eq, htail]
    rfl
  -- the read of the page after the append page fails
  have hfail : st.zone.extendSpaceIfNeeded ⟨some ⟨1, 1000⟩, fun i => i == 0⟩ =
      ⟨{ st.zone with pages := st.zone.pages.setNext ⟨1, 127⟩ ⟨1, 1001⟩ }, [], false⟩ := by
    rw [extendSpaceIfNeeded_of_some hneed rfl, hpage]
    rfl
  refine ⟨st.step (.insertUndoRecord 0 pageRecord ⟨some ⟨1, 1000⟩, fun i => i == 0⟩ goodInsert
    false), .step (hst.reachable.mono fun _ _ _ => trivial) (hst.fits _ false) trivial, ?_⟩
  rw [step_of_extend_fails (by rw [hfail]), hfail]
  rintro ⟨ring, hring, happend, -⟩
  dsimp only at hring happend
  rw [hpage] at happend
  obtain ⟨q, -, hnext, hprev⟩ := exists_mem_of_chain hring.chain happend
  rw [next_setNext, if_pos rfl] at hnext
  rw [← hnext, prev_setNext, prev, hst.untouched] at hprev
  exact absurd hprev (by decide)

end UndoSpace

end DStore
