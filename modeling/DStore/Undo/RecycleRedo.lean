import DStore.Lib.PagedRing
import DStore.Undo.TxnSlot

/-!
# Replaying slot recycling

`RecycleTxnSlots` freezes a run of logic ids and logs it page by page. This file gives
the exact effect of both sides: the run freezes `[r₀, r)`, the replay of its log freezes
only `[max r₀ (r / N * N), r)`, the part after the last page boundary. A record that ends
at a page boundary has `newRecycleLogicSlotId % N = 0`, so its redo loop is empty.
-/

namespace DStore

open Function TransactionSlotPage PagedRing

variable {zoneId a b i j r₀ : ℕ} {startPage : PageId} {recycleMinCsn : ℕ}
  {pages pages' : TxnSlotPages}

lemma trxPageSlotsNum_pos : 0 < trxPageSlotsNum := by decide

/-! ## Slots of a set of ids -/

/-- Some id of `[a, b)` names slot `s` of page `p`. -/
def Covers (startPage : PageId) (a b : ℕ) (p : PageId) (s : ℕ) : Prop :=
  ∃ i, a ≤ i ∧ i < b ∧ getTxnSlotPageId startPage i = p ∧ getSlotId i = s

/-- `pages'` is `pages` with exactly the slots of `C` set to `FROZEN`. -/
def FrozenExactly (C : PageId → ℕ → Prop) (pages pages' : TxnSlotPages) : Prop :=
  ∀ p s, (C p s → (pages' p).slots s = { (pages p).slots s with status := .frozen }) ∧
    (¬ C p s → (pages' p).slots s = (pages p).slots s)

lemma Covers.mono {a' : ℕ} {p : PageId} {s : ℕ} (h : a' ≤ a)
    (hc : Covers startPage a b p s) : Covers startPage a' b p s := by
  obtain ⟨i, hai, hib, hp, hs⟩ := hc
  exact ⟨i, le_trans h hai, hib, hp, hs⟩

lemma not_covers_self (a : ℕ) (p : PageId) (s : ℕ) : ¬ Covers startPage a a p s := by
  rintro ⟨i, hai, hia, -⟩
  omega

/-- A longer range covers one slot more. -/
lemma covers_succ (hab : a ≤ b) (p : PageId) (s : ℕ) :
    Covers startPage a (b + 1) p s ↔
      Covers startPage a b p s ∨ (getTxnSlotPageId startPage b = p ∧ getSlotId b = s) := by
  constructor
  · rintro ⟨i, hai, hib, hp, hs⟩
    rcases Nat.lt_succ_iff_lt_or_eq.mp hib with h | rfl
    · exact Or.inl ⟨i, hai, h, hp, hs⟩
    · exact Or.inr ⟨hp, hs⟩
  · rintro (⟨i, hai, hib, hp, hs⟩ | ⟨hp, hs⟩)
    · exact ⟨i, hai, by omega, hp, hs⟩
    · exact ⟨b, hab, by omega, hp, hs⟩

lemma frozenExactly_refl {C : PageId → ℕ → Prop} (h : ∀ p s, ¬ C p s) :
    FrozenExactly C pages pages :=
  fun p s => ⟨fun hc => absurd hc (h p s), fun _ => rfl⟩

/-- The pages of a zone are distinct. -/
lemma page_eq_of_getTxnSlotPageId_eq
    (h : getTxnSlotPageId startPage i = getTxnSlotPageId startPage j) :
    page trxPageSlotsNum trxPagesPerZone i =
      page trxPageSlotsNum trxPagesPerZone j := by
  have hblock := congrArg PageId.blockId h
  have hofNat := (UInt32.add_right_inj _).mp hblock
  have hlt : ∀ k, k / trxPageSlotsNum % trxPagesPerZone < UInt32.size := fun k =>
    lt_trans (Nat.mod_lt _ (by decide)) (by decide : trxPagesPerZone < UInt32.size)
  have htoNat := congrArg UInt32.toNat hofNat
  rwa [UInt32.toNat_ofNat_of_lt' (hlt i), UInt32.toNat_ofNat_of_lt' (hlt j)] at htoNat

/-- Within a lap a slot belongs to one id. -/
lemma id_eq_of_same_slot (hi : a ≤ i ∧ i < a + trxPagesPerZone * trxPageSlotsNum)
    (hj : a ≤ j ∧ j < a + trxPagesPerZone * trxPageSlotsNum)
    (hp : getTxnSlotPageId startPage i = getTxnSlotPageId startPage j)
    (hs : getSlotId i = getSlotId j) : i = j :=
  eq_of_mem_window hi hj (page_eq_of_getTxnSlotPageId_eq hp) hs

/-- Freezing the next slot extends the range. -/
lemma FrozenExactly.freeze (hab : a ≤ b) (h : FrozenExactly (Covers startPage a b) pages pages') :
    FrozenExactly (Covers startPage a (b + 1)) pages
      (update pages' (getTxnSlotPageId startPage b)
        ((pages' (getTxnSlotPageId startPage b)).setTrxSlotStatus (getSlotId b) .frozen)) := by
  intro p s
  rw [covers_succ hab]
  by_cases hp : getTxnSlotPageId startPage b = p
  · subst hp
    simp only [update_self, setTrxSlotStatus, true_and]
    by_cases hs : getSlotId b = s
    · subst hs
      simp only [update_self, or_true, not_true, true_implies, false_implies, and_true]
      -- the slot may have been frozen before: either way only the status differs
      by_cases hc : Covers startPage a b (getTxnSlotPageId startPage b) (getSlotId b)
      · rw [(h _ _).1 hc]
      · rw [(h _ _).2 hc]
    · simp only [hs, or_false, update_of_ne (Ne.symm hs)]
      exact h _ s
  · simp only [hp, false_and, or_false, update_of_ne (Ne.symm hp)]
    exact h p s

/-! ## The recycling loop -/

/-- `IsSlotRecyclable` as a predicate of the slot. -/
def Recyclable (recycleMinCsn : ℕ) (slot : TransactionSlot) : Prop :=
  slot.status ≠ .inProgress ∧ slot.status ≠ .pendingCommit ∧
    (slot.csn = invalidCsn ∨ slot.csn < recycleMinCsn)

instance (slot : TransactionSlot) : Decidable (Recyclable recycleMinCsn slot) :=
  inferInstanceAs (Decidable (_ ∧ _ ∧ _))

/-- The check looks at the status and the csn only. -/
lemma isSlotRecyclable_recyclable (slot : TransactionSlot) (tail : UndoRecPtr) (c : Bool) :
    (isSlotRecyclable slot recycleMinCsn tail c).recyclable ↔
      Recyclable recycleMinCsn slot := by
  unfold isSlotRecyclable Recyclable
  split_ifs with hbusy hcsn
  · simp only [false_iff]
    rintro ⟨h1, h2, -⟩
    exact hbusy.elim h1 h2
  · simpa [hcsn] using hbusy
  · simp [hcsn]

/-- Freezing earlier slots does not change whether the next one can be recycled. -/
lemma recyclable_live_iff (h : FrozenExactly (Covers startPage a b) pages pages')
    (hrec : ∀ i, a ≤ i → i < b → Recyclable recycleMinCsn (txnSlot startPage pages i)) :
    Recyclable recycleMinCsn (txnSlot startPage pages' b) ↔
      Recyclable recycleMinCsn (txnSlot startPage pages b) := by
  unfold txnSlot
  by_cases hc : Covers startPage a b (getTxnSlotPageId startPage b) (getSlotId b)
  · rw [(h _ _).1 hc]
    obtain ⟨i, hai, hib, hp, hs⟩ := hc
    have hi := hrec i hai hib
    rw [txnSlot, hp, hs] at hi
    simp [Recyclable, hi.2.2, hi.1, hi.2.1]
  · rw [(h _ _).2 hc]

/-- What holds at the head of the loop. -/
structure LoopInv (startPage : PageId) (recycleMinCsn : ℕ) (pages : TxnSlotPages)
    (r₀ : ℕ) (st : RecycleState) : Prop where
  le : r₀ ≤ st.recycleLogicSlotId
  frozen : FrozenExactly (Covers startPage r₀ st.recycleLogicSlotId) pages st.pages
  recycled : ∀ i, r₀ ≤ i → i < st.recycleLogicSlotId →
    Recyclable recycleMinCsn (txnSlot startPage pages i)
  unlocked : st.lockedPage = false →
    st.recycleLogicSlotId = r₀ ∨ st.recycleLogicSlotId % trxPageSlotsNum = 0
  locked : st.lockedPage = true → r₀ < st.recycleLogicSlotId ∧
    st.recycleLogicSlotId % trxPageSlotsNum ≠ 0 ∧
    st.firstSlot = max r₀ (st.recycleLogicSlotId / trxPageSlotsNum * trxPageSlotsNum)
  -- every record logged so far ends at a page boundary
  logged : redoRecycle st.wal pages = pages

/-- Records are redone one after another. -/
lemma redoRecycle_append (wal : List WalRecordRecycleSlot) (rec : WalRecordRecycleSlot)
    (pages : TxnSlotPages) :
    redoRecycle (wal ++ [rec]) pages =
      update (redoRecycle wal pages) rec.pageId (rec.redo (redoRecycle wal pages rec.pageId)) := by
  simp [redoRecycle, List.foldl_append]

variable {st : RecycleState}

lemma lockTxnSlotPage_of_locked (h : st.lockedPage) :
    lockTxnSlotPage st = st := by simp [lockTxnSlotPage, h]

/-- One pass of the loop body, the lock and the log apart. -/
lemma loopBody_eq (zoneId : ℕ) (startPage : PageId) (recycleMinCsn : ℕ) (st : RecycleState) :
    let st' := switchTxnSlotPage zoneId startPage recycleMinCsn
      (freezeTxnSlot startPage (lockTxnSlotPage st))
    st'.pages = (freezeTxnSlot startPage st).pages ∧
      st'.recycleUndoPtr = (freezeTxnSlot startPage st).recycleUndoPtr ∧
      st'.recycleLogicSlotId = st.recycleLogicSlotId + 1 := by
  unfold switchTxnSlotPage lockTxnSlotPage generateWalForRecycle
  split_ifs <;> exact ⟨rfl, rfl, rfl⟩

/-- What the loop body keeps and the checks of slots do not look at holds after the loop. -/
lemma recycleLoop_invariant {P : RecycleState → Prop}
    (hchecked : ∀ st tail committed, P st →
      P { st with restoreUndoPtr := tail, nextToBeRecycledIsCommitted := committed })
    (hbody : ∀ st, P st → P (switchTxnSlotPage zoneId startPage recycleMinCsn
      (freezeTxnSlot startPage (lockTxnSlotPage st)))) (n : ℕ) (st : RecycleState) (h : P st) :
    P (recycleLoop zoneId startPage recycleMinCsn n st) := by
  induction n generalizing st with
  | zero => exact h
  | succ n ih =>
    unfold recycleLoop
    dsimp only
    split_ifs
    · exact ih _ (hbody _ (hchecked _ _ _ h))
    · exact hchecked _ _ _ h

/-- One pass of the loop body keeps the invariant. -/
lemma LoopInv.step (zoneId : ℕ) (h : LoopInv startPage recycleMinCsn pages r₀ st)
    (hrec : Recyclable recycleMinCsn (txnSlot startPage pages st.recycleLogicSlotId)) :
    LoopInv startPage recycleMinCsn pages r₀
      (switchTxnSlotPage zoneId startPage recycleMinCsn
        (freezeTxnSlot startPage (lockTxnSlotPage st))) := by
  set st1 := freezeTxnSlot startPage (lockTxnSlotPage st) with hst1
  have hr : (lockTxnSlotPage st).recycleLogicSlotId = st.recycleLogicSlotId := by
    unfold lockTxnSlotPage; split <;> rfl
  have hpages : (lockTxnSlotPage st).pages = st.pages := by
    unfold lockTxnSlotPage; split <;> rfl
  have hwal : (lockTxnSlotPage st).wal = st.wal := by
    unfold lockTxnSlotPage; split <;> rfl
  have hlocked : (lockTxnSlotPage st).lockedPage := by
    unfold lockTxnSlotPage; split <;> simp_all
  have hr1 : st1.recycleLogicSlotId = st.recycleLogicSlotId + 1 := by
    simp [hst1, freezeTxnSlot, hr]
  -- the page of the current slot was locked at the later of the start and the boundary
  have hfirst : (lockTxnSlotPage st).firstSlot =
      max r₀ (st.recycleLogicSlotId / trxPageSlotsNum * trxPageSlotsNum) := by
    cases hl : st.lockedPage with
    | true => rw [lockTxnSlotPage_of_locked hl]; exact (h.locked hl).2.2
    | false =>
      have hle := h.le
      simp only [lockTxnSlotPage, hl, Bool.false_eq_true, if_false]
      have hdm := Nat.div_add_mod' st.recycleLogicSlotId trxPageSlotsNum
      rcases h.unlocked hl with heq | hmod
      · omega
      · omega
  have hfrozen : FrozenExactly (Covers startPage r₀ st1.recycleLogicSlotId) pages st1.pages := by
    rw [hr1, hst1, freezeTxnSlot]
    simp only [hr, hpages]
    exact h.frozen.freeze h.le
  have hrecycled : ∀ i, r₀ ≤ i → i < st1.recycleLogicSlotId →
      Recyclable recycleMinCsn (txnSlot startPage pages i) := by
    intro i hi hlt
    rw [hr1] at hlt
    rcases Nat.lt_succ_iff_lt_or_eq.mp hlt with hlt | rfl
    · exact h.recycled i hi hlt
    · exact hrec
  have hlogged : redoRecycle st1.wal pages = pages := by
    rw [hst1, freezeTxnSlot]
    simp only [hwal]
    exact h.logged
  have hle := h.le
  unfold switchTxnSlotPage
  split_ifs with hend
  · refine ⟨show r₀ ≤ st1.recycleLogicSlotId by omega, hfrozen, hrecycled,
      fun _ => Or.inr hend, fun hl => by simp at hl, ?_⟩
    simp only [generateWalForRecycle]
    rw [redoRecycle_append, hlogged]
    simp [WalRecordRecycleSlot.redo, getSlotId, hend, redoFreeze]
  · refine ⟨by omega, hfrozen, hrecycled, fun hl => ?_, fun _ => ⟨by omega, hend, ?_⟩, hlogged⟩
    · simp [hst1, freezeTxnSlot, hlocked] at hl
    · rw [show st1.firstSlot = (lockTxnSlotPage st).firstSlot from rfl, hfirst, hr1]
      rw [hr1] at hend
      have hdiv : (st.recycleLogicSlotId + 1) / trxPageSlotsNum =
          st.recycleLogicSlotId / trxPageSlotsNum := by
        rw [Nat.succ_div_of_not_dvd fun hd => hend (Nat.mod_eq_zero_of_dvd hd)]
      rw [hdiv]

/-- Where the loop stops: at `nextFreeLogicSlotId`, or at a slot that cannot be recycled. -/
lemma recycleLoop_inv (zoneId n : ℕ) (st : RecycleState)
    (h : LoopInv startPage recycleMinCsn pages r₀ st) :
    let st' := recycleLoop zoneId startPage recycleMinCsn n st
    LoopInv startPage recycleMinCsn pages r₀ st' ∧
      st'.recycleLogicSlotId ≤ st.recycleLogicSlotId + n ∧
      (st'.recycleLogicSlotId = st.recycleLogicSlotId + n ∨
        ¬ Recyclable recycleMinCsn (txnSlot startPage pages st'.recycleLogicSlotId)) := by
  induction n generalizing st with
  | zero => exact ⟨h, le_refl _, Or.inl rfl⟩
  | succ n ih =>
    simp only [recycleLoop]
    set chk := isSlotRecyclable (txnSlot startPage st.pages st.recycleLogicSlotId)
      recycleMinCsn st.restoreUndoPtr st.nextToBeRecycledIsCommitted with hchk
    set st0 : RecycleState := { st with
      restoreUndoPtr := chk.tailUndoPtr
      nextToBeRecycledIsCommitted := chk.nextToBeRecycledIsCommitted } with hst0
    have h0 : LoopInv startPage recycleMinCsn pages r₀ st0 :=
      ⟨h.le, h.frozen, h.recycled, h.unlocked, h.locked, h.logged⟩
    have hlive := recyclable_live_iff h.frozen h.recycled
    have hiff : chk.recyclable ↔
        Recyclable recycleMinCsn (txnSlot startPage pages st.recycleLogicSlotId) :=
      (isSlotRecyclable_recyclable _ _ _).trans hlive
    split_ifs with hc
    · have hstep := h0.step zoneId (hiff.mp hc)
      obtain ⟨hinv, hle, hstop⟩ := ih _ hstep
      have hid : _ = st.recycleLogicSlotId + 1 :=
        (loopBody_eq zoneId startPage recycleMinCsn st0).2.2
      rw [hid] at hle hstop
      refine ⟨hinv, by omega, hstop.imp (fun h => by omega) id⟩
    · refine ⟨h0, by simp [hst0], Or.inr fun hrec => hc (hiff.mpr hrec)⟩

/-! ## The two effects -/

/-- Redo freezes as many slots as the record says. -/
lemma redoFreeze_slots (count t : ℕ) (page : TransactionSlotPage) (s : ℕ) :
    (redoFreeze count t page).slots s =
      if t ≤ s ∧ s < t + count then { page.slots s with status := .frozen }
      else page.slots s := by
  induction count generalizing t page with
  | zero => rw [redoFreeze, if_neg (by omega)]
  | succ n ih =>
    rw [redoFreeze, ih]
    by_cases hs : s = t
    · subst hs
      rw [if_neg (by omega), if_pos (by omega)]
      simp [setTrxSlotStatus]
    · have hiff : (t + 1 ≤ s ∧ s < t + 1 + n) ↔ (t ≤ s ∧ s < t + (n + 1)) := by omega
      simp only [hiff, setTrxSlotStatus, update_of_ne hs]

/-- Replaying one record whose two ids lie on one page freezes the ids between them. -/
lemma frozenExactly_redo (rec : WalRecordRecycleSlot)
    (hpage : rec.pageId = getTxnSlotPageId startPage rec.lastRecycleLogicSlotId)
    (hdiv : rec.lastRecycleLogicSlotId / trxPageSlotsNum =
      rec.newRecycleLogicSlotId / trxPageSlotsNum) :
    FrozenExactly (Covers startPage rec.lastRecycleLogicSlotId rec.newRecycleLogicSlotId) pages
      (update pages rec.pageId (rec.redo (pages rec.pageId))) := by
  have hmem := fun s => slot_mem_iff (s := s) trxPageSlotsNum_pos hdiv
  have hcov : ∀ p s, Covers startPage rec.lastRecycleLogicSlotId rec.newRecycleLogicSlotId p s ↔
      p = rec.pageId ∧ getSlotId rec.lastRecycleLogicSlotId ≤ s ∧
        s < getSlotId rec.newRecycleLogicSlotId := by
    intro p s
    constructor
    · rintro ⟨i, hai, hib, rfl, hs⟩
      have hidiv : i / trxPageSlotsNum = rec.lastRecycleLogicSlotId / trxPageSlotsNum :=
        le_antisymm (by rw [hdiv]; exact Nat.div_le_div_right hib.le) (Nat.div_le_div_right hai)
      refine ⟨by rw [hpage, getTxnSlotPageId, getTxnSlotPageId, hidiv],
        (hmem s).mpr ⟨i, hai, hib, hidiv, hs⟩⟩
    · rintro ⟨rfl, hs⟩
      obtain ⟨i, hai, hib, hidiv, hs⟩ := (hmem s).mp hs
      exact ⟨i, hai, hib, by rw [hpage, getTxnSlotPageId, getTxnSlotPageId, hidiv], hs⟩
  intro p s
  rw [hcov]
  by_cases hp : p = rec.pageId
  · subst hp
    simp only [update_self, WalRecordRecycleSlot.redo, redoFreeze_slots, true_and]
    constructor
    · intro hs
      rw [if_pos (by omega)]
    · intro hs
      rw [if_neg (by omega)]
  · simp [hp]

/-- The invariant holds before the loop. -/
lemma loopInv_init (startPage : PageId) (recycleMinCsn : ℕ) (pages : TxnSlotPages)
    (r₀ : ℕ) (restoreUndoPtr recycleUndoPtr : UndoRecPtr) :
    LoopInv startPage recycleMinCsn pages r₀
      { pages := pages, recycleLogicSlotId := r₀, lockedPage := false, firstSlot := 0,
        restoreUndoPtr := restoreUndoPtr, recycleUndoPtr := recycleUndoPtr,
        nextToBeRecycledIsCommitted := false, wal := [] } :=
  { le := le_refl _
    frozen := frozenExactly_refl (not_covers_self r₀)
    recycled := fun i h1 h2 => absurd h2 (by simpa using h1)
    unlocked := fun _ => Or.inl rfl
    locked := fun h => by simp at h
    logged := rfl }

/-- The exact effects of a run: where it stops, what it freezes, what its log replays. -/
structure RunSpec (mgr : UndoZoneTrxManager) (recycleMinCsn : ℕ)
    (pages : TxnSlotPages) (st : RecycleState) : Prop where
  le : mgr.recycleLogicSlotId ≤ st.recycleLogicSlotId
  le_next : st.recycleLogicSlotId ≤ mgr.nextFreeLogicSlotId
  recycled : ∀ i, mgr.recycleLogicSlotId ≤ i → i < st.recycleLogicSlotId →
    Recyclable recycleMinCsn (txnSlot mgr.startPage pages i)
  stop : st.recycleLogicSlotId = mgr.nextFreeLogicSlotId ∨
    ¬ Recyclable recycleMinCsn (txnSlot mgr.startPage pages st.recycleLogicSlotId)
  frozen : FrozenExactly
    (Covers mgr.startPage mgr.recycleLogicSlotId st.recycleLogicSlotId) pages st.pages
  replayed : FrozenExactly
    (Covers mgr.startPage (max mgr.recycleLogicSlotId
      (st.recycleLogicSlotId / trxPageSlotsNum * trxPageSlotsNum)) st.recycleLogicSlotId)
    pages (redoRecycle st.wal pages)

/-- The tail of `RecycleTxnSlots` logs the page the loop left locked. -/
lemma finishRecycle_spec (zoneId : ℕ) (h : LoopInv startPage recycleMinCsn pages r₀ st) :
    let st' := finishRecycle zoneId startPage recycleMinCsn r₀ st
    st'.recycleLogicSlotId = st.recycleLogicSlotId ∧ st'.pages = st.pages ∧
      FrozenExactly (Covers startPage
        (max r₀ (st.recycleLogicSlotId / trxPageSlotsNum * trxPageSlotsNum))
        st.recycleLogicSlotId) pages (redoRecycle st'.wal pages) := by
  have hdm := Nat.div_add_mod' st.recycleLogicSlotId trxPageSlotsNum
  have hmod := Nat.mod_lt st.recycleLogicSlotId trxPageSlotsNum_pos
  have hle := h.le
  cases hl : st.lockedPage with
  | false =>
    simp only [finishRecycle, hl, Bool.false_eq_true, if_false, true_and]
    have hempty : max r₀ (st.recycleLogicSlotId / trxPageSlotsNum * trxPageSlotsNum) =
        st.recycleLogicSlotId := by
      rcases h.unlocked hl with heq | hz <;> omega
    rw [hempty, h.logged]
    exact frozenExactly_refl (not_covers_self _)
  | true =>
    obtain ⟨hlt, hne, hfirst⟩ := h.locked hl
    simp only [finishRecycle, hl, if_true, if_pos (Nat.ne_of_gt hlt), generateWalForRecycle,
      true_and]
    rw [redoRecycle_append, h.logged, ← hfirst]
    have hdiv : st.firstSlot / trxPageSlotsNum = st.recycleLogicSlotId / trxPageSlotsNum := by
      refine le_antisymm (Nat.div_le_div_right (by omega)) ?_
      rw [Nat.le_div_iff_mul_le trxPageSlotsNum_pos]
      omega
    exact frozenExactly_redo
      ⟨getTxnSlotPageId startPage st.firstSlot, zoneId, recycleMinCsn, st.firstSlot,
        st.recycleLogicSlotId⟩ rfl hdiv

/-- `RecycleTxnSlots` meets its specification on every zone. -/
theorem recycleTxnSlots_spec (mgr : UndoZoneTrxManager) (pages : TxnSlotPages)
    (recycleMinCsn : ℕ) (restoreUndoPtr recycleUndoPtr : UndoRecPtr) :
    RunSpec mgr recycleMinCsn pages
      (recycleTxnSlots recycleMinCsn mgr pages restoreUndoPtr recycleUndoPtr) := by
  have hinit := loopInv_init mgr.startPage recycleMinCsn pages mgr.recycleLogicSlotId
    restoreUndoPtr recycleUndoPtr
  obtain ⟨hinv, hle, hstop⟩ := recycleLoop_inv mgr.zoneId
    (mgr.nextFreeLogicSlotId - mgr.recycleLogicSlotId) _ hinit
  obtain ⟨hr, hp, hredo⟩ := finishRecycle_spec mgr.zoneId hinv
  have hmgr := mgr.recycle_le
  simp only at hle hstop
  unfold recycleTxnSlots
  refine ⟨by rw [hr]; exact hinv.le, by rw [hr]; omega, by rw [hr]; exact hinv.recycled, ?_,
    by rw [hr, hp]; exact hinv.frozen, by rw [hr]; exact hredo⟩
  rw [hr]
  exact hstop.imp (fun h => by omega) id

/-! ## When the replay agrees with the run -/

/-- Both sides give every slot the same status exactly when the ids before the last page
boundary of the run were frozen already. -/
lemma RunSpec.status_eq_iff {mgr : UndoZoneTrxManager} (h : RunSpec mgr recycleMinCsn pages st) :
    (∀ p s, ((redoRecycle st.wal pages p).slots s).status = ((st.pages p).slots s).status) ↔
      ∀ i, mgr.recycleLogicSlotId ≤ i →
        i < st.recycleLogicSlotId / trxPageSlotsNum * trxPageSlotsNum →
        (txnSlot mgr.startPage pages i).status = .frozen := by
  have hbound : st.recycleLogicSlotId / trxPageSlotsNum * trxPageSlotsNum ≤
      st.recycleLogicSlotId := Nat.div_mul_le_self _ _
  constructor
  · intro heq i hi hlt
    have hdo : Covers mgr.startPage mgr.recycleLogicSlotId st.recycleLogicSlotId
        (getTxnSlotPageId mgr.startPage i) (getSlotId i) := ⟨i, hi, by omega, rfl, rfl⟩
    -- the ring is not lapped, so no id after the boundary shares the slot of `i`
    have hredo : ¬ Covers mgr.startPage (max mgr.recycleLogicSlotId
        (st.recycleLogicSlotId / trxPageSlotsNum * trxPageSlotsNum)) st.recycleLogicSlotId
        (getTxnSlotPageId mgr.startPage i) (getSlotId i) := by
      rintro ⟨j, hj, hjlt, hpj, hsj⟩
      have hnext := h.le_next
      have hlive := mgr.live_le
      have := id_eq_of_same_slot (a := mgr.recycleLogicSlotId) (by omega) (by omega) hpj hsj
      omega
    have hst := heq (getTxnSlotPageId mgr.startPage i) (getSlotId i)
    rwa [(h.replayed _ _).2 hredo, (h.frozen _ _).1 hdo] at hst
  · intro hfro p s
    by_cases hredo : Covers mgr.startPage (max mgr.recycleLogicSlotId
        (st.recycleLogicSlotId / trxPageSlotsNum * trxPageSlotsNum)) st.recycleLogicSlotId p s
    · rw [(h.replayed p s).1 hredo, (h.frozen p s).1 (hredo.mono (le_max_left _ _))]
    · rw [(h.replayed p s).2 hredo]
      by_cases hdo : Covers mgr.startPage mgr.recycleLogicSlotId st.recycleLogicSlotId p s
      · rw [(h.frozen p s).1 hdo]
        obtain ⟨i, hi, hlt, rfl, rfl⟩ := hdo
        refine hfro i hi ?_
        by_contra hge
        exact hredo ⟨i, by omega, hlt, rfl, rfl⟩
      · rw [(h.frozen p s).2 hdo]

/-- The ids before the last page boundary of the run are those up to some page's last slot
that is reached through recyclable slots only. -/
lemma RunSpec.before_boundary_iff {mgr : UndoZoneTrxManager}
    (h : RunSpec mgr recycleMinCsn pages st) (hi : mgr.recycleLogicSlotId ≤ i) :
    i < st.recycleLogicSlotId / trxPageSlotsNum * trxPageSlotsNum ↔
      ∃ e, i ≤ e ∧ e < mgr.nextFreeLogicSlotId ∧ (e + 1) % trxPageSlotsNum = 0 ∧
        ∀ j, mgr.recycleLogicSlotId ≤ j → j ≤ e →
          Recyclable recycleMinCsn (txnSlot mgr.startPage pages j) := by
  have hbound := Nat.div_mul_le_self st.recycleLogicSlotId trxPageSlotsNum
  have hnext := h.le_next
  constructor
  · intro hlt
    refine ⟨st.recycleLogicSlotId / trxPageSlotsNum * trxPageSlotsNum - 1, by omega, by omega,
      ?_, fun j hj hje => h.recycled j hj (by omega)⟩
    rw [Nat.sub_add_cancel (by omega), Nat.mul_mod_left]
  · rintro ⟨e, hie, hen, hend, hrec⟩
    -- the run cannot stop before `e`, so the boundary after `e` is inside it
    have her : e < st.recycleLogicSlotId := by
      by_contra hge
      rcases h.stop with hs | hs
      · omega
      · exact hs (hrec _ h.le (by omega))
    obtain ⟨k, hk⟩ := Nat.dvd_of_mod_eq_zero hend
    have hke : k * trxPageSlotsNum = e + 1 := by rw [Nat.mul_comm, hk]
    have hkdiv : k ≤ st.recycleLogicSlotId / trxPageSlotsNum := by
      rw [Nat.le_div_iff_mul_le trxPageSlotsNum_pos]; omega
    have := Nat.mul_le_mul_right trxPageSlotsNum hkdiv
    omega

/-- Replaying the recycle records of a run gives every slot the status the run gave it, and
freezes every recycled id, exactly when every slot up to a page's last slot that the run
recycles was frozen before. -/
theorem recycle_redo_eq_do_iff (mgr : UndoZoneTrxManager) (pages : TxnSlotPages)
    (recycleMinCsn : ℕ) (restoreUndoPtr recycleUndoPtr : UndoRecPtr) :
    let st := recycleTxnSlots recycleMinCsn mgr pages restoreUndoPtr recycleUndoPtr
    ((∀ p s, ((redoRecycle st.wal pages p).slots s).status = ((st.pages p).slots s).status) ∧
      ∀ i, mgr.recycleLogicSlotId ≤ i → i < st.recycleLogicSlotId →
        (txnSlot mgr.startPage (redoRecycle st.wal pages) i).status = .frozen) ↔
    ∀ e, e < mgr.nextFreeLogicSlotId → (e + 1) % trxPageSlotsNum = 0 →
      (∀ j, mgr.recycleLogicSlotId ≤ j → j ≤ e →
        Recyclable recycleMinCsn (txnSlot mgr.startPage pages j)) →
      ∀ i, mgr.recycleLogicSlotId ≤ i → i ≤ e →
        (txnSlot mgr.startPage pages i).status = .frozen := by
  intro st
  have h : RunSpec mgr recycleMinCsn pages st := recycleTxnSlots_spec _ _ _ _ _
  rw [and_iff_left_of_imp, h.status_eq_iff]
  · constructor
    · intro hfro e hen hend hrec i hi hie
      exact hfro i hi ((h.before_boundary_iff hi).mpr ⟨e, hie, hen, hend, hrec⟩)
    · intro hcond i hi hlt
      obtain ⟨e, hie, hen, hend, hrec⟩ := (h.before_boundary_iff hi).mp hlt
      exact hcond e hen hend hrec i hi hie
  · intro heq i hi hlt
    rw [txnSlot, heq, (h.frozen _ _).1 ⟨i, hi, hlt, rfl, rfl⟩]

/-- A zone whose only live slot is the last one of its first page. -/
def lastSlotZone : UndoZoneTrxManager where
  zoneId := 0
  startPage := ⟨1, 0⟩
  recycleLogicSlotId := 168
  nextFreeLogicSlotId := 169
  recycle_le := by decide
  live_le := by decide

/-- The slot pages of `lastSlotZone`: committed transactions with csn 5. -/
def committedPages : TxnSlotPages := fun _ =>
  { nextFreeLogicSlotId := 169
    slots := fun i => { TransactionSlot.init i with csn := 5, status := .committed } }

/-- Recycling the last slot of a page freezes it; replaying the record does not. -/
theorem recycle_last_slot_not_replayed :
    let st := recycleTxnSlots 10 lastSlotZone committedPages invalidUndoRecPtr invalidUndoRecPtr
    st.wal = [⟨⟨1, 0⟩, 0, 10, 168, 169⟩] ∧
      (txnSlot lastSlotZone.startPage st.pages 168).status = .frozen ∧
      (txnSlot lastSlotZone.startPage (redoRecycle st.wal committedPages) 168).status =
        .committed := by
  decide

end DStore
