import DStore.Txn.TxnInfoCache

/-!
# Commits become visible only when their log record is durable

The transactions of all zones, the info cache, the WAL stream the node writes to and readers that
take slot copies. `Commit<TXN_STATUS_COMMITTED>` is two steps: under the page lock it marks the
slot and appends the commit record; after that it waits for the record, unless the commit is
asynchronous, and writes the slot to the cache. Readers, recycling and the other zones run in
between.
-/

namespace DStore

open SlotZone TransactionSlot TxnInfoCache TrxSlotStatus Function

/-- What is fixed during a run: the csn mode, the stream the node writes to, the setting
`synchronousCommit`, whether special asynchronous commits occur, and where the zones' slot pages
are. -/
structure CommitEnv where
  csnMode : CsnMode
  writing : WalId
  synchronousCommit : Bool
  asyncCommits : Bool
  startPage : ℕ → PageId

/-- A commit between its two steps. -/
structure Publishing where
  logicSlotId : ℕ
  walGroupPtr : WalGroupLsnInfo
  isSpecialAyncCommitAutoTrx : Bool
deriving DecidableEq, Repr

/-- The state of the node. `commitRecord` tells, for the proofs, where the commit record of a
transaction went. -/
structure CommitState where
  zones : ℕ → SlotZone
  caches : ℕ → TxnInfoCache
  publishing : ℕ → Option Publishing
  endPlsn : ℕ
  maxFlushedPlsn : ℕ
  commitRecord : ℕ → ℕ → Option WalGroupLsnInfo

/-- The steps of transactions, recycling, log flushing and readers. -/
inductive CommitStep where
  /-- A call on a zone's slots other than the second commit; `stale` is what the local slot of
  `AllocTransactionSlot` has in its uninitialised `logicSlotId`. -/
  | slotCall (zone : ℕ) (call : SlotCall) (stale : ℕ)
  /-- `Commit<TXN_STATUS_COMMITTED>` up to the unlock. -/
  | commitLog (zone logicSlotId csn size : ℕ) (isSpecialAyncCommitAutoTrx : Bool)
  /-- The rest of it. -/
  | commitPublish (zone : ℕ)
  | flush (plsn : ℕ)
  | getTransactionSlotCopy (zone logicSlotId : ℕ) (outTrxSlot : TransactionSlot)
      (recycleCsnMin : ℕ) (barrier : FailoverBarrier)

/-- The write to the cache that goes with a call on a zone's slots. -/
def SlotZone.cacheAfter (zone : SlotZone) (cache : TxnInfoCache) (stale : ℕ) :
    SlotCall → TxnInfoCache
  | .allocSlot =>
    if zone.mgr.hasFreeSlot then
      cache.writeTxnInfoToCache zone.mgr.nextFreeLogicSlotId
        { TransactionSlot.init stale with status := .inProgress, csn := invalidCsn }
        invalidCsn true
    else cache
  | .commitPending id csn =>
    let slot := (zone.step (.commitPending id csn)).slot id
    cache.writeTxnInfoToCache id slot slot.csn false
  | .rollbackTxnSlot id csn =>
    let slot := (zone.step (.rollbackTxnSlot id csn)).slot id
    cache.writeTxnInfoToCache id slot slot.csn false
  | .setSlotUndoPtr _ _ _ => cache
  | .commitCommitted _ _ _ _ => cache
  | .recycleTxnSlots _ => cache

namespace CommitState

variable (env : CommitEnv) (st : CommitState)

/-- The writing stream as `IsCommitWalPersist` sees it. -/
def stream : WritingWalStream := ⟨env.writing, st.maxFlushedPlsn⟩

/-- `GetTransactionSlotCopy` for the transaction `logicSlotId` of `zone`. -/
def slotCopy (zone logicSlotId : ℕ) (outTrxSlot : TransactionSlot) (recycleCsnMin : ℕ)
    (barrier : FailoverBarrier) : Option (TransactionSlot × TxnInfoCache) :=
  getTransactionSlotCopy (st.caches zone) ((st.zones zone).slot logicSlotId) outTrxSlot
    logicSlotId recycleCsnMin barrier (st.stream env)

/-- A node with empty zones. -/
def initial : CommitState where
  zones := fun zone => SlotZone.initial zone (env.startPage zone)
  caches := fun _ => TxnInfoCache.initial
  publishing := fun _ => none
  endPlsn := 0
  maxFlushedPlsn := 0
  commitRecord := fun _ _ => none

/-- Replace zone and cache of one zone. -/
def setZone (zone : ℕ) (slots : SlotZone) (cache : TxnInfoCache) : CommitState :=
  { st with
    zones := Function.update st.zones zone slots
    caches := Function.update st.caches zone cache }

/-- One step. -/
def step : CommitStep → CommitState
  | .slotCall zone call stale =>
    st.setZone zone ((st.zones zone).step call)
      ((st.zones zone).cacheAfter (st.caches zone) stale call)
  | .commitLog zone id csn size async =>
    let walGroupPtr : WalGroupLsnInfo := ⟨env.writing, st.endPlsn, st.endPlsn + size⟩
    { st.setZone zone
        ((st.zones zone).step (.commitCommitted id env.csnMode csn walGroupPtr))
        (st.caches zone) with
      publishing := Function.update st.publishing zone (some ⟨id, walGroupPtr, async⟩)
      endPlsn := st.endPlsn + size
      commitRecord := Function.update st.commitRecord zone
        (Function.update (st.commitRecord zone) id (some walGroupPtr)) }
  | .commitPublish zone =>
    match st.publishing zone with
    | none => st
    | some commit =>
      let slot := (st.zones zone).slot commit.logicSlotId
      { st.setZone zone (st.zones zone)
          ((st.caches zone).writeTxnInfoToCache commit.logicSlotId slot slot.csn false) with
        publishing := Function.update st.publishing zone none }
  | .flush plsn => { st with maxFlushedPlsn := max st.maxFlushedPlsn (min plsn st.endPlsn) }
  | .getTransactionSlotCopy zone id out recycleCsnMin barrier =>
    match st.slotCopy env zone id out recycleCsnMin barrier with
    | none => st
    | some (_, cache) => st.setZone zone (st.zones zone) cache

/-- `WaitTargetPlsnPersist` has returned, where it is called and waits. -/
def Waited (commit : Publishing) : Prop :=
  commit.isSpecialAyncCommitAutoTrx = false → env.synchronousCommit = true →
    commit.walGroupPtr.endPlsn ≤ st.maxFlushedPlsn

/-- Which steps can be next. A zone belongs to one transaction at a time: while its commit is
being published, only recycling works on the zone. -/
def Fits : CommitStep → Prop
  | .slotCall zone call _ =>
    (st.zones zone).Fits call ∧ (∀ id csnMode csn ptr, call ≠ .commitCommitted id csnMode csn ptr) ∧
      (st.publishing zone = none ∨ ∃ csn, call = .recycleTxnSlots csn)
  | .commitLog zone id _ size async =>
    (st.zones zone).Active id ∧ st.publishing zone = none ∧ 0 < size ∧
      (async = true → env.asyncCommits = true)
  | .commitPublish zone => ∃ commit, st.publishing zone = some commit ∧ st.Waited env commit
  | .flush _ => True
  | .getTransactionSlotCopy _ _ _ _ _ => True

/-- The states of a run. -/
inductive Reachable (env : CommitEnv) : CommitState → Prop
  | initial : Reachable env (CommitState.initial env)
  | step {st : CommitState} {s : CommitStep} (h : Reachable env st) (hfits : st.Fits env s) :
      Reachable env (st.step env s)

/-- The commit record of the transaction has been flushed. -/
def RecordDurable (zone logicSlotId : ℕ) : Prop :=
  ∃ walGroupPtr, st.commitRecord zone logicSlotId = some walGroupPtr ∧
    walGroupPtr.walId = env.writing ∧ walGroupPtr.endPlsn ≤ st.maxFlushedPlsn

/-- Whenever a transaction that is not recycled is reported as committed, its commit record has
been flushed. -/
def CommitDurable : Prop :=
  ∀ zone logicSlotId out recycleCsnMin barrier copy cache,
    (st.zones zone).mgr.recycleLogicSlotId ≤ logicSlotId →
    st.slotCopy env zone logicSlotId out recycleCsnMin barrier = some (copy, cache) →
    copy.status = .committed → st.RecordDurable env zone logicSlotId

/-! ## The invariant -/

variable {env : CommitEnv} {st : CommitState} {record : ℕ → Option WalGroupLsnInfo}
  {cache : TxnInfoCache} {stale l id : ℕ} {slot : TransactionSlot}

/-- The log position a committed slot stores is that of its commit record. -/
def SlotLogged (env : CommitEnv) (record : ℕ → Option WalGroupLsnInfo) (slot : TransactionSlot) :
    Prop :=
  slot.status = .committed →
    ∃ walGroupPtr, record slot.logicSlotId = some walGroupPtr ∧
      walGroupPtr.walId = env.writing ∧ slot.walId = env.writing.toUInt16.toUInt64 ∧
      slot.commitEndPlsn = walGroupPtr.endPlsn

/-- What holds between steps. -/
structure Inv (env : CommitEnv) (st : CommitState) : Prop where
  ring : ∀ zone, ∃ csnMax, (st.zones zone).RingInv csnMax
  logged : ∀ zone l, SlotLogged env (st.commitRecord zone) ((st.zones zone).slot l)
  /-- a transaction that has not ended has no commit record -/
  fresh : ∀ zone l, (st.zones zone).Active l ∨ (st.zones zone).mgr.nextFreeLogicSlotId ≤ l →
    st.commitRecord zone l = none
  publishing : ∀ zone commit, st.publishing zone = some commit →
    ((st.zones zone).slot commit.logicSlotId).logicSlotId = commit.logicSlotId ∧
      st.commitRecord zone commit.logicSlotId = some commit.walGroupPtr ∧
      commit.walGroupPtr.walId = env.writing ∧
      (commit.isSpecialAyncCommitAutoTrx = true → env.asyncCommits = true)
  cached : ∀ zone l, (st.caches zone).Holds l .committed → st.RecordDurable env zone l

/-- The invariant holds at the start. -/
lemma inv_initial (env : CommitEnv) : Inv env (initial env) where
  ring zone := ⟨0, ringInv_initial zone (env.startPage zone)⟩
  logged _ _ hstatus := noConfusion hstatus
  fresh _ _ _ := rfl
  publishing _ _ hpub := by cases hpub
  cached _ _ hholds := absurd hholds not_holds_initial

/-- A committed slot whose WAL is persisted has a durable record. -/
lemma SlotLogged.durable {zone : ℕ} (h : SlotLogged env (st.commitRecord zone) slot)
    (hid : env.writing.toNat < 2 ^ 16) (hstatus : slot.status = .committed)
    (hpersist : slot.isCommitWalPersist (st.stream env)) :
    st.RecordDurable env zone slot.logicSlotId := by
  obtain ⟨walGroupPtr, hrecord, hwal, hslotWal, hplsn⟩ := h hstatus
  have hself : env.writing.toUInt16.toUInt64 = env.writing := by
    apply UInt64.toNat_inj.mp
    rw [UInt16.toNat_toUInt64, UInt64.toNat_toUInt16, Nat.mod_eq_of_lt hid]
  refine ⟨walGroupPtr, hrecord, hwal, ?_⟩
  rw [isCommitWalPersist, stream, hslotWal, hself, hplsn] at hpersist
  simpa using hpersist

/-- `Inv` as far as one zone goes. -/
structure ZoneInv (env : CommitEnv) (maxFlushedPlsn : ℕ) (slots : SlotZone) (cache : TxnInfoCache)
    (record : ℕ → Option WalGroupLsnInfo) (publishing : Option Publishing) : Prop where
  ring : ∃ csnMax, slots.RingInv csnMax
  logged : ∀ l, SlotLogged env record (slots.slot l)
  fresh : ∀ l, slots.Active l ∨ slots.mgr.nextFreeLogicSlotId ≤ l → record l = none
  publishing : ∀ commit, publishing = some commit →
    (slots.slot commit.logicSlotId).logicSlotId = commit.logicSlotId ∧
      record commit.logicSlotId = some commit.walGroupPtr ∧
      commit.walGroupPtr.walId = env.writing ∧
      (commit.isSpecialAyncCommitAutoTrx = true → env.asyncCommits = true)
  cached : ∀ l, cache.Holds l .committed → ∃ walGroupPtr, record l = some walGroupPtr ∧
    walGroupPtr.walId = env.writing ∧ walGroupPtr.endPlsn ≤ maxFlushedPlsn

/-- The invariant is one for each zone. -/
lemma inv_iff : Inv env st ↔ ∀ zone, ZoneInv env st.maxFlushedPlsn (st.zones zone)
    (st.caches zone) (st.commitRecord zone) (st.publishing zone) := by
  constructor
  · intro h zone
    exact ⟨h.ring zone, h.logged zone, h.fresh zone, h.publishing zone, h.cached zone⟩
  · intro h
    exact ⟨fun zone => (h zone).ring, fun zone => (h zone).logged, fun zone => (h zone).fresh,
      fun zone => (h zone).publishing, fun zone => (h zone).cached⟩

section

variable (zone : ℕ) {slots : SlotZone} {cache : TxnInfoCache} {publishing : Option Publishing}

/-- A step in one zone. -/
lemma Inv.inZone (h : Inv env st)
    (hzone : ZoneInv env st.maxFlushedPlsn slots cache record publishing) (endPlsn : ℕ) :
    Inv env ⟨update st.zones zone slots, update st.caches zone cache,
      update st.publishing zone publishing, endPlsn, st.maxFlushedPlsn,
      update st.commitRecord zone record⟩ := by
  refine inv_iff.mpr fun z => ?_
  by_cases hz : z = zone
  · subst hz
    simpa only [update_self] using hzone
  · simpa only [update_of_ne hz] using inv_iff.mp h z

/-- A step in one zone leaves the others. -/
lemma Inv.setZone (h : Inv env st) (hzone : ZoneInv env st.maxFlushedPlsn slots cache
      (st.commitRecord zone) publishing) :
    Inv env { st.setZone zone slots cache with
      publishing := update st.publishing zone publishing } := by
  have hstep := h.inZone zone hzone st.endPlsn
  rwa [update_eq_self] at hstep

end

variable {call : SlotCall} {zone : SlotZone}

/-- A slot that becomes anything but committed needs no record. -/
lemma SlotLogged.of_or {old new : TransactionSlot} (h : SlotLogged env record old)
    (hslot : slot = old ∨ slot = new)
    (hnew : new.status ≠ .committed) : SlotLogged env record slot := by
  rcases hslot with rfl | rfl
  · exact h
  · exact fun hstatus => absurd hstatus hnew

/-- The slots after a call of a transaction other than the second commit, or after recycling. -/
lemma SlotLogged.step (h : ∀ l, SlotLogged env record (zone.slot l))
    (hcall : ∀ id csnMode csn ptr, call ≠ .commitCommitted id csnMode csn ptr) (l : ℕ) :
    SlotLogged env record ((zone.step call).slot l) := by
  cases call with
  | allocSlot =>
    by_cases hfree : zone.mgr.hasFreeSlot
    · exact (h l).of_or (allocSlot_slot_or hfree l) (by rintro ⟨⟩)
    · rw [SlotZone.step, allocSlot_of_full hfree]
      exact h l
  | setSlotUndoPtr id ptr flag =>
    rcases zone.modifySlot_slot_or id l fun slot => slot.setUndoPtr ptr flag with hslot | hslot
    · rw [SlotZone.step, hslot]
      exact h l
    · rw [SlotZone.step, hslot]
      exact h id
  | commitPending id csn => exact (h l).of_or (zone.modifySlot_slot_or id l _) (by rintro ⟨⟩)
  | commitCommitted id csnMode csn ptr => exact absurd rfl (hcall id csnMode csn ptr)
  | rollbackTxnSlot id csn => exact (h l).of_or (zone.modifySlot_slot_or id l _) (by rintro ⟨⟩)
  | recycleTxnSlots csn => exact (h l).of_or (zone.recycleTxnSlots_slot_or csn l) (by rintro ⟨⟩)

lemma modifySlot_slot_self (zone : SlotZone) (id : ℕ) (f : TransactionSlot → TransactionSlot) :
    (zone.modifySlot id f).slot id = f (zone.slot id) :=
  (txnSlot_modifyTxnSlot id).trans (if_pos ⟨rfl, rfl⟩)

/-- A slot call puts no committed transaction into the cache. -/
lemma holds_cacheAfter
    (h : (zone.cacheAfter cache stale call).Holds l .committed) : cache.Holds l .committed := by
  cases call with
  | allocSlot =>
    simp only [cacheAfter] at h
    split_ifs at h
    · rcases holds_of_write h with hold | ⟨hcsn, -⟩
      · exact hold
      · exact absurd rfl hcsn
    · exact h
  | setSlotUndoPtr id ptr flag => exact h
  | commitPending id csn =>
    rcases holds_of_write h with hold | ⟨-, -, hstatus⟩
    · exact hold
    · rw [SlotZone.step, modifySlot_slot_self] at hstatus
      exact noConfusion hstatus
  | commitCommitted id csnMode csn ptr => exact h
  | rollbackTxnSlot id csn =>
    rcases holds_of_write h with hold | ⟨-, -, hstatus⟩
    · exact hold
    · rw [SlotZone.step, modifySlot_slot_self] at hstatus
      exact noConfusion hstatus
  | recycleTxnSlots csn => exact h

/-- The next free slot id never decreases. -/
lemma next_le_of_step
    (h : (zone.step call).mgr.nextFreeLogicSlotId ≤ l) : zone.mgr.nextFreeLogicSlotId ≤ l := by
  cases call with
  | allocSlot =>
    by_cases hfree : zone.mgr.hasFreeSlot
    · rw [SlotZone.step, allocSlot_next hfree] at h
      omega
    · rwa [SlotZone.step, allocSlot_of_full hfree] at h
  | setSlotUndoPtr id ptr flag => exact h
  | commitPending id csn => exact h
  | commitCommitted id csnMode csn ptr => exact h
  | rollbackTxnSlot id csn => exact h
  | recycleTxnSlots csn => exact h

/-- Slot calls keep the invariant of the slot ring. -/
lemma ring_step (h : ∃ csnMax, zone.RingInv csnMax)
    (hfits : zone.Fits call) : ∃ csnMax, (zone.step call).RingInv csnMax := by
  obtain ⟨csnMax, hring⟩ := h
  exact ⟨max csnMax call.recycleCsn,
    (hring.mono (Nat.le_max_left _ _)).step hfits (Nat.le_max_right _ _)⟩

/-- A transaction that is still active, or comes later, has no commit record. -/
lemma ZoneInv.fresh_step {maxFlushedPlsn : ℕ} {publishing : Option Publishing}
    (h : ZoneInv env maxFlushedPlsn zone cache record publishing) (hfits : zone.Fits call)
    (hl : (zone.step call).Active l ∨ (zone.step call).mgr.nextFreeLogicSlotId ≤ l) :
    record l = none := by
  rcases hl with hactive | hnext
  · exact h.fresh l (Active.of_step hfits hactive)
  · exact h.fresh l (Or.inr (next_le_of_step hnext))

/-- Slot calls keep the invariant. -/
lemma Inv.slotCall {zone : ℕ} (h : Inv env st) (hfits : st.Fits env (.slotCall zone call stale)) :
    Inv env (st.step env (.slotCall zone call stale)) := by
  obtain ⟨hcall, hnot, hown⟩ := hfits
  have hzone := inv_iff.mp h zone
  have hstep : ZoneInv env st.maxFlushedPlsn ((st.zones zone).step call)
      ((st.zones zone).cacheAfter (st.caches zone) stale call) (st.commitRecord zone)
      (st.publishing zone) := by
    refine ⟨ring_step hzone.ring hcall, SlotLogged.step hzone.logged hnot,
      fun l hl => hzone.fresh_step hcall hl, fun commit hpub => ?_,
      fun l hl => hzone.cached l (holds_cacheAfter hl)⟩
    -- only recycling runs beside a commit being published, and it keeps the slot's name
    obtain ⟨hname, hrest⟩ := hzone.publishing commit hpub
    refine ⟨?_, hrest⟩
    rcases hown with hnone | ⟨csn, rfl⟩
    · rw [hnone] at hpub
      cases hpub
    · rcases (st.zones zone).recycleTxnSlots_slot_or csn commit.logicSlotId with hslot | hslot
      · rw [SlotZone.step, hslot]
        exact hname
      · rw [SlotZone.step, hslot]
        exact hname
  have hinv := h.setZone zone hstep
  rwa [update_eq_self] at hinv

/-- So does logging the commit. -/
lemma Inv.commitLog {zone csn size : ℕ} {async : Bool} (h : Inv env st)
    (hfits : st.Fits env (.commitLog zone id csn size async)) :
    Inv env (st.step env (.commitLog zone id csn size async)) := by
  obtain ⟨hactive, hidle, -, hasync⟩ := hfits
  have hzone := inv_iff.mp h zone
  set walGroupPtr : WalGroupLsnInfo := ⟨env.writing, st.endPlsn, st.endPlsn + size⟩ with hptr
  have hcall : (st.zones zone).Fits (.commitCommitted id env.csnMode csn walGroupPtr) := hactive
  have hnone : st.commitRecord zone id = none := hzone.fresh id (Or.inl hactive)
  -- a record that existed before is not the new one
  have hkeep : ∀ l ptr, st.commitRecord zone l = some ptr →
      update (st.commitRecord zone) id (some walGroupPtr) l = some ptr := by
    intro l ptr hold
    rw [update_of_ne, hold]
    rintro rfl
    rw [hnone] at hold
    cases hold
  have hself : ((st.zones zone).step (.commitCommitted id env.csnMode csn walGroupPtr)).slot id =
      ((st.zones zone).slot id).commitCommitted env.csnMode csn walGroupPtr :=
    modifySlot_slot_self _ _ _
  have hname : ((st.zones zone).slot id).logicSlotId = id := by
    obtain ⟨csnMax, hring⟩ := hzone.ring
    have := (st.zones zone).mgr.live_le
    exact hring.named id hactive.2.1 (by have := hactive.1; omega)
  refine h.inZone zone ⟨ring_step hzone.ring hcall, fun l => ?_, fun l hl => ?_,
    fun commit hpub => ?_, fun l hl => ?_⟩ _
  · rcases (st.zones zone).modifySlot_slot_or id l
      fun slot => slot.commitCommitted env.csnMode csn walGroupPtr with hslot | hslot
    · rw [SlotZone.step, hslot]
      intro hstatus
      obtain ⟨ptr, hptr, hrest⟩ := hzone.logged l hstatus
      exact ⟨ptr, hkeep _ ptr hptr, hrest⟩
    · rw [SlotZone.step, hslot]
      intro _
      refine ⟨walGroupPtr, ?_, rfl, rfl, rfl⟩
      show update _ id _ ((st.zones zone).slot id).logicSlotId = _
      rw [hname, update_self]
  · rw [update_of_ne]
    · exact hzone.fresh_step hcall hl
    · -- the slot just committed is no longer active
      rintro rfl
      rcases hl with ⟨-, -, hstatus⟩ | hnext
      · rw [hself] at hstatus
        rcases hstatus with hstatus | hstatus
        · exact noConfusion hstatus
        · exact noConfusion hstatus
      · exact absurd hactive.2.1 (Nat.not_lt.mpr (next_le_of_step hnext))
  · obtain rfl := Option.some.inj hpub
    refine ⟨?_, update_self _ _ _, rfl, hasync⟩
    rw [hself]
    exact hname
  · obtain ⟨ptr, hptr, hrest⟩ := hzone.cached l hl
    exact ⟨ptr, hkeep l ptr hptr, hrest⟩

/-- So does publishing it, if it has waited for the flush. -/
lemma Inv.commitPublish {zone : ℕ} (h : Inv env st) (hsync : env.synchronousCommit)
    (hnoAsync : env.asyncCommits = false) (hfits : st.Fits env (.commitPublish zone)) :
    Inv env (st.step env (.commitPublish zone)) := by
  obtain ⟨commit, hpub, hwaited⟩ := hfits
  have hzone := inv_iff.mp h zone
  obtain ⟨hname, hrecord, hwal, hasync⟩ := hzone.publishing commit hpub
  have hflushed : commit.walGroupPtr.endPlsn ≤ st.maxFlushedPlsn := by
    refine hwaited ?_ hsync
    cases hflag : commit.isSpecialAyncCommitAutoTrx with
    | false => rfl
    | true =>
      have := hasync hflag
      rw [hnoAsync] at this
      cases this
  have hstep : st.step env (.commitPublish zone) =
      { st.setZone zone (st.zones zone)
          ((st.caches zone).writeTxnInfoToCache commit.logicSlotId
            ((st.zones zone).slot commit.logicSlotId)
            ((st.zones zone).slot commit.logicSlotId).csn false) with
        publishing := update st.publishing zone none } := by
    rw [step, hpub]
  rw [hstep]
  refine h.setZone zone ⟨hzone.ring, hzone.logged, hzone.fresh, fun c hc => ?_, fun l hl => ?_⟩
  · cases hc
  · rcases holds_of_write hl with hold | ⟨-, hid, -⟩
    · exact hzone.cached l hold
    · rw [hname] at hid
      rw [← hid]
      exact ⟨commit.walGroupPtr, hrecord, hwal, hflushed⟩

/-- So does a flush. -/
lemma Inv.flush {plsn : ℕ} (h : Inv env st) : Inv env (st.step env (.flush plsn)) where
  ring := h.ring
  logged := h.logged
  fresh := h.fresh
  publishing := h.publishing
  cached z l hl := by
    obtain ⟨ptr, hptr, hwal, hle⟩ := h.cached z l hl
    exact ⟨ptr, hptr, hwal, hle.trans (Nat.le_max_left _ _)⟩

/-- So does reading a slot, which may put it into the cache. -/
lemma Inv.getTransactionSlotCopy {zone recycleCsnMin : ℕ} {out : TransactionSlot}
    {barrier : FailoverBarrier} (h : Inv env st) (hid : env.writing.toNat < 2 ^ 16) :
    Inv env (st.step env (.getTransactionSlotCopy zone id out recycleCsnMin barrier)) := by
  unfold step
  dsimp only
  split
  · exact h
  · rename_i copy cache hcopy
    have hzone := inv_iff.mp h zone
    have hcached : ∀ l, cache.Holds l .committed → st.RecordDurable env zone l := by
      intro l hl
      rcases getTransactionSlotCopy_holds hcopy hl with hold | ⟨hstatus, hname, hpersist⟩
      · exact hzone.cached l hold
      · rw [← hname]
        exact (hzone.logged id).durable hid hstatus hpersist
    have hinv := h.setZone zone ⟨hzone.ring, hzone.logged, hzone.fresh, hzone.publishing, hcached⟩
    rwa [update_eq_self] at hinv

/-- It holds in every reachable state. -/
lemma Reachable.inv (h : Reachable env st) (hnoAsync : env.asyncCommits = false)
    (hsync : env.synchronousCommit) (hid : env.writing.toNat < 2 ^ 16) : Inv env st := by
  induction h with
  | initial => exact inv_initial env
  | @step st s _ hfits ih =>
    cases s with
    | slotCall zone call stale => exact ih.slotCall hfits
    | commitLog zone id csn size async => exact ih.commitLog hfits
    | commitPublish zone => exact ih.commitPublish hsync hnoAsync hfits
    | flush plsn => exact ih.flush
    | getTransactionSlotCopy zone id out recycleCsnMin barrier =>
      exact ih.getTransactionSlotCopy hid

/-- It says that a commit that is seen is durable. -/
lemma Inv.commitDurable (h : Inv env st) (hid : env.writing.toNat < 2 ^ 16) :
    st.CommitDurable env := by
  intro zone l out recycleCsnMin barrier copy cache _ hcopy hstatus
  rcases getTransactionSlotCopy_committed hcopy hstatus with hcached | ⟨hslot, hname, hpersist⟩
  · exact h.cached zone l hcached
  · have hdurable := (h.logged zone l).durable hid hslot hpersist
    rwa [hname] at hdurable

/-! ## Commits seen too early -/

/-- The first transaction of zone 0 has written its commit record and marked its slot. -/
def loggedState (env : CommitEnv) (async : Bool) : CommitState :=
  (((CommitState.initial env).step env (.slotCall 0 .allocSlot 0)).step env
    (.slotCall 0 (.commitPending 0 1) 0)).step env (.commitLog 0 0 2 1 async)

/-- The slot of that transaction. -/
def loggedSlot (env : CommitEnv) : TransactionSlot :=
  ((TransactionSlot.init 0).commitPending 1).commitCommitted env.csnMode 2 ⟨env.writing, 0, 1⟩

section Early

variable (env : CommitEnv) (async : Bool)

lemma initialZone_hasFreeSlot (startPage : PageId) :
    (SlotZone.initial 0 startPage).mgr.hasFreeSlot := by
  show 0 - 0 < trxPagesPerZone * trxPageSlotsNum
  decide

lemma initialZone_alloc_slot (startPage : PageId) :
    ((SlotZone.initial 0 startPage).step .allocSlot).slot 0 = init 0 := by
  have hfree := initialZone_hasFreeSlot startPage
  have hlap : InLap 0 0 := ⟨Nat.le_refl 0, by decide⟩
  exact (allocSlot_slot hfree hlap hlap).trans (if_pos rfl)

lemma initialZone_alloc_active (startPage : PageId) :
    ((SlotZone.initial 0 startPage).step .allocSlot).Active 0 := by
  have hfree := initialZone_hasFreeSlot startPage
  refine ⟨?_, ?_, ?_⟩
  · rw [SlotZone.step, allocSlot_recycle hfree]
    exact Nat.le_refl 0
  · rw [SlotZone.step, allocSlot_next hfree]
    exact Nat.lt_succ_self 0
  · rw [initialZone_alloc_slot]
    exact Or.inl rfl

/-- The state after logging is reachable. -/
lemma loggedState_reachable (hasync : async → env.asyncCommits) :
    Reachable env (loggedState env async) := by
  have halloc := initialZone_alloc_active (env.startPage 0)
  refine .step (.step (.step .initial ?_) ?_) ?_
  · exact ⟨trivial, fun _ _ _ _ => SlotCall.noConfusion, Or.inl rfl⟩
  · refine ⟨?_, fun _ _ _ _ => SlotCall.noConfusion, Or.inl rfl⟩
    exact halloc
  · refine ⟨?_, rfl, Nat.one_pos, hasync⟩
    obtain ⟨hlow, hhigh, -⟩ := halloc
    refine ⟨hlow, hhigh, Or.inr ?_⟩
    exact congrArg status (modifySlot_slot_self _ _ _)

lemma initialZone_pending_slot (startPage : PageId) :
    (((SlotZone.initial 0 startPage).step .allocSlot).step (.commitPending 0 1)).slot 0 =
      (init 0).commitPending 1 := by
  rw [← initialZone_alloc_slot startPage]
  exact modifySlot_slot_self _ _ _

lemma loggedState_slot : ((loggedState env async).zones 0).slot 0 = loggedSlot env := by
  unfold loggedSlot
  rw [← initialZone_pending_slot (env.startPage 0)]
  exact modifySlot_slot_self _ _ _

/-- The cache after the first two calls: the entry of the transaction has no csn yet. -/
def pendingCache : TxnInfoCache :=
  (TxnInfoCache.initial.writeTxnInfoToCache 0 (TransactionSlot.init 0) invalidCsn
    true).writeTxnInfoToCache 0 ((TransactionSlot.init 0).commitPending 1) 1 false

lemma loggedState_cache : (loggedState env async).caches 0 = pendingCache := by
  show cacheAfter
    (((initial env).step env (.slotCall 0 .allocSlot 0)).zones 0)
    (cacheAfter ((initial env).zones 0) TxnInfoCache.initial 0 .allocSlot) 0
    (.commitPending 0 1) = pendingCache
  have hcache : (SlotZone.initial 0 (env.startPage 0)).cacheAfter TxnInfoCache.initial 0
      .allocSlot = TxnInfoCache.initial.writeTxnInfoToCache 0 (init 0)
        invalidCsn true := by
    unfold cacheAfter
    rw [if_pos (initialZone_hasFreeSlot _)]
    rfl
  rw [show (initial env).zones 0 = SlotZone.initial 0 (env.startPage 0) from rfl,
    hcache]
  unfold cacheAfter pendingCache
  dsimp only
  rw [show ((initial env).step env (.slotCall 0 .allocSlot 0)).zones 0 =
    (SlotZone.initial 0 (env.startPage 0)).step .allocSlot from rfl, initialZone_pending_slot]
  rfl

/-- The record of the commit is not flushed there. -/
lemma loggedState_not_durable : ¬ (loggedState env async).RecordDurable env 0 0 := by
  rintro ⟨ptr, hptr, -, hle⟩
  have hrecord : (loggedState env async).commitRecord 0 0 = some ⟨env.writing, 0, 1⟩ := rfl
  rw [hrecord] at hptr
  cases hptr
  exact Nat.not_succ_le_zero 0 hle

/-- Before the record is flushed the slot is reported as committed already, if the stream id does
not fit into 16 bits. -/
lemma loggedState_not_commitDurable (hid : 2 ^ 16 ≤ env.writing.toNat) :
    ¬ (loggedState env async).CommitDurable env := by
  intro h
  have hother : env.writing.toUInt16.toUInt64 ≠ env.writing := by
    intro heq
    have htoNat := congrArg UInt64.toNat heq
    rw [UInt16.toNat_toUInt64, UInt64.toNat_toUInt16] at htoNat
    have := Nat.mod_lt env.writing.toNat (show 0 < 2 ^ 16 by decide)
    omega
  have hpersist : (loggedSlot env).isCommitWalPersist
      ((loggedState env async).stream env) := by
    show (!(decide (env.writing.toUInt16.toUInt64 = env.writing) && _))
    rw [decide_eq_false hother]
    rfl
  have hpage : copyFromPage (loggedSlot env)
      { zero with walId := invalidWalId, commitEndPlsn := invalidPlsn } 0
      ((loggedState env async).stream env) = some (loggedSlot env) := by
    have hstatus : (loggedSlot env).status = .committed := rfl
    have hname : (loggedSlot env).logicSlotId = 0 := rfl
    simp [copyFromPage, hstatus, hname, hpersist]
  have hcopy : (loggedState env async).slotCopy env 0 0 zero 0 ⟨false, 0⟩ =
      some (loggedSlot env, pendingCache.writeTxnInfoToCache 0 (loggedSlot env) 0 false) := by
    unfold slotCopy getTransactionSlotCopy
    rw [loggedState_slot, loggedState_cache]
    show copyFromPageToCache pendingCache (loggedSlot env) _ 0 0 _ = _
    rw [copyFromPageToCache, hpage]
    rfl
  exact loggedState_not_durable env async (h 0 0 _ _ _ _ _ (Nat.le_refl 0) hcopy rfl)

/-- The published state: the cache reports the commit, whether or not its record is flushed. -/
lemma publishedState_not_commitDurable :
    ¬ ((loggedState env async).step env (.commitPublish 0)).CommitDurable env := by
  intro h
  set st := (loggedState env async).step env (.commitPublish 0) with hst
  have hcache : st.caches 0 =
      pendingCache.writeTxnInfoToCache 0 (loggedSlot env) (loggedSlot env).csn false := by
    have hslot := loggedState_slot env async
    have hold := loggedState_cache env async
    rw [hst]
    show ((loggedState env async).caches 0).writeTxnInfoToCache 0
      (((loggedState env async).zones 0).slot 0)
      (((loggedState env async).zones 0).slot 0).csn false = _
    rw [hslot, hold]
  have hcsn : (loggedSlot env).csn ≠ invalidCsn := by
    show (if env.csnMode = .broadcast then 1 else 2) ≠ 0
    split_ifs <;> decide
  obtain ⟨copy, hread, hstatus⟩ : ∃ copy,
      ((pendingCache.writeTxnInfoToCache 0 (loggedSlot env) (loggedSlot env).csn
        false).readTxnInfoFromCache 0 zero 0).1 = some copy ∧
        copy.status = (loggedSlot env).status :=
    read_write (Or.inr (Or.inl rfl)) rfl hcsn (Nat.le_refl 0)
  have hcopy : st.slotCopy env 0 0 zero 0 ⟨false, 0⟩ =
      some (copy, (readTxnInfoFromCache (st.caches 0) 0 zero 0).2) := by
    rw [← hcache] at hread
    unfold slotCopy getTransactionSlotCopy
    rw [if_neg Bool.false_ne_true]
    split
    · rename_i copy' cache hpair
      rw [hpair] at hread ⊢
      rw [Option.some.inj hread]
    · rename_i cache hpair
      rw [hpair] at hread
      cases hread
  exact loggedState_not_durable env async (h 0 0 _ _ _ _ _ (Nat.le_refl 0) hcopy hstatus)

/-- Without waiting the commit can be published then. -/
lemma publishedState_reachable (hasync : async → env.asyncCommits)
    (hnowait : async ∨ env.synchronousCommit = false) :
    Reachable env ((loggedState env async).step env (.commitPublish 0)) := by
  refine .step (loggedState_reachable env async hasync) ⟨_, rfl, fun hflag hsync => ?_⟩
  rcases hnowait with rfl | hoff
  · cases hflag
  · rw [hoff] at hsync
    cases hsync

end Early

/-- In every run the commits that readers see are durable, exactly if no commit is asynchronous
and the id of the writing stream fits into 16 bits. -/
theorem commit_durable_iff (env : CommitEnv) :
    (∀ st, Reachable env st → st.CommitDurable env) ↔
      env.asyncCommits = false ∧ env.synchronousCommit = true ∧ env.writing.toNat < 2 ^ 16 := by
  constructor
  · intro h
    refine ⟨?_, ?_, ?_⟩
    · rw [Bool.eq_false_iff]
      intro hasync
      exact publishedState_not_commitDurable env true
        (h _ (publishedState_reachable env true (fun _ => hasync) (Or.inl rfl)))
    · rw [← Bool.not_eq_false]
      intro hoff
      exact publishedState_not_commitDurable env false
        (h _ (publishedState_reachable env false (fun hf => by cases hf) (Or.inr hoff)))
    · rw [← Nat.not_le]
      intro hid
      exact loggedState_not_commitDurable env false hid
        (h _ (loggedState_reachable env false fun hf => by cases hf))
  · rintro ⟨hasync, hsync, hid⟩ st hst
    exact (hst.inv hasync hsync hid).commitDurable hid

/-- A synchronous commit on stream 65536 is seen before its record is flushed, and so is an
asynchronous commit on stream 1. -/
theorem commit_seen_before_flush :
    (∃ st, Reachable ⟨.default, 65536, true, false, fun _ => ⟨0, 0⟩⟩ st ∧
      ¬ st.CommitDurable ⟨.default, 65536, true, false, fun _ => ⟨0, 0⟩⟩) ∧
    ∃ st, Reachable ⟨.default, 1, true, true, fun _ => ⟨0, 0⟩⟩ st ∧
      ¬ st.CommitDurable ⟨.default, 1, true, true, fun _ => ⟨0, 0⟩⟩ :=
  ⟨⟨_, loggedState_reachable _ false (fun hf => by cases hf),
      loggedState_not_commitDurable _ false (by decide)⟩,
    _, publishedState_reachable _ true (fun _ => rfl) (Or.inl rfl),
      publishedState_not_commitDurable _ true⟩

end CommitState

end DStore
