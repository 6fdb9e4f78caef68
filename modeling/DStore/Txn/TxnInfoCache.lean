import DStore.Undo.SlotRing

/-!
# The transaction info cache and slot copies

`AllUndoZoneTxnInfoCache` remembers status and csn of ended transactions, per zone in a table
indexed by logic slot id, and an id below which all transactions count as recycled.
`GetTransactionSlotCopy` answers from it, and otherwise from the slot page, where a commit whose
log record is not yet durable is reported as pending.
-/

namespace DStore

open Option TrxSlotStatus

/-- `CachedTransactionSlot`. -/
structure CachedTransactionSlot where
  csn : ℕ
  status : TrxSlotStatus
  logicSlotId : ℕ
deriving DecidableEq, Repr

/-- `CACHED_SLOT_NUM_PER_ZONE`. -/
def cachedSlotNumPerZone : ℕ := 8000

/-- The part of `AllUndoZoneTxnInfoCache` that belongs to one zone; the table is allocated by the
first write. -/
structure TxnInfoCache where
  cachedEntry : Option (ℕ → CachedTransactionSlot)
  recycleLogicSlotId : ℕ

/-- The statuses that are cached: the transaction has ended. -/
def TrxSlotStatus.Ended (status : TrxSlotStatus) : Prop :=
  status = .frozen ∨ status = .committed ∨ status = .aborted

instance (status : TrxSlotStatus) : Decidable status.Ended :=
  inferInstanceAs (Decidable (_ ∨ _))

namespace TxnInfoCache

variable (cache : TxnInfoCache)

/-- `InitTxnInfoCache`. -/
def initial : TxnInfoCache := ⟨none, 0⟩

/-- `RefreshRecycleLogicSlotId`. -/
def refreshRecycleLogicSlotId (logicSlotId csn recycleCsnMin : ℕ) : TxnInfoCache :=
  if csn < recycleCsnMin then
    { cache with recycleLogicSlotId := max cache.recycleLogicSlotId (logicSlotId + 1) }
  else cache

/-- `ReadTxnInfoFromCache`: the slot it fills in, if it succeeds. -/
def readTxnInfoFromCache (logicSlotId : ℕ) (outTxnSlot : TransactionSlot) (recycleCsnMin : ℕ) :
    Option TransactionSlot × TxnInfoCache :=
  let outTxnSlot := { outTxnSlot with walId := invalidWalId, commitEndPlsn := invalidPlsn }
  if logicSlotId < cache.recycleLogicSlotId then
    (some { outTxnSlot with status := .frozen, csn := invalidCsn }, cache)
  else
    match cache.cachedEntry with
    | none => (none, cache)
    | some entries =>
      let txnInfo := entries (logicSlotId % cachedSlotNumPerZone)
      if txnInfo.csn = invalidCsn ∨ logicSlotId ≠ txnInfo.logicSlotId then (none, cache)
      else
        (some { outTxnSlot with
            status := txnInfo.status
            logicSlotId := txnInfo.logicSlotId
            csn := txnInfo.csn },
          cache.refreshRecycleLogicSlotId logicSlotId txnInfo.csn recycleCsnMin)

/-- Step 3 of `WriteTxnInfoToCache`: record to slot. -/
def store (logicSlotId : ℕ) (inTxnSlot : TransactionSlot) : TxnInfoCache :=
  { cache with
    cachedEntry := cache.cachedEntry.map fun entries =>
      Function.update entries (logicSlotId % cachedSlotNumPerZone)
        ⟨inTxnSlot.csn, inTxnSlot.status, inTxnSlot.logicSlotId⟩ }

/-- `WriteTxnInfoToCache`. -/
def writeTxnInfoToCache (logicSlotId : ℕ) (inTxnSlot : TransactionSlot) (recycleCsnMin : ℕ)
    (cacheInprogress : Bool) : TxnInfoCache :=
  -- step 1: create the table
  let cache := { cache with
    cachedEntry := some (cache.cachedEntry.getD fun _ => ⟨0, .unknown, 0⟩) }
  -- step 2
  let cache :=
    if inTxnSlot.status.Ended then
      cache.refreshRecycleLogicSlotId logicSlotId inTxnSlot.csn recycleCsnMin
    else cache
  -- step 3
  if cacheInprogress ∨ recycleCsnMin ≤ inTxnSlot.csn ∧ inTxnSlot.status.Ended then
    cache.store logicSlotId inTxnSlot
  else cache

end TxnInfoCache

/-- The WAL stream the node writes to, and how far it is flushed. -/
structure WritingWalStream where
  walId : WalId
  maxFlushedPlsn : ℕ
deriving DecidableEq, Repr

/-- `TransactionSlot::IsCommitWalPersist` on an initialised primary with a writing stream. -/
def TransactionSlot.isCommitWalPersist (slot : TransactionSlot) (stream : WritingWalStream) :
    Bool :=
  !(slot.walId = stream.walId && decide (stream.maxFlushedPlsn < slot.commitEndPlsn))

/-- The failover fields of the pdb: `GetNeedRollbackBarrierInFailover` and
`GetRollbackBarrierCsnInFailover`. -/
structure FailoverBarrier where
  needed : Bool
  csn : ℕ
deriving DecidableEq, Repr

/-- The part of `GetTransactionSlotCopy` that reads the slot page, on the slot found there; `none`
when the process stops. -/
def copyFromPage (slot outTrxSlot : TransactionSlot) (logicSlotId : ℕ)
    (stream : WritingWalStream) : Option TransactionSlot :=
  if slot.logicSlotId = 0 ∧ slot.logicSlotId ≠ logicSlotId then none
  else
    let copy :=
      if slot.status = .frozen ∨ slot.logicSlotId ≠ logicSlotId then
        { outTrxSlot with status := .frozen, csn := invalidCsn }
      else slot
    if copy.status = .unknown then none
    else if copy.status = .committed ∧ copy.isCommitWalPersist stream = false then
      some { copy with status := .pendingCommit }
    else some copy

/-- The csn below which transactions count as recycled: in a failover, the barrier's. -/
def FailoverBarrier.recycleCsn (barrier : FailoverBarrier) (recycleCsnMin : ℕ) : ℕ :=
  if barrier.needed ∧ barrier.csn ≠ invalidCsn then barrier.csn else recycleCsnMin

/-- The copy from the page and the cache it is written to. -/
def copyFromPageToCache (cache : TxnInfoCache) (slot outTrxSlot : TransactionSlot)
    (logicSlotId recycleCsnMin : ℕ) (stream : WritingWalStream) :
    Option (TransactionSlot × TxnInfoCache) :=
  (copyFromPage slot outTrxSlot logicSlotId stream).map fun copy =>
    (copy, cache.writeTxnInfoToCache logicSlotId copy recycleCsnMin false)

/-- `TransactionMgr::GetTransactionSlotCopy` for the slot `logicSlotId` of a zone, with the slot
found on the page. -/
def getTransactionSlotCopy (cache : TxnInfoCache) (slot outTrxSlot : TransactionSlot)
    (logicSlotId recycleCsnMin : ℕ) (barrier : FailoverBarrier) (stream : WritingWalStream) :
    Option (TransactionSlot × TxnInfoCache) :=
  if barrier.needed then
    copyFromPageToCache cache slot outTrxSlot logicSlotId (barrier.recycleCsn recycleCsnMin) stream
  else
    match cache.readTxnInfoFromCache logicSlotId outTrxSlot recycleCsnMin with
    | (some copy, cache) => some (copy, cache)
    | (none, cache) =>
      copyFromPageToCache cache slot
        { outTrxSlot with walId := invalidWalId, commitEndPlsn := invalidPlsn } logicSlotId
        (barrier.recycleCsn recycleCsnMin) stream

/-! ## What the cache says -/

namespace TxnInfoCache

variable {cache cache' : TxnInfoCache} {status : TrxSlotStatus} {logicSlotId l recycleCsnMin : ℕ}
  {slot out copy : TransactionSlot}

/-- The cache has an entry for the transaction `logicSlotId` with the given status. -/
def Holds (cache : TxnInfoCache) (logicSlotId : ℕ) (status : TrxSlotStatus) : Prop :=
  ∃ entries, cache.cachedEntry = some entries ∧
    (entries (logicSlotId % cachedSlotNumPerZone)).csn ≠ invalidCsn ∧
    (entries (logicSlotId % cachedSlotNumPerZone)).logicSlotId = logicSlotId ∧
    (entries (logicSlotId % cachedSlotNumPerZone)).status = status

lemma not_holds_initial : ¬ initial.Holds logicSlotId status := by
  rintro ⟨entries, hentries, -⟩
  cases hentries

@[simp] lemma refreshRecycleLogicSlotId_cachedEntry (csn : ℕ) :
    (cache.refreshRecycleLogicSlotId logicSlotId csn recycleCsnMin).cachedEntry =
      cache.cachedEntry := by
  unfold refreshRecycleLogicSlotId
  split_ifs <;> rfl

lemma readTxnInfoFromCache_cachedEntry (cache : TxnInfoCache) (logicSlotId : ℕ)
    (out : TransactionSlot) (recycleCsnMin : ℕ) :
    (cache.readTxnInfoFromCache logicSlotId out recycleCsnMin).2.cachedEntry =
      cache.cachedEntry := by
  unfold readTxnInfoFromCache
  dsimp only
  split_ifs
  · rfl
  · split
    · rfl
    · split_ifs
      · rfl
      · exact refreshRecycleLogicSlotId_cachedEntry _

/-- What is read as committed was in the cache as such. -/
lemma holds_of_read
    (hread : (cache.readTxnInfoFromCache logicSlotId out recycleCsnMin).1 = some copy)
    (hcopy : copy.status = .committed) : cache.Holds logicSlotId .committed := by
  unfold readTxnInfoFromCache at hread
  dsimp only at hread
  split_ifs at hread with hrecycled
  · rw [← some.inj hread] at hcopy
    exact noConfusion hcopy
  · split at hread
    · cases hread
    · rename_i entries hentries
      split_ifs at hread with hmiss
      rw [not_or, not_not] at hmiss
      rw [← some.inj hread] at hcopy
      exact ⟨entries, hentries, hmiss.1, hmiss.2.symm, hcopy⟩

/-- What a write puts into the table is the slot it was given. -/
lemma holds_of_write {flag : Bool}
    (h : (cache.writeTxnInfoToCache l slot recycleCsnMin flag).Holds logicSlotId status) :
    cache.Holds logicSlotId status ∨
      slot.csn ≠ invalidCsn ∧ slot.logicSlotId = logicSlotId ∧ slot.status = status := by
  -- the table before step 3, whatever step 2 did
  have htable : ∀ cache2 : TxnInfoCache,
      cache2.cachedEntry = some (cache.cachedEntry.getD fun _ => ⟨0, .unknown, 0⟩) →
      cache2.Holds logicSlotId status → cache.Holds logicSlotId status := by
    rintro cache2 hcache ⟨entries, hentries, hcsn, hrest⟩
    rw [hcache] at hentries
    cases hentries
    cases hold : cache.cachedEntry with
    | none =>
      rw [hold] at hcsn
      exact absurd rfl hcsn
    | some entries =>
      rw [hold] at hcsn hrest
      exact ⟨entries, hold, hcsn, hrest⟩
  unfold writeTxnInfoToCache at h
  dsimp only at h
  set cache1 : TxnInfoCache :=
    { cache with cachedEntry := some (cache.cachedEntry.getD fun _ => ⟨0, .unknown, 0⟩) }
  set cache2 := if slot.status.Ended then
    cache1.refreshRecycleLogicSlotId l slot.csn recycleCsnMin else cache1 with hcache2
  have hentry2 : cache2.cachedEntry =
      some (cache.cachedEntry.getD fun _ => ⟨0, .unknown, 0⟩) := by
    rw [hcache2]
    split_ifs
    · exact refreshRecycleLogicSlotId_cachedEntry _
    · rfl
  split_ifs at h with hstore
  · obtain ⟨entries, hentries, hcsn, hname, hstatus⟩ := h
    unfold store at hentries
    rw [hentry2] at hentries
    cases hentries
    dsimp only at hcsn hname hstatus
    by_cases hindex : logicSlotId % cachedSlotNumPerZone = l % cachedSlotNumPerZone
    · rw [hindex, Function.update_self] at hcsn hname hstatus
      exact Or.inr ⟨hcsn, hname, hstatus⟩
    · rw [Function.update_of_ne hindex] at hcsn hname hstatus
      exact Or.inl (htable cache2 hentry2 ⟨_, hentry2, hcsn, hname, hstatus⟩)
  · exact Or.inl (htable cache2 hentry2 h)

/-- What was written is read back, unless it is recycled. -/
lemma read_write (hended : slot.status.Ended) (hname : slot.logicSlotId = l)
    (hcsn : slot.csn ≠ invalidCsn) (hlive : cache.recycleLogicSlotId ≤ l) :
    ∃ copy, ((cache.writeTxnInfoToCache l slot slot.csn false).readTxnInfoFromCache l out
      recycleCsnMin).1 = some copy ∧ copy.status = slot.status := by
  have hwrite : cache.writeTxnInfoToCache l slot slot.csn false =
      { cachedEntry := some (Function.update
          (cache.cachedEntry.getD fun _ => ⟨0, .unknown, 0⟩) (l % cachedSlotNumPerZone)
          ⟨slot.csn, slot.status, slot.logicSlotId⟩)
        recycleLogicSlotId := cache.recycleLogicSlotId } := by
    simp [writeTxnInfoToCache, hended, refreshRecycleLogicSlotId, store]
  rw [hwrite]
  simp [readTxnInfoFromCache, Nat.not_lt.mpr hlive, hcsn, hname]

end TxnInfoCache

/-! ## What a copy says -/

section Copy

variable {slot out copy : TransactionSlot} {l : ℕ} {stream : WritingWalStream}

/-- A copy from the page says committed only if the WAL of the commit is persisted. -/
lemma copyFromPage_committed (h : copyFromPage slot out l stream = some copy)
    (hcopy : copy.status = .committed) :
    copy = slot ∧ slot.logicSlotId = l ∧ slot.isCommitWalPersist stream := by
  unfold copyFromPage at h
  dsimp only at h
  split_ifs at h with hzero hother hunknown hpersist hunknown hpersist
  · rw [← some.inj h] at hcopy
    exact noConfusion hcopy
  · rw [← some.inj h] at hcopy
    exact noConfusion hcopy
  · rw [← some.inj h] at hcopy
    exact noConfusion hcopy
  · obtain rfl := some.inj h
    rw [not_or, not_not] at hother
    refine ⟨rfl, hother.2, ?_⟩
    cases hflag : slot.isCommitWalPersist stream with
    | true => rfl
    | false => exact absurd ⟨hcopy, hflag⟩ hpersist

variable {cache cache' : TxnInfoCache} {recycleCsnMin : ℕ} {barrier : FailoverBarrier}

section

variable
    (h : getTransactionSlotCopy cache slot out l recycleCsnMin barrier stream = some (copy, cache'))
include h

/-- The three ways to a copy. -/
lemma getTransactionSlotCopy_cases :
    (cache.readTxnInfoFromCache l out recycleCsnMin).1 = some copy ∧
        cache'.cachedEntry = cache.cachedEntry ∨
      ∃ (cache1 : TxnInfoCache) (out' : TransactionSlot) (r : ℕ),
        cache1.cachedEntry = cache.cachedEntry ∧ copyFromPage slot out' l stream = some copy ∧
          cache' = cache1.writeTxnInfoToCache l copy r false := by
  have hpage : ∀ (cache1 : TxnInfoCache) out' r,
      copyFromPageToCache cache1 slot out' l r stream = some (copy, cache') →
      copyFromPage slot out' l stream = some copy ∧
        cache' = cache1.writeTxnInfoToCache l copy r false := by
    intro cache1 out' r hfrom
    obtain ⟨copy', hcopy, heq⟩ := map_eq_some_iff.mp hfrom
    obtain ⟨rfl, rfl⟩ := Prod.mk.inj heq
    exact ⟨hcopy, rfl⟩
  unfold getTransactionSlotCopy at h
  split_ifs at h with hneeded
  · exact Or.inr ⟨cache, out, _, rfl, hpage _ _ _ h⟩
  · have hkeep := cache.readTxnInfoFromCache_cachedEntry l out recycleCsnMin
    split at h
    · rename_i copy' cache1 hread
      obtain ⟨rfl, rfl⟩ := Prod.mk.inj (some.inj h)
      rw [hread] at hkeep
      exact Or.inl ⟨congrArg Prod.fst hread, hkeep⟩
    · rename_i cache1 hread
      rw [hread] at hkeep
      exact Or.inr ⟨cache1, _, _, hkeep, hpage _ _ _ h⟩

/-- An answer committed comes from the cache or from a slot with persisted WAL. -/
lemma getTransactionSlotCopy_committed (hcopy : copy.status = .committed) :
    cache.Holds l .committed ∨
      slot.status = .committed ∧ slot.logicSlotId = l ∧
        slot.isCommitWalPersist stream := by
  rcases getTransactionSlotCopy_cases h with ⟨hread, -⟩ | ⟨cache1, out', r, -, hfrom, -⟩
  · exact Or.inl (TxnInfoCache.holds_of_read hread hcopy)
  · obtain ⟨rfl, hname, hpersist⟩ := copyFromPage_committed hfrom hcopy
    exact Or.inr ⟨hcopy, hname, hpersist⟩

end

/-- The same holds for what is in the cache afterwards. -/
lemma getTransactionSlotCopy_holds {m : ℕ}
    (h : getTransactionSlotCopy cache slot out l recycleCsnMin barrier stream =
      some (copy, cache')) (hholds : cache'.Holds m .committed) :
    cache.Holds m .committed ∨
      slot.status = .committed ∧ slot.logicSlotId = m ∧
        slot.isCommitWalPersist stream := by
  rcases getTransactionSlotCopy_cases h with ⟨-, hkeep⟩ | ⟨cache1, out', r, hkeep, hfrom, rfl⟩
  · obtain ⟨entries, hentries, hrest⟩ := hholds
    exact Or.inl ⟨entries, hkeep ▸ hentries, hrest⟩
  · rcases TxnInfoCache.holds_of_write hholds with ⟨entries, hentries, hrest⟩ | ⟨-, hname, hstatus⟩
    · exact Or.inl ⟨entries, hkeep ▸ hentries, hrest⟩
    · obtain ⟨rfl, -, hpersist⟩ := copyFromPage_committed hfrom hstatus
      exact Or.inr ⟨hstatus, hname, hpersist⟩

end Copy

end DStore
