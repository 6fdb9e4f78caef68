import DStore.Txn.CommitDurable
import DStore.Undo.RecordHeader

/-!
# What `CommitTransactionSlot` reports

A commit looks up the undo zone, takes a csn and locks the slot page twice. `Commit` tells its
caller only by the csn whether it has done its work, and the caller counts the pending commits.
-/

namespace DStore

open CommitState TransactionSlot

/-- What the calls of a commit return: `GetUndoZone`, `GetCsnMode`, both calls of `GetNextCsn`, of
which the second can fail, both calls of `PinAndLockTxnSlotBuf`, and `EndAtomicWal`. -/
structure CommitCalls where
  zoneFound : Bool
  csnMode : CsnMode
  pendingCsn : ℕ
  committedCsn : Option ℕ
  pendingLocked : Bool
  committedLocked : Bool
  walGroupPtr : WalGroupLsnInfo

/-- `WalRecordTransactionCommit`. -/
structure WalRecordTransactionCommit where
  pageId : PageId
  slotId : ℕ
  csn : ℕ
  trxSlotStatus : TrxSlotStatus

/-- The record of a commit in the zone. -/
def SlotZone.commitRecord (zone : SlotZone) (xid : Xid) (csn : ℕ) (status : TrxSlotStatus) :
    WalRecordTransactionCommit :=
  ⟨getTxnSlotPageId zone.mgr.startPage xid.logicSlotId, getSlotId xid.logicSlotId, csn, status⟩

/-- `m_pendingCommitTrxCnt`, the zone of the transaction and the records appended to the log. -/
structure SlotCommit where
  pendingCommitTrxCnt : UInt64
  zone : SlotZone
  wal : List WalRecordTransactionCommit

namespace SlotCommit

variable (st : SlotCommit) (xid : Xid) (calls : CommitCalls)

/-- `UndoZoneTrxManager::Commit` once it has its csn; without the page it returns. -/
def commit (locked : Bool) (csn : ℕ) (status : TrxSlotStatus) (call : SlotCall) : SlotCommit :=
  if locked then
    { st with zone := st.zone.step call, wal := st.wal ++ [st.zone.commitRecord xid csn status] }
  else st

/-- The label `Finish`. -/
def finish (status : RetStatus) (csn : ℕ) : SlotCommit × RetStatus × ℕ :=
  ({ st with pendingCommitTrxCnt := st.pendingCommitTrxCnt - 1 }, status, csn)

/-- `CommitTransactionSlot`, and the csn it ends with. -/
def commitTransactionSlot : SlotCommit × RetStatus × ℕ :=
  if calls.zoneFound then
    let st := { st with pendingCommitTrxCnt := st.pendingCommitTrxCnt + 1 }
    let st := st.commit xid calls.pendingLocked calls.pendingCsn .pendingCommit
      (.commitPending xid.logicSlotId calls.pendingCsn)
    if calls.pendingCsn = invalidCsn then st.finish .fail invalidCsn
    else
      match calls.committedCsn with
      | none => st.finish .fail invalidCsn
      | some csn =>
        let st := st.commit xid calls.committedLocked csn .committed
          (.commitCommitted xid.logicSlotId calls.csnMode csn calls.walGroupPtr)
        st.finish (if csn = invalidCsn then .fail else .succ) csn
  else st.finish .fail invalidCsn

/-- A commit that is reported is in the slot and in the log with its csn, and the counter is as
before. -/
def ReportsTruth : Prop :=
  let (st', status, csn) := st.commitTransactionSlot xid calls
  (status = .succ → (st'.zone.slot xid.logicSlotId).status = .committed ∧
    (st'.zone.slot xid.logicSlotId).csn = csn ∧
    ∃ new, st'.wal = st.wal ++ new ∧ st.zone.commitRecord xid csn .committed ∈ new) ∧
  st'.pendingCommitTrxCnt = st.pendingCommitTrxCnt

variable {st xid}

section Commit

variable (locked : Bool) (csn : ℕ) (status : TrxSlotStatus) (call : SlotCall)

@[simp] lemma commit_count :
    (st.commit xid locked csn status call).pendingCommitTrxCnt = st.pendingCommitTrxCnt := by
  cases locked <;> rfl

@[simp] lemma commit_wal : (st.commit xid locked csn status call).wal =
    st.wal ++ if locked then [st.zone.commitRecord xid csn status] else [] := by
  cases locked
  · exact (List.append_nil _).symm
  · rfl

@[simp] lemma commit_zone :
    (st.commit xid locked csn status call).zone =
      if locked then st.zone.step call else st.zone := by
  cases locked <;> rfl

end Commit

/-- The slot after both commits, the first of which may not have got the page. -/
lemma slot_committed (zone : SlotZone) (id pendingCsn csn : ℕ) (locked : Bool) (mode : CsnMode)
    (ptr : WalGroupLsnInfo) :
    let slot := ((if locked then zone.step (.commitPending id pendingCsn) else zone).step
      (.commitCommitted id mode csn ptr)).slot id
    slot.status = .committed ∧ slot.csn = if mode = .broadcast then
      if locked then pendingCsn else (zone.slot id).csn else csn := by
  cases locked <;>
    simp [SlotZone.step, modifySlot_slot_self, commitCommitted, commitPending, setWalInfo]

/-- `CommitTransactionSlot` reports the truth exactly if the zone is found and, once there is a
csn, the slot page is locked again; in broadcast mode the slot must have that csn already. -/
theorem commitTransactionSlot_truth_iff : st.ReportsTruth xid calls ↔ calls.zoneFound ∧
    (calls.pendingCsn ≠ invalidCsn → ∀ csn ∈ calls.committedCsn, csn ≠ invalidCsn →
      calls.committedLocked ∧ (calls.csnMode = .broadcast →
        (if calls.pendingLocked then calls.pendingCsn else (st.zone.slot xid.logicSlotId).csn) =
          csn)) := by
  have hcount : st.pendingCommitTrxCnt + 1 - 1 = st.pendingCommitTrxCnt := by grind
  unfold ReportsTruth commitTransactionSlot
  cases calls.zoneFound with
  | false =>
    have hlow : st.pendingCommitTrxCnt - 1 ≠ st.pendingCommitTrxCnt := by grind
    simp [finish, hlow]
  | true =>
    by_cases hpending : calls.pendingCsn = invalidCsn
    · simp [finish, hpending]
    cases hcsn : calls.committedCsn with
    | none => simp [finish, hpending]
    | some csn =>
      by_cases hvalid : csn = invalidCsn
      · simp [finish, hpending, hvalid]
      cases hlocked : calls.committedLocked with
      | false =>
        -- nothing but the record of the pending commit is new in the log
        simp [finish, hpending, hvalid, SlotZone.commitRecord]
      | true =>
        obtain ⟨hstatus, hslot⟩ := slot_committed st.zone xid.logicSlotId calls.pendingCsn csn
          calls.pendingLocked calls.csnMode calls.walGroupPtr
        have hrecord : (if calls.pendingLocked then
            st.zone.step (.commitPending xid.logicSlotId calls.pendingCsn) else
            st.zone).commitRecord xid csn .committed = st.zone.commitRecord xid csn .committed := by
          cases calls.pendingLocked <;> rfl
        simp [finish, hpending, hvalid, hstatus, hslot, hrecord]

/-- A zone that is not found leaves the counter one too low; a slot page that cannot be locked again
leaves the slot pending, and the commit is reported. -/
theorem commitTransactionSlot_untrue :
    ¬ ReportsTruth ⟨0, (SlotZone.initial 0 ⟨1, 1⟩).step .allocSlot, []⟩ 0
      ⟨false, .default, 5, some 6, true, true, ⟨1, 0, 8⟩⟩ ∧
    ¬ ReportsTruth ⟨0, (SlotZone.initial 0 ⟨1, 1⟩).step .allocSlot, []⟩ 0
      ⟨true, .default, 5, some 6, true, false, ⟨1, 0, 8⟩⟩ := by
  refine ⟨fun h => absurd h.2 (by decide), fun h => ?_⟩
  have hstatus : _ = TrxSlotStatus.committed := (h.1 rfl).1
  exact absurd hstatus (by decide)

end SlotCommit

end DStore
