import DStore.Heap.LockTuple
import DStore.Page.CrCut

/-!
# The invariant of tuple locks

What every step on a page keeps: a TD serves as locker of one running transaction only, every
locked tuple names its locker, and no other running transaction has locked a tuple that a running
transaction has overwritten.
-/

namespace DStore

open DataPage Function

variable {record : UndoRecord}

/-! ## The TD of a lock -/

section Td

variable {env : TxnEnv} {td : TD} {xid : Xid}

/-- A transaction that got the TD may write through it. -/
lemma TD.LockSound.setTd (h : td.LockSound env) (hgranted : td.Granted env xid)
    (hrun : env.InProgress xid) (undoPtr : UndoRecPtr) (cid : ℕ) :
    (td.setTd xid undoPtr cid).LockSound env := by
  have hcsn : (td.setTd xid undoPtr cid).csnStatus ≠ .isCurXidCsn := by
    show (if td.xid ≠ invalidXid ∧ td.xid ≠ xid ∧ td.csnStatus = .isCurXidCsn
      then TdCsnStatus.isPrevXidCsn else td.csnStatus) ≠ .isCurXidCsn
    split
    next => decide
    next hkeep =>
      intro hcur
      -- a commit hint belongs to an ended owner
      have hended : env.Ended td.xid := h.owner.resolve_right fun ho => ho.2 hcur
      refine hkeep ⟨hended.ne_invalidXid, ?_, hcur⟩
      rintro rfl
      exact hended.not_inProgress hrun
  refine ⟨Or.inr ⟨Or.inr (Or.inl hrun), hcsn⟩, fun hs => ?_, fun _ => hgranted.locker, fun hl => ?_⟩
  · exact absurd hs (show TDStatus.occupyTrxInProgress ≠ .unoccupyAndPruneable by decide)
  · rcases hgranted.locker with hnone | hself
    · exact absurd hnone hl.ne_invalid
    · exact Or.inl hself.symm

/-- A transaction that got the TD may lock through it. -/
lemma TD.LockSound.lockBy (h : td.LockSound env) (hgranted : td.Granted env xid) :
    TD.LockSound env { td with lockerXid := xid, status := .occupyTrxInProgress } := by
  refine ⟨h.owner, fun hs => ?_, fun ho => Or.inr ?_, fun _ => hgranted.owner⟩
  · exact absurd hs (show TDStatus.occupyTrxInProgress ≠ .unoccupyAndPruneable by decide)
  · show xid = td.xid
    rcases hgranted.owner with hself | hnone | hended
    · exact hself.symm
    · exact absurd hnone ho.ne_invalid
    · exact absurd ho hended.not_inProgress

/-- Undo of a record of the running owner. -/
lemma TD.LockSound.rollbackTdInfo (h : td.LockSound env) (hrun : env.InProgress td.xid)
    (hpre : env.Ended record.tdPreXid ∨ ((record.tdPreXid = invalidXid ∨ record.tdPreXid = td.xid) ∧
      record.tdPreCsnStatus ≠ .isCurXidCsn))
    (hlock : record.tdPreXid = invalidXid → ¬ env.InProgress td.lockerXid) :
    (td.rollbackTdInfo record).LockSound env := by
  refine ⟨?_, fun hs => ?_, fun ho => ?_, fun hl => ?_⟩
  · show env.Ended record.tdPreXid ∨ _
    refine hpre.imp_right (And.imp_left (Or.imp_right fun heq => ?_))
    show env.Open record.tdPreXid
    rw [heq]
    exact Or.inl hrun
  · have hnone : record.tdPreXid = invalidXid := by
      by_contra hne
      have hs' : (if record.tdPreXid = invalidXid then TDStatus.unoccupyAndPruneable
        else if record.tdPreXid ≠ td.xid then .occupyTrxEnd else td.status) =
          .unoccupyAndPruneable := hs
      rw [if_neg hne] at hs'
      split at hs'
      · exact absurd hs' (by decide)
      · exact hrun.ne_invalid (h.free hs').1
    refine ⟨hnone, ?_⟩
    show td.lockerXid = invalidXid
    rcases h.own hrun with hfree | hself
    · exact hfree
    · rw [← hself] at hrun
      exact absurd hrun (hlock hnone)
  · show td.lockerXid = invalidXid ∨ td.lockerXid = record.tdPreXid
    have ho' : env.InProgress record.tdPreXid := ho
    rcases hpre with hended | ⟨hnone | heq, _⟩
    · exact absurd ho' hended.not_inProgress
    · exact absurd hnone ho'.ne_invalid
    · rw [heq]
      exact h.own hrun
  · show record.tdPreXid = td.lockerXid ∨ record.tdPreXid = invalidXid ∨ env.Ended record.tdPreXid
    rcases hpre with hended | ⟨hnone | heq, _⟩
    · exact Or.inr (Or.inr hended)
    · exact Or.inr (Or.inl hnone)
    · rw [heq]
      exact h.lock hl

end Td

/-! ## The locks on a page -/

namespace DataPage

/-- No tuple of `page'` has a lock that it did not have on `page`. -/
def NoNewLock (page page' : DataPage) : Prop :=
  ∀ offset, page'.ValidOffset offset → (page'.getItemId offset).isNormal = true →
    (page'.tupleHeader offset).lockerTdId = invalidTdSlot ∨
      (page.ValidOffset offset ∧ (page.getItemId offset).isNormal = true ∧
        (page'.tupleHeader offset).lockerTdId = (page.tupleHeader offset).lockerTdId ∧
        page'.tupleLocker offset = page.tupleLocker offset)

section Locks

variable {env : TxnEnv} {page page' : DataPage} {xid : Xid} {offset tdId : ℕ}

/-- Without a locker TD a tuple is not locked. -/
lemma tupleLocker_of_invalid (h : page.Layout)
    (hnone : (page.tupleHeader offset).lockerTdId = invalidTdSlot) :
    page.tupleLocker offset = invalidXid := by
  rw [tupleLocker, hnone, getTd_of_ge h.tdCount_lt.le]
  rfl

/-- A TD with an xid is on the page. -/
lemma tdId_lt_of_xid (h : (page.getTd tdId).xid ≠ invalidXid) : tdId < page.tdCount := by
  by_contra hge
  rw [getTd_of_ge (by rw [tdCount] at hge; omega)] at h
  exact h rfl

lemma tdId_lt_of_lockerXid (h : (page.getTd tdId).lockerXid ≠ invalidXid) :
    tdId < page.tdCount := by
  by_contra hge
  rw [getTd_of_ge (by rw [tdCount] at hge; omega)] at h
  exact h rfl

/-- Setting a TD changes that TD only. -/
lemma getTd_putTd (h : tdId < page.tdCount) (td : TD) (i : ℕ) :
    (page.putTd tdId td).getTd i = if i = tdId then td else page.getTd i := by
  split
  next heq => rw [heq, getTd_putTd_self h]
  next hne => exact getTd_putTd_of_ne hne td

/-- TDs do not matter for the well-formedness of the tuples. -/
lemma HeapWellFormed.putTd (hwf : page.HeapWellFormed) (tdId : ℕ) (td : TD) :
    (page.putTd tdId td).HeapWellFormed := by
  refine hwf.of_tds rfl rfl rfl rfl rfl ?_
  have hlower : (page.putTd tdId td).lower = page.lower := by
    simp only [lower, DataPage.putTd, List.length_set]
  rw [hlower]
  exact hwf.layout.lower_le_upper

/-- A field of the TDs that the change of one TD keeps. -/
lemma putTd_keeps {α : Type} (field : TD → α) {td : TD} (hkeep : field td = field (page.getTd tdId))
    (i : ℕ) : field ((page.putTd tdId td).getTd i) = field (page.getTd i) := by
  by_cases h : tdId < page.tdCount
  · rw [getTd_putTd h]
    split
    next heq => rw [heq, hkeep]
    next => rfl
  · rw [putTd, List.set_eq_of_length_le (Nat.not_lt.mp h)]

/-- A change of tuples that leaves the lockers of the TDs and unlocks the tuples it touches. -/
lemma TupleFrame.noNewLock {touched : ℕ → Prop} (hwf : page.HeapWellFormed)
    (hframe : TupleFrame page page' touched)
    (hvalid : ∀ offset, page'.ValidOffset offset → page.ValidOffset offset ∨ touched offset)
    (hlocker : ∀ i, (page'.getTd i).lockerXid = (page.getTd i).lockerXid)
    (htouched : ∀ offset, page'.ValidOffset offset → touched offset →
      (page'.getItemId offset).isNormal →
      (page'.tupleHeader offset).lockerTdId = invalidTdSlot ∨
        (page.ValidOffset offset ∧ (page.getItemId offset).isNormal ∧
          (page'.tupleHeader offset).lockerTdId = (page.tupleHeader offset).lockerTdId)) :
    NoNewLock page page' := by
  intro offset hv' hn'
  by_cases ht : touched offset
  · rcases htouched offset hv' ht hn' with hnone | ⟨hv, hn, heq⟩
    · exact Or.inl hnone
    · exact Or.inr ⟨hv, hn, heq, by rw [tupleLocker, tupleLocker, heq, hlocker]⟩
  · have hv := (hvalid offset hv').resolve_right ht
    rw [hframe.item offset hv ht] at hn'
    have hheader := hframe.tupleHeader_eq hv ht hn' (hwf.header_le_len hv hn')
    exact Or.inr ⟨hv, hn', by rw [hheader], by rw [tupleLocker, tupleLocker, hheader, hlocker]⟩

/-- A lock survives a change that touches neither its tuple nor the locker in its TD. -/
lemma Locked.of_frame {touched : ℕ → Prop} (h : page.Locked xid offset tdId)
    (hwf : page.HeapWellFormed) (hframe : TupleFrame page page' touched) (ht : ¬ touched offset)
    (hlocker : (page'.getTd tdId).lockerXid = (page.getTd tdId).lockerXid) :
    page'.Locked xid offset tdId := by
  have hheader := hframe.tupleHeader_eq h.valid ht h.normal (hwf.header_le_len h.valid h.normal)
  refine ⟨h.valid.mono hframe.getMaxOffset_le, ?_, ?_, hlocker.trans h.lockerXid⟩
  · rw [hframe.item offset h.valid ht]
    exact h.normal
  · rw [hheader]
    exact h.lockerTdId

/-- A locked tuple has the locker as its locker. -/
lemma Locked.tupleLocker_eq (h : page.Locked xid offset tdId) : page.tupleLocker offset = xid := by
  rw [tupleLocker, h.lockerTdId]
  exact h.lockerXid

/-- An allocation of a TD locks nothing. -/
lemma AllocLockKept.noNewLock (h : AllocLockKept env xid page page' tdId) :
    NoNewLock page page' := by
  intro offset hv' hn'
  have hv : page.ValidOffset offset := hv'.mono h.getMaxOffset_eq.le
  have hn : (page.getItemId offset).isNormal := (h.normal offset hv).symm.trans hn'
  rcases h.locker offset hv hn with ⟨heq, hlocker⟩ | ⟨hnone, _⟩
  · exact Or.inr ⟨hv, hn, heq, hlocker⟩
  · exact Or.inl hnone

/-- An allocation of a TD keeps the locks of running transactions. -/
lemma AllocLockKept.locked {other : Xid} {t : ℕ} (h : AllocLockKept env xid page page' tdId)
    (hlocked : page.Locked other offset t) (hrun : env.InProgress other) :
    page'.Locked other offset t := by
  have hlocker := hlocked.lockerXid
  refine ⟨hlocked.valid.mono h.getMaxOffset_eq.ge,
    (h.normal offset hlocked.valid).trans hlocked.normal, ?_, ?_⟩
  · rcases h.locker offset hlocked.valid hlocked.normal with ⟨heq, _⟩ | ⟨_, hidle⟩
    · exact heq.trans hlocked.lockerTdId
    · rw [hlocked.tupleLocker_eq] at hidle
      exact absurd hrun hidle
  · rw [(h.td t).locker (by rw [hlocker]; exact hrun)]
    exact hlocker

/-- The page after `DoLock` has set the lock. -/
def withLock (page : DataPage) (xid : Xid) (offset tdId : ℕ) : DataPage :=
  (page.setTupleLockerTdId offset tdId).putTd tdId
    { page.getTd tdId with lockerXid := xid, status := .occupyTrxInProgress }

/-- What `DoLock` does: nothing to a tuple the transaction has locked, else it takes a TD and sets
the lock if it got one. -/
lemma doLock_cases {ctx ctx' : TDAllocContext} {fuel tdId' : ℕ}
    (h : page.doLock env ctx fuel xid offset tdId = some (page', ctx', tdId')) :
    page' = page ∨
      ∃ page1 ctx1 tdId1, (tdId = invalidTdSlot ∧
          page.doAllocTd env ctx fuel xid = some (page1, ctx1, tdId1) ∨
          tdId ≠ invalidTdSlot ∧ page1 = page ∧ tdId1 = tdId) ∧
        (page.tupleLocker offset ≠ xid ∨ (page.tupleHeader offset).lockerTdId = invalidTdSlot) ∧
        page' = if tdId1 = invalidTdSlot then page1 else page1.withLock xid offset tdId1 := by
  unfold doLock at h
  dsimp only at h
  split at h
  next hfree =>
    right
    split at h
    next => simp at h
    next page1 ctx1 tdId1 htake =>
      refine ⟨page1, ctx1, tdId1, ?_, hfree.symm, ?_⟩
      · split at htake
        next hnone => exact Or.inl ⟨hnone, htake⟩
        next hsome =>
          simp only [Option.some.injEq, Prod.mk.injEq] at htake
          exact Or.inr ⟨hsome, htake.1.symm, htake.2.2.symm⟩
      · split at h
        next hinvalid =>
          simp only [Option.some.injEq, Prod.mk.injEq] at h
          rw [if_pos hinvalid, h.1]
        next hvalid =>
          simp only [Option.some.injEq, Prod.mk.injEq] at h
          rw [if_neg hvalid, ← h.1]
          rfl
  next =>
    simp only [Option.some.injEq, Prod.mk.injEq] at h
    exact Or.inl h.1.symm

section WithLock

variable (hwf : page.HeapWellFormed) (hv : page.ValidOffset offset)
  (hn : (page.getItemId offset).isNormal = true)

include hwf hv hn

lemma setTupleLockerTdId_rewritten (tdId : ℕ) :
    Rewritten page (page.setTupleLockerTdId offset tdId) offset :=
  rewritten_of_headerEdit hwf hv hn rfl rfl rfl rfl rfl
    (HeapDiskTuple.headerEdit_setLockerTdId _ _ _)

/-- Locking a tuple touches that tuple only. -/
lemma withLock_frame (xid : Xid) (tdId : ℕ) :
    TupleFrame page (page.withLock xid offset tdId) (· = offset) :=
  ((setTupleLockerTdId_rewritten hwf hv hn tdId).changedAt hwf (SameSpace.putTd _ tdId _)).frame

omit hwf hv hn in
lemma withLock_tupleHeader (xid : Xid) (tdId : ℕ) :
    (page.withLock xid offset tdId).tupleHeader offset =
      { page.tupleHeader offset with lockerTdId := tdId % 256 } :=
  HeapDiskTuple.header_setLockerTdId _ _ _

/-- Locking a tuple keeps the page well formed. -/
lemma withLock_wf (xid : Xid) (tdId : ℕ) : (page.withLock xid offset tdId).HeapWellFormed := by
  have hrew := setTupleLockerTdId_rewritten hwf hv hn tdId
  refine hwf.of_frame rfl ((hrew.changedAt hwf (SameSpace.putTd _ tdId _)).layout)
    (withLock_frame hwf hv hn xid tdId) (fun offset' hv' => Or.inl hv') ?_
  intro offset' _ heq
  rw [heq, TupleSound, withLock_tupleHeader]
  exact hwf.sound hv

end WithLock

section

variable (h : tdId < page.tdCount)
include h

lemma getTd_withLock (i : ℕ) :
    (page.withLock xid offset tdId).getTd i =
      if i = tdId then { page.getTd tdId with lockerXid := xid, status := .occupyTrxInProgress }
      else page.getTd i :=
  @getTd_putTd (page.setTupleLockerTdId offset tdId) tdId h _ i

/-- A locker that was there stays, since the TD was granted. -/
lemma lockerXid_withLock (hgranted : (page.getTd tdId).Granted env xid)
    {i : ℕ} (hlocker : (page.getTd i).lockerXid ≠ invalidXid) :
    ((page.withLock xid offset tdId).getTd i).lockerXid = (page.getTd i).lockerXid := by
  rw [getTd_withLock h]
  split
  next heq =>
    rw [heq] at hlocker ⊢
    exact (hgranted.locker.resolve_left hlocker).symm
  next => rfl

lemma withLock_lockerTdId (hwf : page.HeapWellFormed) :
    ((page.withLock xid offset tdId).tupleHeader offset).lockerTdId = tdId := by
  have hcount := hwf.layout.tdCount_lt
  rw [withLock_tupleHeader]
  apply Nat.mod_eq_of_lt
  rw [tdCount] at h
  unfold invalidTdSlot at hcount
  omega

/-- The tuple is locked by the transaction. -/
lemma withLock_tupleLocker (hwf : page.HeapWellFormed) :
    (page.withLock xid offset tdId).tupleLocker offset = xid := by
  rw [tupleLocker, withLock_lockerTdId h hwf, getTd_withLock h, if_pos rfl]

/-- The lockers of other tuples stay. -/
lemma withLock_tupleLocker_of_ne (hwf : page.HeapWellFormed) (hv : page.ValidOffset offset)
    (hn : (page.getItemId offset).isNormal)
    (hgranted : (page.getTd tdId).Granted env xid) {offset' : ℕ} (hne : offset' ≠ offset)
    (hv' : page.ValidOffset offset') (hn' : (page.getItemId offset').isNormal)
    (hnamed : (page.tupleHeader offset').lockerTdId ≠ invalidTdSlot →
      page.tupleLocker offset' ≠ invalidXid) :
    ((page.withLock xid offset tdId).tupleHeader offset').lockerTdId =
        (page.tupleHeader offset').lockerTdId ∧
      (page.withLock xid offset tdId).tupleLocker offset' = page.tupleLocker offset' := by
  have hheader := (withLock_frame hwf hv hn xid tdId).tupleHeader_eq hv' hne hn'
    (hwf.header_le_len hv' hn')
  refine ⟨by rw [hheader], ?_⟩
  rw [tupleLocker, hheader, tupleLocker]
  by_cases hnone : (page.tupleHeader offset').lockerTdId = invalidTdSlot
  · have hcount := hwf.layout.tdCount_lt
    rw [hnone, getTd_withLock h, if_neg (by rw [tdCount] at h; omega)]
  · exact lockerXid_withLock h hgranted (hnamed hnone)

end

end Locks

end DataPage

/-! ## The invariant -/

/-- The records a running `xid` has written through a TD: each holds the TD as `xid` left it
before, the oldest as it was when `xid` took it over. -/
inductive OwnRecords (env : TxnEnv) (tdId : ℕ) (xid : Xid) : List UndoRecord → Prop where
  | first {record : UndoRecord} (htd : record.tdId = tdId)
    (hpre : env.Ended record.tdPreXid ∨
      (record.tdPreXid = invalidXid ∧ record.tdPreCsnStatus ≠ .isCurXidCsn)) :
    OwnRecords env tdId xid [record]
  | next {record : UndoRecord} {records : List UndoRecord} (htd : record.tdId = tdId)
    (hpre : record.tdPreXid = xid) (hcsn : record.tdPreCsnStatus ≠ .isCurXidCsn)
    (hrest : OwnRecords env tdId xid records) : OwnRecords env tdId xid (record :: records)

/-- Transactions that end do not spoil the records of others. -/
lemma OwnRecords.mono {env env' : TxnEnv} {tdId : ℕ} {xid : Xid} {records : List UndoRecord}
    (h : OwnRecords env tdId xid records) (hended : ∀ xid, env.Ended xid → env'.Ended xid) :
    OwnRecords env' tdId xid records := by
  induction h with
  | first htd hpre => exact .first htd (hpre.imp_left (hended _))
  | next htd hpre hcsn _ ih => exact .next htd hpre hcsn ih

namespace LockState

/-- What holds of a record of the running `xid`: its undo can rely on it, and no other running
transaction has locked a tuple it names. -/
structure RecordSound (s : LockState) (xid : Xid) (record : UndoRecord) : Prop where
  restorable : record.Restorable
  valid : ∀ offset, record.isMatchedCtid offset = true → s.page.ValidOffset offset
  excl : ∀ offset, record.isMatchedCtid offset = true →
    (s.page.getItemId offset).isNormal = true → s.env.InProgress (s.page.tupleLocker offset) →
    s.page.tupleLocker offset = xid

/-- The invariant of all runs in which undo takes no lock away. -/
structure LockInv (s : LockState) : Prop where
  wf : s.page.HeapWellFormed
  sound : ∀ tdId, (s.page.getTd tdId).LockSound s.env
  named : ∀ offset, s.page.ValidOffset offset → (s.page.getItemId offset).isNormal = true →
    (s.page.tupleHeader offset).lockerTdId ≠ invalidTdSlot →
    s.page.tupleLocker offset ≠ invalidXid
  records : ∀ tdId, s.env.InProgress (s.page.getTd tdId).xid →
    OwnRecords s.env tdId (s.page.getTd tdId).xid (s.undo tdId) ∧
      ∀ record ∈ s.undo tdId, s.RecordSound (s.page.getTd tdId).xid record

section Steps

variable {s : LockState} {page' : DataPage} {xid : Xid} {offset tdId : ℕ}
  {undo' : ℕ → List UndoRecord}

/-- The invariant holds at the start. -/
lemma Start.lockInv (h : s.Start) : s.LockInv := by
  have hidle : ∀ tdId, ¬ s.env.InProgress (s.page.getTd tdId).xid := by
    intro tdId hrun
    rcases h.owner tdId with hended | ⟨hnone, _⟩
    · exact hended.not_inProgress hrun
    · exact hrun.ne_invalid hnone
  refine ⟨h.wf, fun tdId => ⟨?_, fun hs => ⟨h.free tdId hs, h.noLocker tdId⟩,
    fun hrun => absurd hrun (hidle tdId), fun hl => absurd (h.noLocker tdId) hl.ne_invalid⟩,
    fun offset hv hn hne => absurd (h.unlocked offset hv hn) hne,
    fun tdId hrun => absurd hrun (hidle tdId)⟩
  exact (h.owner tdId).imp_right (And.imp_left Or.inl)

/-- A record stays sound when no tuple gets a new lock. -/
lemma RecordSound.of_noNewLock (h : s.RecordSound xid record)
    (hlayout : page'.Layout) (hmax : s.page.getMaxOffset ≤ page'.getMaxOffset)
    (hlock : NoNewLock s.page page') :
    RecordSound { s with page := page', undo := undo' } xid record := by
  refine ⟨h.restorable, fun offset hm => (h.valid offset hm).mono hmax, ?_⟩
  intro offset hm hn hrun
  rcases hlock offset ((h.valid offset hm).mono hmax) hn with hnone | ⟨_, hn', _, heq⟩
  · exact absurd (tupleLocker_of_invalid hlayout hnone) hrun.ne_invalid
  · have heq' : page'.tupleLocker offset = s.page.tupleLocker offset := heq
    show page'.tupleLocker offset = xid
    rw [heq']
    exact h.excl offset hm hn' (heq' ▸ hrun)

section

variable (h : s.LockInv)
include h

/-- Every locker TD still names a locker. -/
lemma LockInv.named_of_noNewLock (hlock : NoNewLock s.page page') :
    ∀ offset, page'.ValidOffset offset → (page'.getItemId offset).isNormal →
      (page'.tupleHeader offset).lockerTdId ≠ invalidTdSlot →
      page'.tupleLocker offset ≠ invalidXid := by
  intro offset hv hn hne
  obtain ⟨hv', hn', htd, heq⟩ := (hlock offset hv hn).resolve_left hne
  rw [heq]
  exact h.named offset hv' hn' (htd ▸ hne)

/-- A change of transaction statuses keeps the invariant. -/
lemma LockInv.setStatus {env' : TxnEnv} (hstatus : s.StatusStep env') :
    LockInv { s with env := env' } := by
  refine ⟨h.wf, fun tdId => ?_, h.named, fun tdId hrun => ?_⟩
  · have hsound := h.sound tdId
    refine ⟨?_, hsound.free, fun hrun => hsound.own ((hstatus.fresh tdId).1 hrun), fun hrun => ?_⟩
    · rcases hsound.owner with hended | ⟨hnone | hopen, hcsn⟩
      · exact Or.inl (hstatus.ended _ hended)
      · exact Or.inr ⟨Or.inl hnone, hcsn⟩
      · rcases hstatus.owner tdId hopen with hopen' | hended
        · exact Or.inr ⟨Or.inr hopen', hcsn⟩
        · exact Or.inl hended
    · exact (hsound.lock ((hstatus.fresh tdId).2 hrun)).imp_right (Or.imp_right (hstatus.ended _))
  · obtain ⟨hchain, hrecords⟩ := h.records tdId ((hstatus.fresh tdId).1 hrun)
    refine ⟨hchain.mono hstatus.ended, fun record hmem => ?_⟩
    have hrecord := hrecords record hmem
    exact ⟨hrecord.restorable, hrecord.valid, fun offset hm hn hl =>
      hrecord.excl offset hm hn ((hstatus.fresh _).2 hl)⟩

/-- An allocation of a TD keeps the invariant. -/
lemma LockInv.alloc (hkept : AllocLockKept s.env xid s.page page' tdId) :
    LockInv { s with page := page' } := by
  have hlock := hkept.noNewLock
  refine ⟨hkept.wf, fun i => (hkept.td i).sound, h.named_of_noNewLock hlock, fun i hrun => ?_⟩
  have htd : page'.getTd i = s.page.getTd i := (hkept.td i).owner (Or.inr hrun)
  show OwnRecords s.env i (page'.getTd i).xid (s.undo i) ∧ _
  have hrun' : s.env.InProgress (page'.getTd i).xid := hrun
  rw [htd] at hrun' ⊢
  obtain ⟨hchain, hrecords⟩ := h.records i hrun'
  refine ⟨hchain, fun record hmem => ?_⟩
  exact (hrecords record hmem).of_noNewLock hkept.wf.layout hkept.getMaxOffset_eq.ge hlock

/-- A lock that `DoLock` sets. -/
lemma LockInv.lock (hlt : tdId < s.page.tdCount)
    (hgranted : (s.page.getTd tdId).Granted s.env xid) (hrun : s.env.InProgress xid)
    (hv : s.page.ValidOffset offset) (hn : (s.page.getItemId offset).isNormal)
    (hfree : s.FreeFor xid offset) :
    LockInv { s with page := s.page.withLock xid offset tdId } := by
  have hother : ∀ offset', offset' ≠ offset → s.page.ValidOffset offset' →
      (s.page.getItemId offset').isNormal → _ := fun offset' hne hv' hn' =>
    withLock_tupleLocker_of_ne hlt h.wf hv hn hgranted hne hv' hn' (h.named offset' hv' hn')
  have hxid : ∀ i, ((s.page.withLock xid offset tdId).getTd i).xid = (s.page.getTd i).xid :=
    putTd_keeps TD.xid (by rfl)
  refine ⟨withLock_wf h.wf hv hn xid tdId, fun i => ?_, fun offset' hv' hn' hne => ?_,
    fun i hi => ?_⟩
  · show ((s.page.withLock xid offset tdId).getTd i).LockSound s.env
    rw [getTd_withLock hlt]
    split
    · exact (h.sound tdId).lockBy hgranted
    · exact h.sound i
  · by_cases heq : offset' = offset
    · rw [heq]
      show (s.page.withLock xid offset tdId).tupleLocker offset ≠ invalidXid
      rw [withLock_tupleLocker hlt h.wf]
      exact hrun.ne_invalid
    · obtain ⟨htd, hlocker⟩ := hother offset' heq hv' hn'
      show (s.page.withLock xid offset tdId).tupleLocker offset' ≠ invalidXid
      rw [hlocker]
      exact h.named offset' hv' hn' (htd ▸ hne)
  · have hi' : s.env.InProgress ((s.page.withLock xid offset tdId).getTd i).xid := hi
    rw [hxid] at hi'
    obtain ⟨hchain, hrecords⟩ := h.records i hi'
    show OwnRecords s.env i ((s.page.withLock xid offset tdId).getTd i).xid (s.undo i) ∧
      ∀ record ∈ s.undo i, RecordSound { s with page := s.page.withLock xid offset tdId }
        ((s.page.withLock xid offset tdId).getTd i).xid record
    rw [hxid]
    refine ⟨hchain, fun record hmem => ?_⟩
    have hrecord := hrecords record hmem
    refine ⟨hrecord.restorable, hrecord.valid, fun offset' hm hn' hl => ?_⟩
    show (s.page.withLock xid offset tdId).tupleLocker offset' = _
    by_cases heq : offset' = offset
    · -- the locker has waited for every other transaction that wrote the tuple
      subst heq
      rw [withLock_tupleLocker hlt h.wf]
      by_contra hne
      have hfalse := hfree.2 i (tdId_lt_of_xid hi'.ne_invalid) hi' (Ne.symm hne) record hmem
      rw [hm] at hfalse
      simp at hfalse
    · have hlocker := (hother offset' heq (hrecord.valid offset' hm) hn').2
      have hl' : s.env.InProgress ((s.page.withLock xid offset tdId).tupleLocker offset') := hl
      rw [hlocker] at hl' ⊢
      exact hrecord.excl offset' hm hn' hl'

/-- The new record continues the owner's records of the TD, or starts them. -/
lemma LockInv.ownRecords_write
    (hgranted : (s.page.getTd tdId).Granted s.env xid) (hrun : s.env.InProgress xid)
    (htd : record.tdId = tdId) (hpre : record.tdPreXid = (s.page.getTd tdId).xid)
    (hcsn : record.tdPreCsnStatus = (s.page.getTd tdId).csnStatus) :
    OwnRecords s.env tdId xid
      (if (s.page.getTd tdId).xid = xid then record :: s.undo tdId else [record]) := by
  have hhint : ¬ s.env.Ended (s.page.getTd tdId).xid → record.tdPreCsnStatus ≠ .isCurXidCsn := by
    intro hnot
    rw [hcsn]
    exact ((h.sound tdId).owner.resolve_left hnot).2
  split
  next hself =>
    have hown := (h.records tdId (by rw [hself]; exact hrun)).1
    rw [hself] at hown hhint
    exact .next htd (hpre.trans hself) (hhint fun he => he.not_inProgress hrun) hown
  next hne =>
    refine .first htd ?_
    rw [hpre]
    rcases hgranted.owner with hself | hnone | hended
    · exact absurd hself hne
    · exact Or.inr ⟨hnone, hhint fun he => he.ne_invalidXid hnone⟩
    · exact Or.inl hended

/-- A change of one TD and its records that sets no lock. -/
lemma LockInv.setRecords {td : TD} {records : List UndoRecord} (hwf : page'.HeapWellFormed)
    (hmax : s.page.getMaxOffset ≤ page'.getMaxOffset) (hlock : NoNewLock s.page page')
    (hgetTd : ∀ i, page'.getTd i = if i = tdId then td else s.page.getTd i)
    (hsound : td.LockSound s.env)
    (hrecords : s.env.InProgress td.xid → OwnRecords s.env tdId td.xid records ∧
      ∀ record ∈ records, RecordSound
        { s with page := page', undo := update s.undo tdId records } td.xid record) :
    LockInv { s with page := page', undo := update s.undo tdId records } := by
  refine ⟨hwf, fun i => ?_, h.named_of_noNewLock hlock, fun i hi => ?_⟩
  · show (page'.getTd i).LockSound s.env
    rw [hgetTd]
    split
    · exact hsound
    · exact h.sound i
  show OwnRecords s.env i (page'.getTd i).xid (update s.undo tdId records i) ∧
    ∀ record ∈ update s.undo tdId records i, RecordSound _ (page'.getTd i).xid record
  have hi' : s.env.InProgress (page'.getTd i).xid := hi
  rw [hgetTd] at hi' ⊢
  by_cases heq : i = tdId
  · subst heq
    rw [if_pos rfl] at hi' ⊢
    rw [update_self]
    exact hrecords hi'
  · rw [if_neg heq] at hi' ⊢
    rw [update_of_ne heq]
    obtain ⟨hchain, hold⟩ := h.records i hi'
    exact ⟨hchain, fun record hmem => (hold record hmem).of_noNewLock hwf.layout hmax hlock⟩

/-- A write through a TD that is free for the writer. -/
lemma LockInv.write (hlt : tdId < s.page.tdCount)
    (hgranted : (s.page.getTd tdId).Granted s.env xid) (hrun : s.env.InProgress xid)
    {op : HeapOp} {cid : ℕ}
    (hop : op.modify ⟨tdId, xid, cid⟩ s.page = some (page', record)) (undoPtr : UndoRecPtr) :
    LockInv { s with
      page := page'.setTd tdId xid undoPtr cid
      undo := update s.undo tdId
        (if (s.page.getTd tdId).xid = xid then record :: s.undo tdId else [record]) } := by
  have hfr := modify_opFrame h.wf hop
  obtain ⟨ctid, data, hrecord⟩ := hfr.ofTd
  set page'' := page'.setTd tdId xid undoPtr cid with hpage''
  have htds : ∀ i, page'.getTd i = s.page.getTd i := fun i => by
    rw [getTd, getTd, hfr.tds_eq]
  have hgetTd : ∀ i, page''.getTd i =
      if i = tdId then (s.page.getTd tdId).setTd xid undoPtr cid else s.page.getTd i := by
    intro i
    rw [hpage'', setTd, getTd_putTd (by rw [tdCount, hfr.tds_eq]; exact hlt),
      htds, htds]
  have hlocker : ∀ i, (page''.getTd i).lockerXid = (s.page.getTd i).lockerXid := by
    intro i
    rw [← htds]
    exact putTd_keeps TD.lockerXid (by rfl) i
  have hwf : page''.HeapWellFormed := hfr.wf.putTd _ _
  have hframe : TupleFrame s.page page'' (record.isMatchedCtid · = true) :=
    hfr.frame.trans (TupleFrame.of_eq rfl rfl)
  have hlock : NoNewLock s.page page'' :=
    hframe.noNewLock h.wf hfr.valid_or hlocker fun offset _ hm _ => Or.inl (hfr.unlocked offset hm)
  refine h.setRecords hwf hframe.getMaxOffset_le hlock hgetTd
    ((h.sound tdId).setTd hgranted hrun undoPtr cid) fun _ => ⟨h.ownRecords_write hgranted hrun
      (by rw [hrecord]; rfl) (by rw [hrecord]; rfl) (by rw [hrecord]; rfl), fun record' hmem => ?_⟩
  have hnew : record' = record ∨ ((s.page.getTd tdId).xid = xid ∧ record' ∈ s.undo tdId) := by
    split at hmem
    next hself => exact (List.mem_cons.mp hmem).imp_right fun hm => ⟨hself, hm⟩
    next => exact Or.inl (List.mem_singleton.mp hmem)
  rcases hnew with rfl | ⟨hself, hmem⟩
  · refine ⟨hfr.restorable, hfr.valid, fun offset hm hn hl => ?_⟩
    exact absurd (tupleLocker_of_invalid hwf.layout (hfr.unlocked offset hm)) hl.ne_invalid
  · have hsound := (h.records tdId (by rw [hself]; exact hrun)).2 record' hmem
    rw [hself] at hsound
    exact hsound.of_noNewLock hwf.layout hframe.getMaxOffset_le hlock

/-- Undo of the newest record of a running owner that leaves the page and the locks of the owner
alone. -/
lemma LockInv.undoRecord (hrun : s.env.InProgress (s.page.getTd tdId).xid)
    {records : List UndoRecord} (hundo : s.undo tdId = record :: records)
    (hlockers : record.tdPreXid = invalidXid → ¬ s.env.InProgress (s.page.getTd tdId).lockerXid)
    (hfr : UndoFrame s.page page' record) :
    LockInv { s with page := page', undo := update s.undo tdId records } := by
  obtain ⟨hchain, hrecords⟩ := h.records tdId hrun
  rw [hundo] at hchain hrecords
  have hlt : tdId < s.page.tdCount := tdId_lt_of_xid hrun.ne_invalid
  have htd : record.tdId = tdId := by
    cases hchain with
    | first htd _ => exact htd
    | next htd _ _ _ => exact htd
  have hpre : s.env.Ended record.tdPreXid ∨ ((record.tdPreXid = invalidXid ∨
      record.tdPreXid = (s.page.getTd tdId).xid) ∧ record.tdPreCsnStatus ≠ .isCurXidCsn) := by
    cases hchain with
    | first _ hpre => exact hpre.imp_right (And.imp_left Or.inl)
    | next _ hpre hcsn _ => exact Or.inr ⟨Or.inr hpre, hcsn⟩
  have hgetTd : ∀ i, page'.getTd i = if i = tdId then
      (s.page.getTd tdId).rollbackTdInfo record else s.page.getTd i := by
    intro i
    rw [getTd, hfr.tds_eq, ← getTd, rollbackTd, htd,
      getTd_putTd hlt]
  have hlocker : ∀ i, (page'.getTd i).lockerXid = (s.page.getTd i).lockerXid := by
    intro i
    rw [getTd, hfr.tds_eq]
    exact putTd_keeps TD.lockerXid (by rfl) i
  have hvalid : ∀ offset, page'.ValidOffset offset → s.page.ValidOffset offset := fun offset hv =>
    hv.mono hfr.getMaxOffset_eq.le
  have hlock : NoNewLock s.page page' :=
    hfr.frame.noNewLock h.wf (fun offset hv => Or.inl (hvalid offset hv)) hlocker
      fun offset hv hm hn => (hfr.locker offset hm hn).imp_right fun hl => ⟨hvalid offset hv, hl⟩
  refine h.setRecords hfr.wf hfr.frame.getMaxOffset_le hlock hgetTd
    ((h.sound tdId).rollbackTdInfo hrun hpre hlockers) fun hi => ?_
  have hi' : s.env.InProgress record.tdPreXid := hi
  show OwnRecords s.env tdId record.tdPreXid records ∧
    ∀ record' ∈ records, RecordSound _ record.tdPreXid record'
  -- the TD still has its owner, so this was not the owner's first record
  cases hchain with
  | first _ hpre =>
    rcases hpre with hended | ⟨hnone, _⟩
    · exact absurd hi' hended.not_inProgress
    · exact absurd hnone hi'.ne_invalid
  | next _ hself _ hrest =>
    rw [hself]
    exact ⟨hrest, fun record' hmem => (hrecords record' (List.mem_cons_of_mem _ hmem)).of_noNewLock
      hfr.wf.layout hfr.frame.getMaxOffset_le hlock⟩

end

end Steps

end LockState

end DStore
