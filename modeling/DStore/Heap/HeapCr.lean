import DStore.Heap.UndoTdLink
import DStore.Page.CrCut

/-!
# Consistent reads of heap pages

On heap pages `RollbackByUndoRec` is `UndoHeap`. Besides the TD of the record, undo touches the
TD array only where it compacts the page for a tuple that has to be added again; this drops TDs
without owner from the end.
-/

namespace DStore

open Option

namespace DataPage

variable {page page' page'' : DataPage} {record : UndoRecord} {tdId : ℕ}

/-- `RollbackByUndoRec` on a heap page. -/
def heapRollbackByUndoRec (_xid : Xid) (record : UndoRecord) (_tdId : ℕ) (page : DataPage) :
    Option DataPage :=
  page.undoHeap record

/-- `page'` has the TDs of `page`, or fewer free ones, with `tdId` among them. -/
structure TdsKept (tdId : ℕ) (page page' : DataPage) : Prop extends
    OtherTdsKept tdId page page' where
  self : page'.getTd tdId = page.getTd tdId

lemma TdsKept.of_tds_eq (hlt : tdId < page.tdCount) (htds : page'.tds = page.tds) :
    TdsKept tdId page page' := by
  refine ⟨(OtherTdsKept.refl hlt).of_tds_eq htds, ?_⟩
  rw [getTd, getTd, htds]

lemma TdsKept.trans (h : TdsKept tdId page page') (h' : TdsKept tdId page' page'') :
    TdsKept tdId page page'' :=
  ⟨h.toOtherTdsKept.trans h'.toOtherTdsKept, h'.self.trans h.self⟩

/-- Compaction drops no TD with an owner. -/
lemma compactCRPage_tdsKept (size : ℕ) (hlt : tdId < page.tdCount)
    (hvalid : (page.getTd tdId).xid ≠ invalidXid) :
    TdsKept tdId page (page.compactCRPageIfFreeSpaceLessThan size) := by
  by_cases hfree : size ≤ page.getFreeSpaceRaw
  · rw [compactCRPage_of_le hfree]
    exact TdsKept.of_tds_eq hlt rfl
  have htds := (compactCRPage_of_lt (not_le.mp hfree)).tds_eq
  have hcount : (page.compactCRPageIfFreeSpaceLessThan size).tdCount =
      page.tdCount - page.trailingFreeTds := by
    rw [tdCount, htds, List.length_take]
    exact Nat.min_eq_left (Nat.sub_le _ _)
  have hget : ∀ t, t < page.tdCount - page.trailingFreeTds →
      (page.compactCRPageIfFreeSpaceLessThan size).getTd t = page.getTd t := by
    intro t ht
    rw [getTd, getTd, htds, List.getD_eq_getElem?_getD, List.getD_eq_getElem?_getD,
      List.getElem?_take_of_lt ht]
  have hkept := page.lt_of_xid_ne hlt hvalid
  refine ⟨⟨?_, ?_, ?_, ?_⟩, hget tdId hkept⟩
  · rw [hcount]
    exact Nat.sub_le _ _
  · rw [hcount]
    exact hkept
  · intro t _ ht
    rw [hcount] at ht
    exact hget t ht
  · intro t hge ht
    by_contra hx
    rw [hcount] at hge
    exact absurd (page.lt_of_xid_ne ht hx) (not_lt.mpr hge)

lemma addTuple_tds (page : DataPage) (tuple : ByteMem) (size offset : ℕ) :
    (page.addTuple tuple size offset).1.tds = page.tds := by
  unfold addTuple
  dsimp only
  generalize (if offset = invalidItemOffsetNumber then page.getFreeItemId else offset) = target
  split
  · rfl
  · rfl

lemma foldl_undoInsertAt_tds (page : DataPage) (offsets : List ℕ) :
    (offsets.foldl undoInsertAt page).tds = page.tds := by
  induction offsets generalizing page with
  | nil => rfl
  | cons offset offsets ih => exact ih _

section Steps

variable (hlt : tdId < page.tdCount) (hvalid : (page.getTd tdId).xid ≠ invalidXid)

include hlt hvalid

/-- Compacting and adding a tuple drops at most free TDs. -/
lemma compactAndAdd_tdsKept (tuple : ByteMem) (size offset : ℕ) :
    TdsKept tdId page
      ((page.compactCRPageIfFreeSpaceLessThan size).addTuple tuple size offset).1 := by
  have hkept := compactCRPage_tdsKept size hlt hvalid
  exact hkept.trans (TdsKept.of_tds_eq hkept.lt (addTuple_tds _ _ _ _))

/-- So does putting an old tuple back. -/
lemma restoreTuple_tdsKept (offset : ℕ) (image : ByteMem) (size : ℕ) :
    TdsKept tdId page (page.restoreTuple offset image size).1 := by
  unfold restoreTuple
  dsimp only
  split
  · exact TdsKept.of_tds_eq hlt rfl
  · exact compactAndAdd_tdsKept hlt hvalid image size offset

/-- So does undoing an in-place update. -/
lemma undoInplaceTuple_tdsKept {oldTdId oldInfo oldTupleLen offset : ℕ} {oldXid : Xid}
    {diffs : List DiffSection}
    (hrun : page.undoInplaceTuple oldTdId oldInfo oldTupleLen oldXid diffs offset = some page') :
    TdsKept tdId page page' := by
  obtain ⟨mem, -, -, hmem⟩ := page.detachOldTd_status oldTdId (page.getItemId offset).offset
  rw [undoInplaceTuple] at hrun
  simp only [hmem] at hrun
  split at hrun
  · simp at hrun
  split at hrun
  · rw [← some.inj hrun]
    exact TdsKept.of_tds_eq hlt rfl
  split at hrun
  · rw [← some.inj hrun]
    -- the item gives up its storage before the page is compacted
    have hkept : TdsKept tdId page ((page.withMem mem).putItemId offset
        ((page.getItemId offset).setNoStorage.setTdStatus .detachTd)) := TdsKept.of_tds_eq hlt rfl
    exact hkept.trans (compactAndAdd_tdsKept hkept.lt (by rw [hkept.self]; exact hvalid) _ _ _)
  · simp at hrun

end Steps

/-! ## The TD of the record -/

lemma TdRolledBack.of_tds_eq (h : TdRolledBack record page page') (htds : page''.tds = page'.tds) :
    TdRolledBack record page page'' := by
  refine ⟨h.toOtherTdsKept.of_tds_eq htds, ?_⟩
  rw [← h.self, getTd, getTd, htds]

/-- Rolling the TD of the record back afterwards is the rollback of that TD. -/
lemma TdsKept.rollbackTd (h : TdsKept record.tdId page page') :
    TdRolledBack record page (page'.rollbackTd record) := by
  refine ⟨h.toOtherTdsKept.trans (OtherTdsKept.putTd h.lt _), ?_⟩
  rw [DataPage.rollbackTd, getTd_putTd_self h.lt, h.self]

/-- Undoing an insert rolls the TD back. -/
lemma executeUndoForInsert_tdRolledBack (hlt : record.tdId < page.tdCount) :
    TdRolledBack record page (page.executeUndoForInsert record) := by
  unfold executeUndoForInsert
  apply TdsKept.rollbackTd
  exact TdsKept.of_tds_eq hlt rfl

/-- Whatever the record, `UndoHeap` takes its TD back and keeps the TDs in use. -/
theorem undoHeap_tdRolledBack (hlt : record.tdId < page.tdCount)
    (hvalid : (page.getTd record.tdId).xid ≠ invalidXid)
    (hundo : page.undoHeap record = some page') : TdRolledBack record page page' := by
  unfold undoHeap at hundo
  split at hundo
  · rw [← some.inj hundo]
    exact executeUndoForInsert_tdRolledBack hlt
  next ranges _ =>
    rw [← some.inj hundo, executeUndoForBatchInsert]
    apply TdsKept.rollbackTd
    exact TdsKept.of_tds_eq hlt (foldl_undoInsertAt_tds page (rangeOffsets ranges))
  · rw [← some.inj hundo]
    exact (restoreTuple_tdsKept hlt hvalid _ _ _).rollbackTd
  · unfold executeUndoForInplaceUpdate at hundo
    dsimp only at hundo
    split at hundo
    · simp at hundo
    next page1 hstep =>
      rw [← some.inj hundo]
      exact (undoInplaceTuple_tdsKept hlt hvalid hstep).rollbackTd.of_tds_eq (markHistory_tds _ _ _)
  · rw [executeUndoForSamePageAppendUpdate_eq rfl] at hundo
    split_ifs at hundo
    rw [← some.inj hundo]
    exact (TdsKept.of_tds_eq hlt rfl).rollbackTd.of_tds_eq (markHistory_tds _ _ _)
  · unfold executeUndoForOldPageAppendUpdate at hundo
    dsimp only at hundo
    split at hundo
    · rw [← some.inj hundo]
      exact (restoreTuple_tdsKept hlt hvalid _ _ _).rollbackTd.of_tds_eq (markHistory_tds _ _ _)
    · simp at hundo
  · rw [← some.inj hundo]
    exact executeUndoForInsert_tdRolledBack hlt
  · simp at hundo

/-- The rollback of heap records is one as the construction asks for. -/
lemma heapRollbackByUndoRec_rollsTdBack : RollsTdBack heapRollbackByUndoRec := by
  intro xid record tdId page page' hrun htd hlt hvalid
  rw [← htd] at hlt hvalid
  exact undoHeap_tdRolledBack hlt hvalid hrun

end DataPage

open DataPage

/-! ## The cut of a heap page -/

/-- Transaction 5 has committed with csn 3 and its undo is gone; transaction 7 has this status, and
ends aborted when it is waited for. -/
def deleteEnv (status : TrxSlotStatus) : TxnEnv where
  slotStatus := fun xid => if xid = 5 then ⟨.committed, 3⟩ else
    if xid = 7 then ⟨status, invalidCsn⟩ else ⟨.inProgress, invalidCsn⟩
  isXidRecycled := fun xid => xid = 5
  undoRecord := fun _ => deleteRecord
  isZoneOwned := fun _ => true
  needWaitPendingTxn := fun _ => true
  waitForTransactionEnd := fun _ => some ⟨.aborted, invalidCsn⟩

/-- The page after transaction 7 has deleted the tuple of transaction 5. -/
def runningDeletePage : DataPage := singleTuplePage [endedTd, runningTd] ⟨1, 0xFF, 16, 7, 0x40⟩

/-- The reader, transaction 9. -/
def reader : Transaction := ⟨9, 0, false⟩

/-- The snapshot of the reader, with csn 10. -/
def readerSnapshot : Snapshot := ⟨.mvcc, 10, 0⟩

section Delete

variable {status : TrxSlotStatus} (hstatus : status = .inProgress ∨ status = .pendingCommit)

include hstatus

/-- The environment meets the assumptions on transactions. -/
lemma deleteEnv_snapshotEnv : SnapshotEnv (deleteEnv status) reader readerSnapshot := by
  refine ⟨fun xid hs => ?_, fun _ _ => by decide, fun _ => ⟨rfl, rfl⟩, fun _ xs _ hs => ?_⟩
  · by_cases hfive : xid = 5
    · rw [hfive]
      simp [TxnEnv.queryXidStatus, deleteEnv, invalidXid, invalidCsn]
    · simp only [TxnEnv.queryXidStatus, deleteEnv, if_neg hfive] at hs
      rcases hstatus with rfl | rfl <;> split_ifs at hs
  · exact Or.inr (Or.inr (Or.inr (Or.inr (Option.some.inj hs ▸ rfl))))

/-- The TDs of the page lead to their undo records. -/
lemma runningDeletePage_tdsReadable : runningDeletePage.TdsReadable (deleteEnv status) reader := by
  intro t ht
  have ht' : t < 2 := ht
  obtain rfl | rfl : t = 0 ∨ t = 1 := by omega
  · exact ⟨⟨.recycled _ rfl, fun _ => ⟨by decide, Or.inl ⟨rfl, rfl⟩⟩, by decide⟩,
      ⟨fun _ => Or.inr (Or.inr (Or.inr (Or.inl rfl))), fun h => absurd h (by decide)⟩⟩
  · have howner : deleteRecord.tdPreXid ≠ runningTd.xid := by decide
    exact ⟨⟨.record (by decide) rfl (fun _ => Or.inl rfl) (fun h => absurd h howner)
      (fun h => TdCsnStatus.noConfusion h) (.nil _), fun h => TdCsnStatus.noConfusion h, by decide⟩,
      ⟨fun _ => hstatus.imp id Or.inl, fun h => absurd h (by decide)⟩⟩

end Delete

end DStore
