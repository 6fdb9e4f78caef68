import DStore.Page.ConstructCR

/-!
# Which tuples a consistent-read page detaches

When the reader's TD is rolled back to an owner the snapshot does not see, the reader's own
tuples must lose their link to the TD. `UpdateTupleTdStatus` is asked for the TD after the
right one, and stops before the last offset.
-/

namespace DStore

open List TupleTdStatus

namespace DataPage

variable {page page' : DataPage} {offset tdId : ℕ} {src dest : TupleTdStatus}

/-- The tuple at `offset` is attached to the TD in the way `status` says. -/
def AttachedTo (page : DataPage) (tdId : ℕ) (status : TupleTdStatus) (offset : ℕ) : Prop :=
  page.ValidOffset offset ∧ (page.getItemId offset).isUnused = false ∧
    page.getTupleTdId offset = tdId ∧ page.getTupleTdStatus offset = status.code

lemma isUnused_eq_false_of_getTupleTdId (htd : tdId ≠ invalidTdSlot)
    (h : page.getTupleTdId offset = tdId) : (page.getItemId offset).isUnused = false := by
  by_contra hu
  rw [getTupleTdId, if_pos (by simpa using hu)] at h
  exact htd h.symm

/-- `page'` is `page` with the td status of the selected tuples set to `dest`. -/
structure StatusUpdated (page page' : DataPage) (selected : ℕ → Prop) (dest : TupleTdStatus) : Prop
    extends TdStatusEdit page page' where
  hit : ∀ offset, page.ValidOffset offset → (page.getItemId offset).isUnused = false →
    selected offset → page'.getTupleTdStatus offset = dest.code
  miss : ∀ offset, page.ValidOffset offset → (page.getItemId offset).isUnused = false →
    ¬ selected offset → page'.getTupleTdStatus offset = page.getTupleTdStatus offset

/-- The loop body sets the status of its tuple if that is attached to the TD. -/
lemma updateTdStatusAt_updated (h : page.Layout) (hv : page.ValidOffset offset)
    (htd : tdId ≠ invalidTdSlot) :
    page.StatusUpdated (page.updateTdStatusAt tdId src dest offset)
      (fun offset' => offset' = offset ∧ page.AttachedTo tdId src offset') dest := by
  rw [updateTdStatusAt]
  split_ifs with hcond
  · refine ⟨TdStatusEdit.refl h, ?_, fun _ _ _ _ => rfl⟩
    intro offset' _ _ hsel
    obtain ⟨rfl, -, -, htd', hst⟩ := hsel
    rcases hcond with hc | hc
    · exact absurd htd' hc
    · simp [testTupleTdStatus, hst] at hc
  · rw [not_or, not_not, Bool.not_eq_false, testTupleTdStatus, decide_eq_true_eq] at hcond
    have hu := isUnused_eq_false_of_getTupleTdId htd hcond.1
    have hw := setTupleTdStatus_written h hv dest hu
    refine ⟨hw.toTdStatusEdit, ?_, ?_⟩
    · intro offset' _ _ hsel
      rw [hsel.1]
      exact hw.self
    · intro offset' hv' hu' hnot
      apply hw.other offset' hv' _ hu'
      intro hoff
      exact hnot ⟨hoff, hoff ▸ ⟨hv, hu, hcond⟩⟩

/-- A tuple that was not selected is attached as before. -/
lemma StatusUpdated.attachedTo_iff {selected : ℕ → Prop}
    (h : page.StatusUpdated page' selected dest) (hnot : ¬ selected offset) :
    page'.AttachedTo tdId src offset ↔ page.AttachedTo tdId src offset := by
  have hvalid : page'.ValidOffset offset ↔ page.ValidOffset offset := by
    rw [ValidOffset, ValidOffset, h.getMaxOffset]
  unfold AttachedTo
  rw [hvalid]
  refine and_congr_right fun hv => ?_
  rw [h.isUnused offset hv]
  refine and_congr_right fun hu => ?_
  rw [h.tdId offset hv hu, h.miss offset hv hu hnot]

/-- `UpdateTupleTdStatus` over a list of offsets: the attached tuples among them get the new
status, every other tuple keeps its own. -/
lemma updateTdStatus_foldl (htd : tdId ≠ invalidTdSlot) (offsets : List ℕ)
    (hnodup : offsets.Nodup) {page : DataPage} (h : page.Layout)
    (hv : ∀ offset ∈ offsets, page.ValidOffset offset) :
    page.StatusUpdated (offsets.foldl (updateTdStatusAt tdId src dest) page)
      (fun offset => offset ∈ offsets ∧ page.AttachedTo tdId src offset) dest := by
  induction offsets generalizing page with
  | nil => exact ⟨TdStatusEdit.refl h, fun _ _ _ hsel => absurd hsel.1 not_mem_nil,
      fun _ _ _ _ => rfl⟩
  | cons first offsets ih =>
    obtain ⟨hnot, hnodup'⟩ := nodup_cons.mp hnodup
    have hstep : page.StatusUpdated (page.updateTdStatusAt tdId src dest first) _ dest :=
      updateTdStatusAt_updated h (hv first mem_cons_self) htd
    set page1 := page.updateTdStatusAt tdId src dest first with hpage1
    have hvalid : ∀ offset, page.ValidOffset offset → page1.ValidOffset offset := by
      intro offset hv'
      rwa [ValidOffset, hstep.getMaxOffset]
    have hrest := ih hnodup' hstep.layout
      fun offset hmem => hvalid offset (hv offset (mem_cons_of_mem _ hmem))
    refine ⟨hstep.toTdStatusEdit.trans hrest.toTdStatusEdit, ?_, ?_⟩
    · intro offset hv' hu' hsel
      have hu1 : (page1.getItemId offset).isUnused = false := by rw [hstep.isUnused offset hv', hu']
      by_cases hfirst : offset = first
      · -- visited first, and not again
        rw [foldl_cons, hrest.miss offset (hvalid offset hv') hu1
          fun hmem => hnot (hfirst ▸ hmem.1)]
        exact hstep.hit offset hv' hu' ⟨hfirst, hsel.2⟩
      · apply hrest.hit offset (hvalid offset hv') hu1
        refine ⟨(mem_cons.mp hsel.1).resolve_left hfirst, ?_⟩
        rw [hstep.attachedTo_iff fun hc => hfirst hc.1]
        exact hsel.2
    · intro offset hv' hu' hsel
      have hu1 : (page1.getItemId offset).isUnused = false := by rw [hstep.isUnused offset hv', hu']
      have hmiss : ¬ (offset = first ∧ page.AttachedTo tdId src offset) :=
        fun hc => hsel ⟨mem_cons.mpr (Or.inl hc.1), hc.2⟩
      rw [foldl_cons, hrest.miss offset (hvalid offset hv') hu1 _,
        hstep.miss offset hv' hu' hmiss]
      intro hc
      rw [hstep.attachedTo_iff hmiss] at hc
      exact hsel ⟨mem_cons_of_mem _ hc.1, hc.2⟩

/-- The loop ends before the last offset, so that tuple is never updated. -/
lemma updateTupleTdStatus_updated (h : page.Layout) (htd : tdId ≠ invalidTdSlot) :
    page.StatusUpdated (page.updateTupleTdStatus tdId src dest)
      (fun offset => offset < page.getMaxOffset ∧ page.AttachedTo tdId src offset) dest := by
  have hmem : ∀ offset, offset ∈ range' 1 (page.getMaxOffset - 1) ↔
      1 ≤ offset ∧ offset < page.getMaxOffset := by
    intro offset
    rw [mem_range'_1]
    omega
  have hrun : page.StatusUpdated (page.updateTupleTdStatus tdId src dest) _ dest :=
    updateTdStatus_foldl htd (range' 1 (page.getMaxOffset - 1)) nodup_range' h
      fun offset ho => ⟨((hmem offset).mp ho).1, ((hmem offset).mp ho).2.le⟩
  refine ⟨hrun.toTdStatusEdit, ?_, ?_⟩
  · intro offset hv hu hsel
    exact hrun.hit offset hv hu ⟨(hmem offset).mpr ⟨hv.1, hsel.1⟩, hsel.2⟩
  · intro offset hv hu hnot
    exact hrun.miss offset hv hu fun hc => hnot ⟨((hmem offset).mp hc.1).2, hc.2⟩

end DataPage

/-! ## The step of `ConstructCR` -/

/-- The rollback selects tuples by the TD id after its increment. -/
lemma crRollbackToPreTxn_updated {env : TxnEnv} {tdId fuel : ℕ} {page page' : DataPage}
    (hlayout : page.Layout) (htd : tdId < page.tdCount) (hmax : page.tdCount ≤ maxTdCount)
    (hstep : crRollbackToPreTxn env tdId fuel page = some page') :
    page.StatusUpdated page' (fun offset => offset < page.getMaxOffset ∧
      page.AttachedTo (tdId + 1) .attachTdAsNewOwner offset) .detachTd := by
  unfold crRollbackToPreTxn at hstep
  cases htd' : (page.getTd tdId).rollbackTdToPreTxn env fuel with
  | none => simp [htd'] at hstep
  | some td =>
    simp only [htd', Option.some.injEq] at hstep
    have hbase : (page.putTd tdId td).Layout :=
      hlayout.of_items rfl (by simp [DataPage.putTd, DataPage.lower]) rfl rfl rfl fun _ _ _ => rfl
    have hne : tdId + 1 ≠ invalidTdSlot := by
      unfold maxTdCount at hmax
      unfold invalidTdSlot
      omega
    have hupd : (page.putTd tdId td).StatusUpdated page' _ .detachTd :=
      hstep ▸ DataPage.updateTupleTdStatus_updated hbase hne
    -- the TD array plays no part in the tuples
    exact ⟨⟨hupd.layout, hupd.getMaxOffset, hupd.isUnused, hupd.tdId⟩, hupd.hit, hupd.miss⟩

/-- When `ConstructCR` takes TD `tdId` away from the reader, it detaches the reader's tuples
and nothing else exactly when there is nothing to detach and nothing to confuse: no tuple is
attached to the TD as its new owner, and none below the maximum offset to the next TD. -/
theorem cr_detaches_own_tuples_iff (env : TxnEnv) (tdId fuel : ℕ) (page page' : DataPage)
    (hlayout : page.Layout) (htd : tdId < page.tdCount) (hmax : page.tdCount ≤ maxTdCount)
    (hstep : crRollbackToPreTxn env tdId fuel page = some page') :
    ((∀ offset, page.AttachedTo tdId .attachTdAsNewOwner offset →
        page'.getTupleTdStatus offset = TupleTdStatus.detachTd.code) ∧
      ∀ offset, page.ValidOffset offset → (page.getItemId offset).isUnused = false →
        page.getTupleTdId offset ≠ tdId →
        page'.getTupleTdStatus offset = page.getTupleTdStatus offset) ↔
    (∀ offset, ¬ page.AttachedTo tdId .attachTdAsNewOwner offset) ∧
      ∀ offset, offset < page.getMaxOffset →
        ¬ page.AttachedTo (tdId + 1) .attachTdAsNewOwner offset := by
  have hupd := crRollbackToPreTxn_updated hlayout htd hmax hstep
  have hcode : attachTdAsNewOwner.code ≠ detachTd.code := by decide
  constructor
  · rintro ⟨hown, hframe⟩
    refine ⟨fun offset hatt => ?_, fun offset hlt hatt => ?_⟩
    · -- the reader's tuple is attached to `tdId`, so it was passed over
      obtain ⟨hv, hu, hid, hst⟩ := hatt
      have hkept := hupd.miss offset hv hu fun hsel => by
        have := hid.symm.trans hsel.2.2.2.1
        omega
      apply hcode
      rw [← hst, ← hkept, hown offset ⟨hv, hu, hid, hst⟩]
    · -- a tuple of the next TD was detached instead
      obtain ⟨hv, hu, hid, hst⟩ := hatt
      apply hcode
      rw [← hst, ← hframe offset hv hu (by omega)]
      exact hupd.hit offset hv hu ⟨hlt, hv, hu, hid, hst⟩
  · rintro ⟨hnone, hnext⟩
    refine ⟨fun offset hatt => absurd hatt (hnone offset), fun offset hv hu _ => ?_⟩
    exact hupd.miss offset hv hu fun hsel => hnext offset hsel.1 hsel.2

/-- A heap page with the TD of the reader 7, which has taken it over from transaction 5, and
a TD of transaction 6; the tuples at offsets 2 and 3 are the reader's, the one at offset 1
belongs to transaction 6 unless `detached`. -/
def reusedTdPage (detached : Bool) : DataPage where
  type := .heap
  selfPageId := ⟨1, 3⟩
  upper := 8096
  special := blckSz
  hasFreeItemId := false
  hasPrunableTuple := false
  hasPrunableItem := false
  tds := [⟨7, 20, ⟨⟨1, 9⟩, 80⟩, invalidXid, 1, .occupyTrxInProgress, .isPrevXidCsn⟩,
    ⟨6, 3, ⟨⟨1, 8⟩, 80⟩, invalidXid, 1, .occupyTrxEnd, .isCurXidCsn⟩]
  items := [.normal 8160 32, .normal 8128 32, .normal 8096 32]
  mem := fun a => if a = 8160 then 1 else if detached && a % 32 = 12 then 0x20 else 0
  potentialDelSize := 0
  recentDeadTupleMinCsn := invalidCsn

/-- Transaction 5 has committed at csn 20; the record of the reader's command leads back to
it. -/
def reusedTdEnv : TxnEnv where
  slotStatus := fun xid => if xid = 7 then ⟨.inProgress, invalidCsn⟩ else ⟨.committed, 20⟩
  isXidRecycled := fun _ => false
  undoRecord := fun _ => ⟨⟨⟨1, 3⟩, 2⟩, 1, 0, 5, ⟨⟨1, 7⟩, 80⟩, 20, .isCurXidCsn, .heapInsert⟩
  isZoneOwned := fun _ => true
  needWaitPendingTxn := fun _ => true
  waitForTransactionEnd := fun _ => none

/-- With every tuple detached beforehand the step is right. -/
theorem cr_detaches_of_detached :
    ∃ page', crRollbackToPreTxn reusedTdEnv 0 2 (reusedTdPage true) = some page' ∧
      ∀ offset, (reusedTdPage true).ValidOffset offset →
        ((reusedTdPage true).getItemId offset).isUnused = false →
        (reusedTdPage true).getTupleTdId offset ≠ 0 →
        page'.getTupleTdStatus offset = (reusedTdPage true).getTupleTdStatus offset := by
  have hnone : ∀ tdId offset, ¬ (reusedTdPage true).AttachedTo tdId .attachTdAsNewOwner offset := by
    rintro tdId offset ⟨⟨h₁, h₂⟩, -, -, hst⟩
    have h₃ : offset ≤ 3 := h₂
    obtain rfl | rfl | rfl : offset = 1 ∨ offset = 2 ∨ offset = 3 := by omega
    all_goals exact absurd hst (by decide)
  exact ⟨_, rfl, ((cr_detaches_own_tuples_iff reusedTdEnv 0 2 (reusedTdPage true) _ (by decide)
    (by decide) (by decide) rfl).mpr ⟨hnone 0, fun offset _ => hnone 1 offset⟩).2⟩

/-- A snapshot before csn 20 visits the reader's TD: the tuple of transaction 6 is detached
and the reader's own two tuples stay attached to the TD, which now is transaction 5's. -/
theorem cr_detaches_wrong_tuple :
    (crVisitTd (fun _ _ _ _ => none) ⟨7, 2, true⟩ ⟨.mvcc, 10, 2⟩ 0 2
      ⟨reusedTdEnv, reusedTdPage false, BinaryHeap.empty 0, commitSeqNoFirstNormal, false⟩).map
        (fun st => ((st.page.getTd 0).xid, [1, 2, 3].map st.page.getTupleTdId,
          [1, 2, 3].map st.page.getTupleTdStatus)) =
      some (5, [1, 0, 0], [TupleTdStatus.detachTd.code, TupleTdStatus.attachTdAsNewOwner.code,
        TupleTdStatus.attachTdAsNewOwner.code]) := by
  rfl

end DStore
