import DStore.Page.ConstructCR
import DStore.Page.UndoChain

/-!
# The snapshot cut of a consistent-read page

What is left in the TD array when `ConstructCR` succeeds: the reader's own TDs, with commands
the snapshot sees, and TDs of transactions that committed before the snapshot. The first pass
brings every TD to an ended owner and queues those that committed too late; the second pass
takes the latest commit of the queue back until it is early enough.
-/

namespace DStore

open BinaryHeap List Option TxnEnv Set TD

namespace DataPage

/-- `page'` is `page` with the TD `tdId` changed and free TDs dropped from the end. -/
structure OtherTdsKept (tdId : ℕ) (page page' : DataPage) : Prop where
  tdCount_le : page'.tdCount ≤ page.tdCount
  lt : tdId < page'.tdCount
  other : ∀ t, t ≠ tdId → t < page'.tdCount → page'.getTd t = page.getTd t
  dropped : ∀ t, page'.tdCount ≤ t → t < page.tdCount → (page.getTd t).xid = invalidXid

/-- What undoing a record does to the TD array: the TD of the record goes back. -/
structure TdRolledBack (record : UndoRecord) (page page' : DataPage) : Prop
    extends OtherTdsKept record.tdId page page' where
  self : page'.getTd record.tdId = (page.getTd record.tdId).rollbackTdInfo record

section Kept

variable {tdId : ℕ} {page page' page'' : DataPage}

lemma OtherTdsKept.refl (h : tdId < page.tdCount) : OtherTdsKept tdId page page :=
  ⟨le_rfl, h, fun _ _ _ => rfl, fun _ h1 h2 => absurd h2 (not_lt.mpr h1)⟩

/-- Two steps for one TD are one. -/
lemma OtherTdsKept.trans (h : OtherTdsKept tdId page page') (h' : OtherTdsKept tdId page' page'') :
    OtherTdsKept tdId page page'' := by
  refine ⟨h'.tdCount_le.trans h.tdCount_le, h'.lt, ?_, ?_⟩
  · intro t hne hlt
    rw [h'.other t hne hlt]
    exact h.other t hne (lt_of_lt_of_le hlt h'.tdCount_le)
  · intro t hle hlt
    by_cases ht : t < page'.tdCount
    · have hne : t ≠ tdId := fun heq => absurd h'.lt (not_lt.mpr (heq ▸ hle))
      rw [← h.other t hne ht]
      exact h'.dropped t hle ht
    · exact h.dropped t (not_lt.mp ht) hlt

lemma getTd_putTd_self (h : tdId < page.tdCount) (td : TD) :
    (page.putTd tdId td).getTd tdId = td := by
  have hlt : tdId < (page.tds.set tdId td).length := by
    rw [length_set]
    exact h
  show (page.tds.set tdId td).getD tdId reset = td
  rw [getD_eq_getElem _ _ hlt, getElem_set_self]

lemma getTd_putTd_of_ne {t : ℕ} (h : t ≠ tdId) (td : TD) :
    (page.putTd tdId td).getTd t = page.getTd t := by
  show (page.tds.set tdId td).getD t reset = page.tds.getD t reset
  rw [getD_eq_getElem?_getD, getD_eq_getElem?_getD, getElem?_set_ne (Ne.symm h)]

lemma putTd_tdCount (td : TD) : (page.putTd tdId td).tdCount = page.tdCount := length_set

/-- Setting a TD leaves the others. -/
lemma OtherTdsKept.putTd (h : tdId < page.tdCount) (td : TD) :
    OtherTdsKept tdId page (page.putTd tdId td) := by
  refine ⟨putTd_tdCount td |>.le, by rw [putTd_tdCount]; exact h, ?_, ?_⟩
  · intro t hne _
    exact getTd_putTd_of_ne hne td
  · intro t hle hlt
    rw [putTd_tdCount] at hle
    exact absurd hlt (not_lt.mpr hle)

lemma OtherTdsKept.of_tds_eq (h : OtherTdsKept tdId page page') (htds : page''.tds = page'.tds) :
    OtherTdsKept tdId page page'' := by
  have hcount : page''.tdCount = page'.tdCount := congrArg length htds
  have hget : ∀ t, page''.getTd t = page'.getTd t := by
    intro t
    rw [getTd, getTd, htds]
  refine ⟨?_, ?_, ?_, ?_⟩
  · rw [hcount]
    exact h.tdCount_le
  · rw [hcount]
    exact h.lt
  · intro t hne hlt
    rw [hcount] at hlt
    rw [hget]
    exact h.other t hne hlt
  · rw [hcount]
    exact h.dropped

end Kept

end DataPage

open DataPage

/-! ## Rolling one transaction back -/

section Rollback

variable {rollbackByUndoRec : Xid → UndoRecord → ℕ → DataPage → Option DataPage}
  {txn : Transaction} {snapshot : Snapshot} {env : TxnEnv} {tdId : ℕ} {xid : Xid}
  {page page' : DataPage}

/-- What `RollbackByUndoRec` does to the TD array, on a TD in use. -/
def RollsTdBack (rollbackByUndoRec : Xid → UndoRecord → ℕ → DataPage → Option DataPage) : Prop :=
  ∀ xid record tdId page page', rollbackByUndoRec xid record tdId page = some page' →
    record.tdId = tdId → tdId < page.tdCount → (page.getTd tdId).xid ≠ invalidXid →
    TdRolledBack record page page'

variable (hroll : RollsTdBack rollbackByUndoRec)

include hroll

/-- The loop stops at an ended owner, or for the reader itself at a visible command. -/
lemma rollbackTdOneXidLoop_spec {isCurrentXid : Bool} (fuel : ℕ)
    (hlt : tdId < page.tdCount) (hread : (page.getTd tdId).Readable env tdId)
    (hxid : (page.getTd tdId).xid = xid) (hvalid : xid ≠ invalidXid)
    (hkept : env.isXidRecycled xid = false)
    (hrun : rollbackTdOneXidLoop rollbackByUndoRec txn snapshot env isCurrentXid tdId xid fuel
      page =
      some page') :
    OtherTdsKept tdId page page' ∧ (page'.getTd tdId).Readable env tdId ∧
      ((page'.getTd tdId).xid ≠ xid → (page'.getTd tdId).OwnerEnded env) ∧
      ((page'.getTd tdId).xid = xid → isCurrentXid ∧ cidVisibleToSnapshot txn snapshot
        (env.undoRecord (page'.getTd tdId).undoRecPtr).cid) := by
  induction fuel generalizing page with
  | zero => simp [rollbackTdOneXidLoop] at hrun
  | succ fuel ih =>
    rw [rollbackTdOneXidLoop] at hrun
    split at hrun
    next hvisible =>
      rw [Bool.and_eq_true] at hvisible
      rw [← some.inj hrun]
      exact ⟨.refl hlt, hread, fun hne => absurd hxid hne, fun _ => hvisible⟩
    next =>
      obtain ⟨htd, hread1, hended⟩ := hread.rollbackTdInfo (hxid ▸ hvalid) (hxid ▸ hkept)
      cases hstep : rollbackByUndoRec xid (env.undoRecord (page.getTd tdId).undoRecPtr)
        tdId page with
      | none =>
        rw [hstep] at hrun
        simp at hrun
      | some page1 =>
        rw [hstep] at hrun
        dsimp only at hrun
        have hrolled := hroll _ _ _ _ _ hstep htd hlt (hxid ▸ hvalid)
        have hself := hrolled.self
        have hothers := hrolled.toOtherTdsKept
        rw [htd] at hself hothers
        rw [← hself] at hread1 hended
        split at hrun
        next hne =>
          rw [← some.inj hrun]
          exact ⟨hothers, hread1, fun _ => hended (hxid ▸ hne), fun heq => absurd heq hne⟩
        next heq =>
          have heq' : (page1.getTd tdId).xid = xid := not_not.mp heq
          obtain ⟨h1, h2, h3, h4⟩ := ih hothers.lt hread1 heq' hrun
          exact ⟨hothers.trans h1, h2, h3, h4⟩

/-- `RollbackTdOneXidForCRAsNeed` on a TD in use. -/
lemma rollbackTdOneXid_spec {isCurrentXid : Bool} {fuel : ℕ} (hlt : tdId < page.tdCount)
    (hread : (page.getTd tdId).Readable env tdId) (hvalid : (page.getTd tdId).xid ≠ invalidXid)
    (hrun : rollbackTdOneXidForCRAsNeed rollbackByUndoRec txn snapshot env isCurrentXid tdId fuel
      page = some page') :
    OtherTdsKept tdId page page' ∧ (page'.getTd tdId).Readable env tdId ∧
      ((page'.getTd tdId).xid ≠ (page.getTd tdId).xid → (page'.getTd tdId).OwnerEnded env) ∧
      ((page'.getTd tdId).xid = (page.getTd tdId).xid → isCurrentXid ∧
        env.isXidRecycled (page'.getTd tdId).xid = false ∧ cidVisibleToSnapshot txn snapshot
          (env.undoRecord (page'.getTd tdId).undoRecPtr).cid) := by
  unfold rollbackTdOneXidForCRAsNeed at hrun
  cases hrec : env.isXidRecycled (page.getTd tdId).xid with
  | true =>
    rw [if_pos hrec] at hrun
    rw [← some.inj hrun, getTd_putTd_self hlt]
    exact ⟨.putTd hlt _, reset_readable env tdId, fun _ => Or.inl rfl,
      fun heq => absurd heq.symm hvalid⟩
  | false =>
    rw [if_neg (by rw [hrec]; decide)] at hrun
    obtain ⟨h1, h2, h3, h4⟩ := rollbackTdOneXidLoop_spec hroll fuel hlt hread rfl hvalid hrec hrun
    refine ⟨h1, h2, h3, fun heq => ?_⟩
    obtain ⟨hcur, hvisible⟩ := h4 heq
    rw [heq]
    exact ⟨hcur, hrec, hvisible⟩

end Rollback

/-! ## What the passes maintain -/

/-- What a reader may assume of the transaction manager: committed transactions have a csn,
frozen ones ended before the snapshot, the reader itself is running and its undo is kept, and
whoever is waited for in pending commit is still there afterwards or has ended in one of these
ways. -/
structure SnapshotEnv (env : TxnEnv) (txn : Transaction) (snapshot : Snapshot) : Prop where
  committed : ∀ xid, (env.queryXidStatus xid).status = .committed →
    (env.queryXidStatus xid).csn ≠ invalidCsn
  frozen : ∀ xid, (env.queryXidStatus xid).status = .frozen →
    commitSeqNoFirstNormal < snapshot.snapshotCsn
  reader : txn.currentXid ≠ invalidXid →
    (env.queryXidStatus txn.currentXid).status = .inProgress ∧
      env.isXidRecycled txn.currentXid = false
  wait : ∀ xid xs, (env.queryXidStatus xid).status = .pendingCommit →
    env.waitForTransactionEnd xid = some xs → xs.status = .inProgress ∨ xs.status = .pendingCommit ∨
      (xs.status = .committed ∧ xs.csn ≠ invalidCsn) ∨
      (xs.status = .frozen ∧ commitSeqNoFirstNormal < snapshot.snapshotCsn) ∨ xs.status = .aborted

/-- The owner of the TD is not one that is waited for in pending commit and then ends aborted. -/
def TD.WaitEndsWell (env : TxnEnv) (td : TD) : Prop :=
  ∀ xs, (env.queryXidStatus td.xid).status = .pendingCommit → env.needWaitPendingTxn td.xid = true →
    env.waitForTransactionEnd td.xid = some xs → xs.status ≠ .aborted

/-- The status of the owner of a TD is one a slot can have, and the reader's own TD carries the
command of its last record, or a later one. -/
structure TD.OwnerKnown (env : TxnEnv) (txn : Transaction) (td : TD) : Prop where
  known : td.xid ≠ invalidXid → (env.queryXidStatus td.xid).status = .inProgress ∨
    (env.queryXidStatus td.xid).status = .pendingCommit ∨
    (env.queryXidStatus td.xid).status = .aborted ∨ env.Ended td.xid
  command : td.xid = txn.currentXid → (env.undoRecord td.undoRecPtr).cid ≤ td.commandId

/-- A TD before its visit. -/
structure TD.Unvisited (env : TxnEnv) (txn : Transaction) (td : TD) : Prop
    extends td.OwnerKnown env txn where
  wait : td.WaitEndsWell env

/-- The TD is the reader's, and the snapshot sees every command on it. -/
def TD.OwnVisible (env : TxnEnv) (txn : Transaction) (snapshot : Snapshot) (td : TD) : Prop :=
  td.xid = txn.currentXid ∧ ∀ cid, CommandOn env td.xid td.undoRecPtr cid →
    cidVisibleToSnapshot txn snapshot cid = true

section Invariant

variable (txn : Transaction) (snapshot : Snapshot)

/-- The TD needs no more rollback, and its commit is counted in `pageMaxCsn`. -/
def CrState.Settled (st : CrState) (td : TD) : Prop :=
  td.xid = invalidXid ∨ td.OwnVisible st.env txn snapshot ∨
    (st.env.Ended td.xid ∧ td.commitCsn st.env < snapshot.snapshotCsn ∧
      td.commitCsn st.env ≤ st.pageMaxCsn)

/-- A TD in the queue: its owner has ended, and the TD caches the csn. -/
def TD.Queued (env : TxnEnv) (td : TD) : Prop := env.Ended td.xid ∧ td.csnStatus = .isCurXidCsn

/-- The state of one TD: to visit, queued, or settled. -/
structure CrState.TdInv (st : CrState) (visited : Prop) (tdId : ℕ) : Prop where
  readable : (st.page.getTd tdId).Readable st.env tdId
  queued : st.tdHeap.Mem tdId → visited ∧ (st.page.getTd tdId).Queued st.env
  settled : visited → ¬ st.tdHeap.Mem tdId → st.Settled txn snapshot (st.page.getTd tdId)
  unvisited : ¬ visited → (st.page.getTd tdId).Unvisited st.env txn

/-- What holds apart from the TDs in `skip`. -/
structure CrState.InvExcept (st : CrState) (visited skip : ℕ → Prop) : Prop where
  env : SnapshotEnv st.env txn snapshot
  td : ∀ t, t < st.page.tdCount → ¬ skip t → st.TdInv txn snapshot (visited t) t
  heap_lt : ∀ t, st.tdHeap.Mem t → t < st.page.tdCount
  heap_skip : ∀ t, st.tdHeap.Mem t → ¬ skip t
  inj : InjOn st.tdHeap.nodes (Iio st.tdHeap.size)
  max_ge : commitSeqNoFirstNormal ≤ st.pageMaxCsn
  max : st.pageMaxCsn = commitSeqNoFirstNormal ∨ ∃ t, t < st.page.tdCount ∧ ¬ skip t ∧
    visited t ∧ ¬ st.tdHeap.Mem t ∧ st.env.Ended (st.page.getTd t).xid ∧
    (st.page.getTd t).commitCsn st.env = st.pageMaxCsn

/-- What holds with no TD left out. -/
abbrev CrState.Inv (st : CrState) (visited : ℕ → Prop) : Prop :=
  st.InvExcept txn snapshot visited fun _ => False

end Invariant

section Steps

variable {txn : Transaction} {snapshot : Snapshot} {st : CrState} {visited : ℕ → Prop} {tdId : ℕ}

variable {st' : CrState} {heap : BinaryHeap ℕ} {td : TD} {page : DataPage}

/-- The invariant of a TD depends on its content, its place in the heap and the maximum so far. -/
lemma CrState.TdInv.congr {v : Prop} (h : st.TdInv txn snapshot v tdId) (henv : st'.env = st.env)
    (htd : st'.page.getTd tdId = st.page.getTd tdId)
    (hheap : st'.tdHeap.Mem tdId ↔ st.tdHeap.Mem tdId) (hmax : st.pageMaxCsn ≤ st'.pageMaxCsn) :
    st'.TdInv txn snapshot v tdId := by
  refine ⟨?_, ?_, ?_, ?_⟩
  · rw [henv, htd]
    exact h.readable
  · rw [henv, htd, hheap]
    exact h.queued
  · intro hv hnot
    rw [hheap] at hnot
    have hs := h.settled hv hnot
    rw [CrState.Settled, henv, htd]
    refine hs.imp_right (Or.imp_right fun hc => ⟨hc.1, hc.2.1, hc.2.2.trans hmax⟩)
  · rw [henv, htd]
    exact h.unvisited

/-- Changing the page at one TD, out of the queue. -/
lemma CrState.InvExcept.withPage (h : st.InvExcept txn snapshot visited (· = tdId))
    (hkept : OtherTdsKept tdId st.page page) :
    (st.withPage page).InvExcept txn snapshot visited (· = tdId) := by
  have hvalid : ∀ t, t < st.page.tdCount → (st.page.getTd t).xid ≠ invalidXid →
      t < page.tdCount := by
    intro t hlt hx
    by_contra hge
    exact hx (hkept.dropped t (not_lt.mp hge) hlt)
  refine ⟨h.env, ?_, ?_, h.heap_skip, h.inj, h.max_ge, ?_⟩
  · intro t hlt hne
    have hlt' : t < st.page.tdCount := lt_of_lt_of_le hlt hkept.tdCount_le
    exact (h.td t hlt' hne).congr rfl (hkept.other t hne hlt) Iff.rfl le_rfl
  · intro t hmem
    have hlt := h.heap_lt t hmem
    have hq := ((h.td t hlt (h.heap_skip t hmem)).queued hmem).2
    exact hvalid t hlt hq.1.ne_invalidXid
  · refine h.max.imp_right fun ⟨t, hlt, hne, hv, hnot, hended, hcsn⟩ => ?_
    have hlt' := hvalid t hlt hended.ne_invalidXid
    have hsame := hkept.other t hne hlt'
    refine ⟨t, hlt', hne, hv, hnot, ?_, ?_⟩
    · show st.env.Ended (page.getTd t).xid
      rw [hsame]
      exact hended
    · show (page.getTd t).commitCsn st.env = _
      rw [hsame]
      exact hcsn

variable {visited' : ℕ → Prop}

/-- Putting the TD that was left out into one of the three states. -/
lemma CrState.InvExcept.rejoin (h : st.InvExcept txn snapshot visited (· = tdId))
    (hvisited : ∀ t, t ≠ tdId → (visited' t ↔ visited t)) (henv : st'.env = st.env)
    (hpage : st'.page = st.page) (hheap : ∀ t, t ≠ tdId → (st'.tdHeap.Mem t ↔ st.tdHeap.Mem t))
    (hlt : tdId < st.page.tdCount) (hinj : InjOn st'.tdHeap.nodes (Iio st'.tdHeap.size))
    (hge : st.pageMaxCsn ≤ st'.pageMaxCsn)
    (hmax : st'.pageMaxCsn = st.pageMaxCsn ∨ (visited' tdId ∧ ¬ st'.tdHeap.Mem tdId ∧
      st'.env.Ended (st'.page.getTd tdId).xid ∧
      (st'.page.getTd tdId).commitCsn st'.env = st'.pageMaxCsn))
    (htd : st'.TdInv txn snapshot (visited' tdId) tdId) :
    st'.Inv txn snapshot visited' := by
  refine ⟨henv ▸ h.env, ?_, ?_, fun _ _ hf => hf, hinj, h.max_ge.trans hge, ?_⟩
  · intro t ht _
    rw [hpage] at ht
    by_cases heq : t = tdId
    · rw [heq]
      exact htd
    · rw [hvisited t heq]
      exact (h.td t ht heq).congr henv (by rw [hpage]) (hheap t heq) hge
  · intro t hmem
    rw [hpage]
    by_cases heq : t = tdId
    · rw [heq]
      exact hlt
    · exact h.heap_lt t ((hheap t heq).mp hmem)
  · rcases hmax with hsame | hnew
    · rw [hsame]
      refine h.max.imp_right fun ⟨t, ht, hne, hv, hnot, hended, hcsn⟩ => ?_
      rw [henv, hpage]
      exact ⟨t, ht, id, (hvisited t hne).mpr hv, fun hmem => hnot ((hheap t hne).mp hmem), hended,
        hcsn⟩
    · exact Or.inr ⟨tdId, by rw [hpage]; exact hlt, id, hnew⟩

section EndOfVisit

-- the TD `tdId` is being visited: it is readable, and the visit of no other TD changes
variable (h : st.InvExcept txn snapshot visited (· = tdId))
  (hvisited : ∀ t, t ≠ tdId → (visited' t ↔ visited t)) (hself : visited' tdId)
  (hlt : tdId < st.page.tdCount) (hread : (st.page.getTd tdId).Readable st.env tdId)
include h hvisited hself hlt hread

/-- A TD that needs no more work joins the invariant. -/
lemma CrState.InvExcept.settle (hsettled : st.Settled txn snapshot (st.page.getTd tdId)) :
    st.Inv txn snapshot visited' := by
  have hnot : ¬ st.tdHeap.Mem tdId := fun hmem => h.heap_skip tdId hmem rfl
  apply h.rejoin hvisited rfl rfl (fun _ _ => Iff.rfl) hlt h.inj le_rfl (Or.inl rfl)
  exact ⟨hread, fun hmem => absurd hmem hnot, fun _ _ => hsettled, fun hv => absurd hself hv⟩

/-- A TD that is put on the heap joins the invariant. -/
lemma CrState.InvExcept.enqueue (hqueued : (st.page.getTd tdId).Queued st.env)
    (hmem : ∀ t, heap.Mem t ↔ st.tdHeap.Mem t ∨ t = tdId)
    (hinj : InjOn heap.nodes (Iio heap.size)) :
    ({ st with tdHeap := heap } : CrState).Inv txn snapshot visited' := by
  refine h.rejoin hvisited rfl rfl ?_ hlt hinj le_rfl (Or.inl rfl) ?_
  · intro t hne
    exact (hmem t).trans (or_iff_left hne)
  · exact ⟨hread, fun _ => ⟨hself, hqueued⟩,
      fun _ hnot => absurd ((hmem tdId).mpr (Or.inr rfl)) hnot, fun hv => absurd hself hv⟩

/-- The commit of the TD is visible and is counted. -/
lemma CrState.InvExcept.count {csn : ℕ} (hended : st.env.Ended (st.page.getTd tdId).xid)
    (hcsn : (st.page.getTd tdId).commitCsn st.env = csn) (hvisible : csn < snapshot.snapshotCsn) :
    ({ st with pageMaxCsn := if st.pageMaxCsn < csn then csn else st.pageMaxCsn } :
      CrState).Inv txn snapshot visited' := by
  have hnot : ¬ st.tdHeap.Mem tdId := fun hmem => h.heap_skip tdId hmem rfl
  rw [← max_def_lt]
  refine h.rejoin hvisited rfl rfl (fun _ _ => Iff.rfl) hlt h.inj (le_max_left _ _) ?_ ?_
  · rcases max_choice st.pageMaxCsn csn with hmax | hmax
    · exact Or.inl hmax
    · exact Or.inr ⟨hself, hnot, hended, hcsn.trans hmax.symm⟩
  · refine ⟨hread, fun hmem => absurd hmem hnot, fun _ _ => Or.inr (Or.inr ⟨hended, ?_, ?_⟩),
      fun hv => absurd hself hv⟩
    · rw [hcsn]
      exact hvisible
    · exact hcsn.le.trans (le_max_right _ _)

/-- The end of a visit, on a TD whose owner is gone or has ended. -/
lemma CrState.InvExcept.crFillCsn (hmvcc : snapshot.snapshotType = .mvcc)
    (howner : (st.page.getTd tdId).OwnerEnded st.env) :
    (crFillCsn snapshot tdId st).Inv txn snapshot visited' := by
  unfold DStore.crFillCsn
  dsimp only
  split
  next hinvalid => exact h.settle hvisited hself hlt hread (Or.inl hinvalid)
  next hvalid =>
    have hended := howner.resolve_left hvalid
    obtain ⟨hread', hxid, hcur, hcsn⟩ := hread.fillCsn hended h.env.committed
    rw [if_neg (by rw [hmvcc]; decide)]
    have hget : (st.withPage (st.page.putTd tdId
        ((st.page.getTd tdId).fillCsn st.env))).page.getTd tdId =
        (st.page.getTd tdId).fillCsn st.env := getTd_putTd_self hlt _
    have h' := h.withPage (OtherTdsKept.putTd hlt ((st.page.getTd tdId).fillCsn st.env))
    have hlt' : tdId < (st.withPage (st.page.putTd tdId
        ((st.page.getTd tdId).fillCsn st.env))).page.tdCount :=
      lt_of_lt_of_eq hlt (putTd_tdCount _).symm
    have hended' : st.env.Ended ((st.page.getTd tdId).fillCsn st.env).xid := by
      rw [hxid]
      exact hended
    split
    · apply h'.enqueue hvisited hself hlt' (by rw [hget]; exact hread')
        (by rw [hget]; exact ⟨hended', hcur⟩) (fun _ => addUnordered_mem)
      exact addUnordered_injOn h'.inj fun hmem => h'.heap_skip tdId hmem rfl
    next hvisible =>
      rw [Snapshot.getCsn, if_pos hmvcc] at hvisible
      apply h'.count hvisited hself hlt' (by rw [hget]; exact hread')
        (by rw [hget]; exact hended') _
        (not_le.mp hvisible)
      rw [hget, commitCsn, if_pos hcur]

end EndOfVisit

/-- A TD that is taken from the heap leaves the invariant. -/
lemma CrState.Inv.leaveOut (h : st.Inv txn snapshot visited)
    (htd : ¬ visited tdId ∨ st.tdHeap.Mem tdId)
    (hmem : ∀ t, heap.Mem t ↔ st.tdHeap.Mem t ∧ t ≠ tdId)
    (hinj : InjOn heap.nodes (Iio heap.size)) :
    ({ st with tdHeap := heap } : CrState).InvExcept txn snapshot visited (· = tdId) := by
  refine ⟨h.env, ?_, ?_, ?_, hinj, h.max_ge, ?_⟩
  · intro t hlt hne
    exact (h.td t hlt id).congr rfl rfl ((hmem t).trans (and_iff_left hne)) le_rfl
  · exact fun t ht => h.heap_lt t ((hmem t).mp ht).1
  · exact fun t ht => ((hmem t).mp ht).2
  · refine h.max.imp_right fun ⟨t, hlt, _, hv, hnot, hrest⟩ => ?_
    refine ⟨t, hlt, ?_, hv, fun ht => hnot ((hmem t).mp ht).1, hrest⟩
    intro heq
    rcases htd with hunvisited | hqueued
    · exact hunvisited (heq ▸ hv)
    · exact hnot (heq ▸ hqueued)

section

variable {skip : ℕ → Prop} (h : st.InvExcept txn snapshot visited skip)
include h

lemma CrState.InvExcept.setLocal :
    ({ st with useLocalCr := true } : CrState).InvExcept txn snapshot visited skip :=
  ⟨h.env, fun t hlt hs => (h.td t hlt hs).congr rfl rfl Iff.rfl le_rfl, h.heap_lt, h.heap_skip,
    h.inj, h.max_ge, h.max⟩

/-- The order of the nodes does not matter for the invariant. -/
lemma CrState.InvExcept.withHeap (hmem : ∀ t, heap.Mem t ↔ st.tdHeap.Mem t)
    (hinj : InjOn heap.nodes (Iio heap.size)) :
    ({ st with tdHeap := heap } : CrState).InvExcept txn snapshot visited skip := by
  refine ⟨h.env, ?_, ?_, ?_, hinj, h.max_ge, ?_⟩
  · exact fun t hlt hs => (h.td t hlt hs).congr rfl rfl (hmem t) le_rfl
  · exact fun t ht => h.heap_lt t ((hmem t).mp ht)
  · exact fun t ht => h.heap_skip t ((hmem t).mp ht)
  · exact h.max.imp_right fun ⟨t, hlt, hs, hv, hnot, hrest⟩ =>
      ⟨t, hlt, hs, hv, fun ht => hnot ((hmem t).mp ht), hrest⟩

lemma CrState.InvExcept.of_visited {visited' : ℕ → Prop}
    (hvisited : ∀ t, t < st.page.tdCount → (visited t ↔ visited' t)) :
    st.InvExcept txn snapshot visited' skip := by
  refine ⟨h.env, ?_, h.heap_lt, h.heap_skip, h.inj, h.max_ge, ?_⟩
  · intro t hlt hs
    rw [← hvisited t hlt]
    exact h.td t hlt hs
  · exact h.max.imp_right fun ⟨t, hlt, hs, hv, hrest⟩ => ⟨t, hlt, hs, (hvisited t hlt).mp hv, hrest⟩

end

end Steps

/-! ## Waiting for a pending commit -/

section Waiting

variable {txn : Transaction} {snapshot : Snapshot} {st : CrState} {visited : ℕ → Prop} {tdId : ℕ}
  {env : TxnEnv} {td : TD} {xid : Xid} {xs : XidState}
  (henv : SnapshotEnv env txn snapshot)
  (hpending : (env.queryXidStatus xid).status = .pendingCommit)
  (hwait : env.waitForTransactionEnd xid = some xs)

include henv hpending hwait

/-- How the owner stands after the wait. -/
lemma SnapshotEnv.waited : (xs.status = .inProgress ∨ xs.status = .pendingCommit) ∨
    (env.afterWait xid xs).Ended xid ∨ xs.status = .aborted := by
  have hself : (env.afterWait xid xs).queryXidStatus xid = xs :=
    queryXidStatus_afterWait_self (ne_invalidXid_of_status hpending (by decide))
  rw [Ended, hself]
  rcases henv.wait xid xs hpending hwait with h | h | h | h | h
  · exact Or.inl (Or.inl h)
  · exact Or.inl (Or.inr h)
  · exact Or.inr (Or.inl (Or.inl h.1))
  · exact Or.inr (Or.inl (Or.inr h.1))
  · exact Or.inr (Or.inr h)

/-- The assumptions on transactions hold after a wait. -/
lemma SnapshotEnv.afterWait : SnapshotEnv (env.afterWait xid xs) txn snapshot := by
  have hself : (env.afterWait xid xs).queryXidStatus xid = xs :=
    queryXidStatus_afterWait_self (ne_invalidXid_of_status hpending (by decide))
  have hother : ∀ x, x ≠ xid → (env.afterWait xid xs).queryXidStatus x = env.queryXidStatus x :=
    fun x hne => queryXidStatus_afterWait_of_ne hne
  have hfound := henv.wait xid xs hpending hwait
  refine ⟨?_, ?_, ?_, ?_⟩
  · intro x hcommitted
    by_cases heq : x = xid
    · rw [heq, hself] at hcommitted ⊢
      simp only [hcommitted] at hfound
      simpa using hfound
    · rw [hother x heq] at hcommitted ⊢
      exact henv.committed x hcommitted
  · intro x hfrozen
    by_cases heq : x = xid
    · rw [heq, hself] at hfrozen
      simp only [hfrozen] at hfound
      simpa using hfound
    · rw [hother x heq] at hfrozen
      exact henv.frozen x hfrozen
  · intro hvalid
    have hreader := henv.reader hvalid
    rw [hother _ fun heq => absurd (heq ▸ hreader.1) (by rw [hpending]; decide)]
    exact hreader
  · intro x ys hpend hwait'
    by_cases heq : x = xid
    · rw [heq] at hwait'
      exact henv.wait xid ys hpending hwait'
    · rw [hother x heq] at hpend
      exact henv.wait x ys hpend hwait'

/-- What is known of a TD that was not visited yet is still known. -/
lemma TD.Unvisited.afterWait (h : td.Unvisited env txn) :
    td.Unvisited (env.afterWait xid xs) txn := by
  refine ⟨⟨fun hvalid => ?_, h.command⟩, fun ys hpend hneed hwait' => ?_⟩
  · by_cases heq : td.xid = xid
    · rw [heq, queryXidStatus_afterWait_self (ne_invalidXid_of_status hpending (by decide))]
      rcases henv.waited hpending hwait with (h | h) | h | h
      · exact Or.inl h
      · exact Or.inr (Or.inl h)
      · exact Or.inr (Or.inr (Or.inr h))
      · exact Or.inr (Or.inr (Or.inl h))
    · rw [Ended, queryXidStatus_afterWait_of_ne heq]
      exact h.known hvalid
  · by_cases heq : td.xid = xid
    · exact h.wait ys (heq ▸ hpending) hneed hwait'
    · rw [queryXidStatus_afterWait_of_ne heq] at hpend
      exact h.wait ys hpend hneed hwait'

omit henv hpending hwait

/-- Once the owner of a pending commit is known, what was known of the TDs still holds. -/
lemma CrState.InvExcept.afterWait {skip : ℕ → Prop} (h : st.InvExcept txn snapshot visited skip)
    (hpending : (st.env.queryXidStatus xid).status = .pendingCommit)
    (hwait : st.env.waitForTransactionEnd xid = some xs) :
    ({ st with env := st.env.afterWait xid xs } : CrState).InvExcept txn snapshot visited skip := by
  refine ⟨h.env.afterWait hpending hwait, ?_, h.heap_lt, h.heap_skip, h.inj, h.max_ge, ?_⟩
  · intro t hlt hs
    obtain ⟨hread, hqueued, hsettled, hunvisited⟩ := h.td t hlt hs
    refine ⟨hread.afterWait hpending, ?_, ?_, ?_⟩
    · exact fun hmem => ⟨(hqueued hmem).1, (hqueued hmem).2.1.afterWait hpending,
        (hqueued hmem).2.2⟩
    · intro hv hnot
      refine (hsettled hv hnot).imp_right (Or.imp (fun hown => ⟨hown.1, ?_⟩) fun hend => ?_)
      · exact fun cid hcid => hown.2 cid (CommandOn.afterWait.mp hcid)
      · refine ⟨hend.1.afterWait hpending, ?_⟩
        show _ < _ ∧ _ ≤ _
        rw [commitCsn_afterWait hpending hend.1]
        exact hend.2
    · exact fun hv => (hunvisited hv).afterWait h.env hpending hwait
  · refine h.max.imp_right fun ⟨t, hlt, hs, hv, hnot, hended, hcsn⟩ => ?_
    refine ⟨t, hlt, hs, hv, hnot, hended.afterWait hpending, ?_⟩
    exact (commitCsn_afterWait hpending hended).trans hcsn

end Waiting

/-! ## The first pass -/

lemma DataPage.updateTupleTdStatus_tds (page : DataPage) (tdId : ℕ) (src dest : TupleTdStatus) :
    (page.updateTupleTdStatus tdId src dest).tds = page.tds := by
  have hstep : ∀ (page : DataPage) offset,
      (page.updateTdStatusAt tdId src dest offset).tds = page.tds := by
    intro page offset
    unfold updateTdStatusAt setTupleTdStatus
    dsimp only
    split
    · rfl
    · split <;> rfl
  exact foldlRecOn (motive := fun page' : DataPage => page'.tds = page.tds) _ _ rfl
    fun page' h offset _ => (hstep page' offset).trans h

/-- Earlier commands are visible if a later one is. -/
lemma cidVisibleToSnapshot_mono {txn : Transaction} {snapshot : Snapshot} {cid cid' : ℕ}
    (hle : cid ≤ cid') (h : cidVisibleToSnapshot txn snapshot cid') :
    cidVisibleToSnapshot txn snapshot cid := by
  simp only [cidVisibleToSnapshot, Bool.or_eq_true, decide_eq_true_eq] at h ⊢
  exact h.imp_right fun hlt => lt_of_le_of_lt hle hlt

variable {env : TxnEnv}

/-- If the last own command is visible, so are all own changes of the TD. -/
lemma TD.Readable.ownVisible {txn : Transaction} {snapshot : Snapshot} {tdId : ℕ}
    {td : TD} (hread : td.Readable env tdId)
    (hown : td.xid = txn.currentXid) (hvalid : td.xid ≠ invalidXid)
    (hkept : env.isXidRecycled td.xid = false)
    (hcid : cidVisibleToSnapshot txn snapshot (env.undoRecord td.undoRecPtr).cid) :
    td.OwnVisible env txn snapshot :=
  ⟨hown, fun _ hon => cidVisibleToSnapshot_mono (hread.chain.cid_le hvalid hkept hon) hcid⟩

/-- Rolling back to the previous transaction leaves the other TDs and ends at an ended owner. -/
lemma crRollbackToPreTxn_spec {tdId fuel : ℕ} {page page' : DataPage}
    (hlt : tdId < page.tdCount) (hread : (page.getTd tdId).Readable env tdId)
    (hvalid : (page.getTd tdId).xid ≠ invalidXid)
    (hrun : crRollbackToPreTxn env tdId fuel page = some page') :
    OtherTdsKept tdId page page' ∧ (page'.getTd tdId).Readable env tdId ∧
      (page'.getTd tdId).OwnerEnded env := by
  unfold crRollbackToPreTxn at hrun
  split at hrun
  · simp at hrun
  next td htd =>
    obtain ⟨hread', howner⟩ := hread.rollbackLoop fuel hvalid (fun hne => absurd rfl hne) htd
    have htds : page'.tds = (page.putTd tdId td).tds := by
      rw [← some.inj hrun, updateTupleTdStatus_tds]
    have hget : page'.getTd tdId = td := by
      rw [getTd, htds]
      exact getTd_putTd_self hlt td
    rw [hget]
    exact ⟨(OtherTdsKept.putTd hlt td).of_tds_eq htds, hread', howner⟩

/-- An owner that is neither running nor pending nor aborted has ended. -/
lemma TD.Unvisited.ownerEnded {txn : Transaction} {tdId : ℕ} {td : TD}
    (h : td.Unvisited env txn) (hread : td.Readable env tdId)
    (hpending : (td.xidStatus env).status ≠ .pendingCommit)
    (hrunning : (td.xidStatus env).status ≠ .inProgress)
    (haborted : (td.xidStatus env).status ≠ .aborted) : td.OwnerEnded env := by
  by_cases hvalid : td.xid = invalidXid
  · exact Or.inl hvalid
  unfold xidStatus at hpending hrunning haborted
  by_cases hcur : td.csnStatus = .isCurXidCsn
  · exact Or.inr (hread.hint hcur).ended
  rw [if_neg hcur] at hpending hrunning haborted
  by_cases hun : td.status = .unoccupyAndPruneable
  · exact Or.inl (hread.unoccupied hun)
  rw [if_neg hun] at hpending hrunning haborted
  exact Or.inr ((((h.known hvalid).resolve_left hrunning).resolve_left hpending).resolve_left
    haborted)

section FirstPass

variable {rollbackByUndoRec : Xid → UndoRecord → ℕ → DataPage → Option DataPage}
  {txn : Transaction} {snapshot : Snapshot} {st st' : CrState} {visited visited' : ℕ → Prop}
  {tdId fuel : ℕ} (hroll : RollsTdBack rollbackByUndoRec) (hmvcc : snapshot.snapshotType = .mvcc)
  (h : st.InvExcept txn snapshot visited (· = tdId))
  (hvisited : ∀ t, t ≠ tdId → (visited' t ↔ visited t)) (hself : visited' tdId)
  (hlt : tdId < st.page.tdCount) (hread : (st.page.getTd tdId).Readable st.env tdId)

include hroll hmvcc h hvisited hself hlt hread

/-- The branch that rolls the owner back. -/
lemma CrState.InvExcept.crRollbackTd (hvalid : (st.page.getTd tdId).xid ≠ invalidXid)
    (hrun : crRollbackTd rollbackByUndoRec txn snapshot tdId fuel st = some st') :
    st'.Inv txn snapshot visited' := by
  unfold DStore.crRollbackTd at hrun
  split at hrun
  · simp at hrun
  next page hpage =>
    rw [← some.inj hrun]
    obtain ⟨hkept, hread', hended, hsame⟩ := rollbackTdOneXid_spec hroll hlt hread hvalid hpage
    have hne : (page.getTd tdId).xid ≠ (st.page.getTd tdId).xid :=
      fun heq => absurd (hsame heq).1 (by decide)
    exact (h.withPage hkept).crFillCsn hvisited hself hkept.lt hread' hmvcc (hended hne)

/-- The branch that waits for a pending owner. -/
lemma CrState.InvExcept.crPendingTd
    (hpending : (st.env.queryXidStatus (st.page.getTd tdId).xid).status = .pendingCommit)
    (hends : (st.page.getTd tdId).WaitEndsWell st.env)
    (hrun : crPendingTd rollbackByUndoRec txn snapshot tdId fuel st = some st') :
    st'.Inv txn snapshot visited' := by
  have hvalid := ne_invalidXid_of_status hpending (by decide)
  unfold DStore.crPendingTd at hrun
  dsimp only at hrun
  split at hrun
  next hneed =>
    split at hrun
    · simp at hrun
    next xs hwait =>
      have hwaited := h.afterWait hpending hwait
      have hread' : (st.page.getTd tdId).Readable
          (st.env.afterWait (st.page.getTd tdId).xid xs) tdId := hread.afterWait hpending
      split at hrun
      · exact hwaited.setLocal.crRollbackTd hroll hmvcc hvisited hself hlt hread' hvalid hrun
      next hended =>
        rw [← some.inj hrun]
        have howner := ((h.env.waited hpending hwait).resolve_left hended).resolve_right
          (hends xs hpending hneed hwait)
        exact hwaited.crFillCsn hvisited hself hlt hread' hmvcc (Or.inr howner)
  · exact h.setLocal.crRollbackTd hroll hmvcc hvisited hself hlt hread hvalid hrun

/-- The branch for the reader's own TD. -/
lemma CrState.InvExcept.crCurrentTd (hvalid : (st.page.getTd tdId).xid ≠ invalidXid)
    (hown : (st.page.getTd tdId).xid = txn.currentXid)
    (hcommand : (st.env.undoRecord (st.page.getTd tdId).undoRecPtr).cid ≤
      (st.page.getTd tdId).commandId)
    (hrun : crCurrentTd rollbackByUndoRec txn snapshot tdId fuel st = some st') :
    st'.Inv txn snapshot visited' := by
  unfold DStore.crCurrentTd at hrun
  dsimp only at hrun
  split at hrun
  · simp at hrun
  next page hrolled =>
    -- the reader's later commands are rolled back, or there are none
    have hpage : OtherTdsKept tdId st.page page ∧ (page.getTd tdId).Readable st.env tdId ∧
        ((page.getTd tdId).xid ≠ (st.page.getTd tdId).xid →
          (page.getTd tdId).OwnerEnded st.env) ∧
        ((page.getTd tdId).xid = (st.page.getTd tdId).xid →
          (page.getTd tdId).OwnVisible st.env txn snapshot) := by
      split at hrolled
      · obtain ⟨hkept, hread', hended, hsame⟩ :=
          rollbackTdOneXid_spec hroll hlt hread hvalid hrolled
        refine ⟨hkept, hread', hended, fun heq => ?_⟩
        obtain ⟨-, hrec, hcid⟩ := hsame heq
        exact hread'.ownVisible (heq.trans hown) (heq ▸ hvalid) hrec hcid
      next hearly =>
        rw [← some.inj hrolled]
        refine ⟨.refl hlt, hread, fun hne => absurd rfl hne, fun _ => ?_⟩
        have hrec := (h.env.reader (hown ▸ hvalid)).2
        apply hread.ownVisible hown hvalid (hown ▸ hrec)
        simp only [cidVisibleToSnapshot, Bool.or_eq_true, decide_eq_true_eq]
        exact Or.inr (by omega)
    obtain ⟨hkept, hread', hended, hvisible⟩ := hpage
    have h' := (h.withPage hkept).setLocal
    split at hrun
    next heq =>
      split at hrun
      · rw [← some.inj hrun]
        exact h'.settle hvisited hself hkept.lt hread' (Or.inr (Or.inl (hvisible heq)))
      · split at hrun
        · simp at hrun
        next page1 hpre =>
          rw [← some.inj hrun]
          obtain ⟨hkept1, hread1, howner1⟩ :=
            crRollbackToPreTxn_spec hkept.lt hread' (heq ▸ hvalid) hpre
          exact (h'.withPage hkept1).crFillCsn hvisited hself hkept1.lt hread1 hmvcc howner1
    next hne =>
      rw [← some.inj hrun]
      exact h'.crFillCsn hvisited hself hkept.lt hread' hmvcc (hended hne)

omit hself hvisited h hlt hread in
/-- One visit of the first pass. -/
lemma CrState.Inv.crVisitTd (hall : st.Inv txn snapshot visited)
    (hvisited : ∀ t, t ≠ tdId → (visited' t ↔ visited t)) (hself : visited' tdId)
    (hlt : tdId < st.page.tdCount) (hnew : ¬ visited tdId)
    (hrun : crVisitTd rollbackByUndoRec txn snapshot tdId fuel st = some st') :
    st'.Inv txn snapshot visited' := by
  have htd := hall.td tdId hlt id
  have hread := htd.readable
  have hunvisited := htd.unvisited hnew
  have h : st.InvExcept txn snapshot visited (· = tdId) := by
    refine hall.leaveOut (Or.inl hnew) (fun t => ⟨fun hmem => ⟨hmem, ?_⟩, And.left⟩) hall.inj
    intro heq
    exact hnew (htd.queued (heq ▸ hmem)).1
  -- only these two answers can come from the TD itself
  have hquery : ∀ status, status ≠ .frozen → status ≠ .committed →
      ((st.page.getTd tdId).xidStatus st.env).status = status →
      (st.env.queryXidStatus (st.page.getTd tdId).xid).status = status := by
    intro status hfrozen hcommitted hstatus
    unfold xidStatus at hstatus
    split at hstatus
    · exact absurd hstatus.symm hcommitted
    · split at hstatus
      · exact absurd hstatus.symm hfrozen
      · exact hstatus
  unfold DStore.crVisitTd at hrun
  dsimp only at hrun
  split at hrun
  next hfrozen =>
    rw [← some.inj hrun]
    apply h.settle hvisited hself hlt hread
    unfold xidStatus at hfrozen
    split at hfrozen
    · exact TrxSlotStatus.noConfusion hfrozen
    next hcur =>
      split at hfrozen
      next hun => exact Or.inl (hread.unoccupied hun)
      next =>
        have hcsn : (st.page.getTd tdId).commitCsn st.env = commitSeqNoFirstNormal := by
          rw [commitCsn, if_neg hcur, if_neg (by rw [hfrozen]; decide)]
        refine Or.inr (Or.inr ⟨Or.inr hfrozen, ?_, ?_⟩)
        · rw [hcsn]
          exact h.env.frozen _ hfrozen
        · rw [hcsn]
          exact h.max_ge
  next hfrozen =>
    split at hrun
    next hown =>
      exact h.crCurrentTd hroll hmvcc hvisited hself hlt hread hown.1 hown.2
        (hunvisited.command hown.2) hrun
    next hown =>
      split at hrun
      next hpending =>
        exact h.crPendingTd hroll hmvcc hvisited hself hlt hread
          (hquery _ (by decide) (by decide) hpending.1) hunvisited.wait hrun
      next hpending =>
        split at hrun
        next hrunning =>
          have hstatus := hquery _ (by decide) (by decide) hrunning.1
          exact h.setLocal.crRollbackTd hroll hmvcc hvisited hself hlt hread
            (ne_invalidXid_of_status hstatus (by decide)) hrun
        next hrunning =>
          split at hrun
          next haborted =>
            have hstatus := hquery _ (by decide) (by decide) haborted
            exact h.crRollbackTd hroll hmvcc hvisited hself hlt hread
              (ne_invalidXid_of_status hstatus (by decide)) hrun
          next haborted =>
            rw [← some.inj hrun]
            have hdirty : snapshot.snapshotType ≠ .dirty := by
              rw [hmvcc]
              decide
            exact h.crFillCsn hvisited hself hlt hread hmvcc (hunvisited.ownerEnded hread
              (fun hs => hpending ⟨hs, hdirty⟩) (fun hs => hrunning ⟨hs, hdirty⟩) haborted)

omit hself hvisited h hlt hread in
/-- The first pass visits every TD. -/
lemma CrState.Inv.crFirstPass {first : ℕ} (count : ℕ)
    (hall : st.Inv txn snapshot (fun t => t < first ∨ first + count ≤ t))
    (hrun : crFirstPass rollbackByUndoRec txn snapshot fuel (range' first count) st = some st') :
    st'.Inv txn snapshot (fun _ => True) := by
  induction count generalizing first st with
  | zero =>
    rw [← some.inj hrun]
    exact hall.of_visited fun t _ => iff_of_true (by omega) trivial
  | succ count ih =>
    rw [range'_succ, DStore.crFirstPass] at hrun
    split at hrun
    next hlt =>
      split at hrun
      · simp at hrun
      next st1 hvisit =>
        refine ih (hall.crVisitTd hroll hmvcc (fun t hne => ?_) ?_ hlt (by omega) hvisit) hrun
        · show _ ∨ _ ↔ _ ∨ _
          omega
        · exact Or.inl (Nat.lt_succ_self first)
    next hge =>
      rw [← some.inj hrun]
      exact hall.of_visited fun t ht => iff_of_true (by omega) trivial

end FirstPass

/-! ## The queue -/

section Queue

variable {rollbackByUndoRec : Xid → UndoRecord → ℕ → DataPage → Option DataPage}
  {txn : Transaction} {snapshot : Snapshot} {st st' : CrState}
  (hroll : RollsTdBack rollbackByUndoRec)

/-- The page is a cut at the snapshot: TDs in use are the reader's, with visible commands, or
of transactions that committed before it, the last of these at `pageMaxCsn`. -/
structure CrState.SnapshotCut (txn : Transaction) (snapshot : Snapshot) (st : CrState) : Prop where
  visible : ∀ t, t < st.page.tdCount → (st.page.getTd t).xid ≠ invalidXid →
    (st.page.getTd t).OwnVisible st.env txn snapshot ∨
      (st.env.Ended (st.page.getTd t).xid ∧
        (st.page.getTd t).commitCsn st.env < snapshot.snapshotCsn)
  le_max : ∀ t, t < st.page.tdCount → st.env.Ended (st.page.getTd t).xid →
    (st.page.getTd t).commitCsn st.env ≤ st.pageMaxCsn
  max : (∃ t, t < st.page.tdCount ∧ st.env.Ended (st.page.getTd t).xid ∧
      (st.page.getTd t).commitCsn st.env = st.pageMaxCsn) ∨
    (st.pageMaxCsn = commitSeqNoFirstNormal ∧
      ∀ t, t < st.page.tdCount → ¬ st.env.Ended (st.page.getTd t).xid)

/-- Commit csns are normal ones. -/
lemma TD.Readable.commitCsn_pos {tdId : ℕ} {td : TD}
    (henv : SnapshotEnv env txn snapshot) (hread : td.Readable env tdId) :
    commitSeqNoFirstNormal ≤ td.commitCsn env := by
  have hpos : ∀ csn, csn ≠ invalidCsn → commitSeqNoFirstNormal ≤ csn :=
    fun _ hne => Nat.pos_of_ne_zero hne
  unfold commitCsn
  split
  next hcur => exact hpos _ (hread.hint hcur).1
  next =>
    split
    next hcommitted => exact hpos _ (henv.committed _ hcommitted)
    next => exact le_rfl

/-- A page of settled TDs is a cut. -/
lemma CrState.snapshotCut_of_settled (henv : SnapshotEnv st.env txn snapshot)
    (hread : ∀ t, t < st.page.tdCount → (st.page.getTd t).Readable st.env t)
    (hsettled : ∀ t, t < st.page.tdCount → st.Settled txn snapshot (st.page.getTd t))
    (hmax : st.pageMaxCsn = commitSeqNoFirstNormal ∨ ∃ t, t < st.page.tdCount ∧
      st.env.Ended (st.page.getTd t).xid ∧
      (st.page.getTd t).commitCsn st.env = st.pageMaxCsn) : st.SnapshotCut txn snapshot := by
  have hle : ∀ t, t < st.page.tdCount → st.env.Ended (st.page.getTd t).xid →
      (st.page.getTd t).commitCsn st.env ≤ st.pageMaxCsn := by
    intro t hlt hended
    rcases hsettled t hlt with hinvalid | hown | hcommitted
    · exact absurd hinvalid hended.ne_invalidXid
    · -- the reader itself is still running
      have hreader := (henv.reader (hown.1 ▸ hended.ne_invalidXid)).1
      rw [hown.1, Ended, hreader] at hended
      rcases hended with hs | hs <;> exact absurd hs (by decide)
    · exact hcommitted.2.2
  refine ⟨fun t hlt hvalid => ?_, hle, ?_⟩
  · exact ((hsettled t hlt).resolve_left hvalid).imp_right fun hs => ⟨hs.1, hs.2.1⟩
  · by_cases hnone : ∀ t, t < st.page.tdCount → ¬ st.env.Ended (st.page.getTd t).xid
    · refine Or.inr ⟨hmax.resolve_right ?_, hnone⟩
      rintro ⟨t, hlt, hended, _⟩
      exact hnone t hlt hended
    · refine Or.inl (hmax.elim (fun hfirst => ?_) id)
      obtain ⟨t, ht⟩ := not_forall.mp hnone
      obtain ⟨hlt, hended⟩ := Classical.not_imp.mp ht
      have hended := not_not.mp hended
      refine ⟨t, hlt, hended, le_antisymm (hle t hlt hended) ?_⟩
      rw [hfirst]
      exact (hread t hlt).commitCsn_pos henv

/-- An empty heap ends the construction. -/
lemma CrState.Inv.snapshotCut (h : st.Inv txn snapshot (fun _ => True))
    (hempty : st.tdHeap.size = 0) : st.SnapshotCut txn snapshot := by
  have hnot : ∀ t, ¬ st.tdHeap.Mem t := by
    rintro t ⟨i, hi, _⟩
    omega
  apply CrState.snapshotCut_of_settled h.env fun t hlt => (h.td t hlt id).readable
  · exact fun t hlt => (h.td t hlt id).settled trivial (hnot t)
  · exact h.max.imp_right fun ⟨t, hlt, _, _, _, hrest⟩ => ⟨t, hlt, hrest⟩

/-- The queue is done once its latest commit is visible. -/
lemma CrState.Inv.snapshotCut_of_top
    (h : st.Inv txn snapshot (fun _ => True))
    (hheap : st.tdHeap.IsHeap st.csnKey) (hpos : 0 < st.tdHeap.size)
    (hvisible : st.csnKey (st.tdHeap.nodes 0) < snapshot.snapshotCsn) :
    ({ st with pageMaxCsn := if st.csnKey (st.tdHeap.nodes 0) > st.pageMaxCsn
        then st.csnKey (st.tdHeap.nodes 0) else st.pageMaxCsn } : CrState).SnapshotCut
      txn snapshot := by
  set top := st.tdHeap.nodes 0 with htop
  have hcsn : ∀ t, st.tdHeap.Mem t → st.env.Ended (st.page.getTd t).xid ∧
      (st.page.getTd t).commitCsn st.env = st.csnKey t := by
    intro t hmem
    have hq := ((h.td t (h.heap_lt t hmem) id).queued hmem).2
    exact ⟨hq.1, if_pos hq.2⟩
  simp only [gt_iff_lt, ← max_def_lt]
  refine CrState.snapshotCut_of_settled h.env (fun t hlt => (h.td t hlt id).readable)
    (fun t hlt => ?_) ?_
  · by_cases hmem : st.tdHeap.Mem t
    · obtain ⟨hended, heq⟩ := hcsn t hmem
      have hle := hheap.le_first hmem
      refine Or.inr (Or.inr ⟨hended, ?_, ?_⟩)
      · exact lt_of_le_of_lt (heq.le.trans hle) hvisible
      · exact (heq.le.trans hle).trans (le_max_right _ _)
    · refine ((h.td t hlt id).settled trivial hmem).imp_right (Or.imp_right fun hs => ?_)
      exact ⟨hs.1, hs.2.1, hs.2.2.trans (le_max_left _ _)⟩
  · rcases max_choice st.pageMaxCsn (st.csnKey top) with hmax | hmax
    · rw [hmax]
      exact h.max.imp_right fun ⟨t, hlt, _, _, _, hrest⟩ => ⟨t, hlt, hrest⟩
    · have hmem := mem_first hpos
      refine Or.inr ⟨top, h.heap_lt top hmem, (hcsn top hmem).1, ?_⟩
      exact (hcsn top hmem).2.trans hmax.symm

section Top

variable {page : DataPage} (h : st.Inv txn snapshot (fun _ => True))
  (hheap : st.tdHeap.IsHeap st.csnKey) (hpos : 0 < st.tdHeap.size)
  (hkept : OtherTdsKept (st.tdHeap.nodes 0) st.page page)

include h hheap hpos hkept

omit hpos in
/-- Changing the first node leaves the rest of the heap ordered. -/
lemma CrState.Inv.orderedFrom_one :
    st.tdHeap.OrderedFrom (st.withLocalPage page).csnKey 1 := by
  apply hheap.orderedFrom_one
  intro t hmem hne
  have hlt := h.heap_lt t hmem
  have hended := ((h.td t hlt id).queued hmem).2.1
  have hlt' : t < page.tdCount := by
    by_contra hge
    exact hended.ne_invalidXid (hkept.dropped t (not_lt.mp hge) hlt)
  show (page.getTd t).csn = (st.page.getTd t).csn
  rw [hkept.other t hne hlt']

/-- Removing the first node leaves its TD out. -/
lemma CrState.Inv.takeOut :
    ({ st.withLocalPage page with
        tdHeap := st.tdHeap.removeFirst (st.withLocalPage page).csnKey } : CrState).InvExcept
      txn snapshot (fun _ => True) (· = st.tdHeap.nodes 0) := by
  obtain ⟨hheap', -, hmem⟩ :=
    removeFirst_isHeap hpos (h.orderedFrom_one hheap hkept) h.inj
  exact ((h.leaveOut (Or.inr (mem_first hpos)) hmem hheap'.inj).withPage hkept).setLocal

/-- Its TD may come back with an older owner. -/
lemma CrState.Inv.requeue
    (hread : (page.getTd (st.tdHeap.nodes 0)).Readable st.env (st.tdHeap.nodes 0))
    (hqueued : (page.getTd (st.tdHeap.nodes 0)).Queued st.env) :
    ({ st.withLocalPage page with
        tdHeap := st.tdHeap.replaceFirst (st.withLocalPage page).csnKey (st.tdHeap.nodes 0) } :
      CrState).Inv txn snapshot (fun _ => True) ∧
    (st.tdHeap.replaceFirst (st.withLocalPage page).csnKey (st.tdHeap.nodes 0)).IsHeap
      (st.withLocalPage page).csnKey := by
  have hordered := h.orderedFrom_one hheap hkept
  obtain ⟨hheap', hmem'⟩ := replaceFirst_isHeap hpos hordered h.inj
  obtain ⟨-, -, hmem⟩ := removeFirst_isHeap hpos hordered h.inj
  refine ⟨(h.takeOut hheap hpos hkept).enqueue (fun _ _ => Iff.rfl) trivial hkept.lt hread hqueued
    (fun t => ?_) hheap'.inj, hheap'⟩
  rw [hmem']
  show _ ↔ (st.tdHeap.removeFirst _).Mem t ∨ t = _
  rw [hmem]
  by_cases heq : t = st.tdHeap.nodes 0
  · simp [heq, mem_first hpos]
  · simp [heq]

end Top

include hroll

/-- The queue is worked off, latest commit first. -/
lemma CrState.Inv.rollbackTdsForCR (fuel : ℕ)
    (h : st.Inv txn snapshot (fun _ => True))
    (hheap : st.tdHeap.IsHeap st.csnKey)
    (hrun : rollbackTdsForCR rollbackByUndoRec txn snapshot fuel st = some st') :
    st'.SnapshotCut txn snapshot := by
  induction fuel generalizing st with
  | zero => simp [DStore.rollbackTdsForCR] at hrun
  | succ fuel ih =>
    rw [DStore.rollbackTdsForCR] at hrun
    split at hrun
    next hempty =>
      -- no owner is left that the snapshot may not see
      rw [← some.inj hrun]
      exact h.snapshotCut hempty
    next hsize =>
      have hpos : 0 < st.tdHeap.size := Nat.pos_of_ne_zero hsize
      have hmem := mem_first hpos
      have hlt := h.heap_lt _ hmem
      have htd := h.td _ hlt id
      have hqueued := (htd.queued hmem).2
      dsimp only at hrun
      split at hrun
      next hvisible =>
        -- the first node has the largest csn, so the others are visible as well
        rw [← some.inj hrun]
        exact h.snapshotCut_of_top hheap hpos hvisible
      next =>
        split at hrun
        · simp at hrun
        next page hpage =>
          obtain ⟨hkept, hread, hended, hsame⟩ :=
            rollbackTdOneXid_spec hroll hlt htd.readable hqueued.1.ne_invalidXid hpage
          have howner := hended fun heq => absurd (hsame heq).1 (by decide)
          split at hrun
          next hinvalid =>
            have h' := (h.takeOut hheap hpos hkept).settle (fun _ _ => Iff.rfl) trivial hkept.lt
              hread (Or.inl hinvalid)
            exact ih h' (removeFirst_isHeap hpos (h.orderedFrom_one hheap hkept) h.inj).1 hrun
          next hvalid =>
            have hended' := howner.resolve_left hvalid
            split at hrun
            next hcur =>
              obtain ⟨hread', hxid, hcur', -⟩ := hread.fillCsn hended' h.env.committed
              have hkept' := hkept.trans (OtherTdsKept.putTd hkept.lt
                ((page.getTd (st.tdHeap.nodes 0)).fillCsn st.env))
              have hget := getTd_putTd_self hkept.lt
                ((page.getTd (st.tdHeap.nodes 0)).fillCsn st.env)
              obtain ⟨h', hheap'⟩ := h.requeue hheap hpos hkept' (by rw [hget]; exact hread')
                (by rw [hget]; exact ⟨by rw [hxid]; exact hended', hcur'⟩)
              exact ih h' hheap' hrun
            next hcur =>
              obtain ⟨h', hheap'⟩ := h.requeue hheap hpos hkept hread
                ⟨hended', not_not.mp hcur⟩
              exact ih h' hheap' hrun

/-- A page whose TDs can be followed: chains are readable, the status of an owner is one a slot
can have, and the reader's TD carries its last command. -/
def DataPage.TdsReadable (env : TxnEnv) (txn : Transaction) (page : DataPage) : Prop :=
  ∀ t, t < page.tdCount → (page.getTd t).Readable env t ∧ (page.getTd t).OwnerKnown env txn

/-- `ConstructCR` leaves a cut at the snapshot, if no owner it waits for ends aborted. -/
theorem constructCR_snapshotCut {fuel : ℕ} {page : DataPage}
    (hmvcc : snapshot.snapshotType = .mvcc) (henv : SnapshotEnv env txn snapshot)
    (hpage : page.TdsReadable env txn)
    (hwait : ∀ t, t < page.tdCount → (page.getTd t).WaitEndsWell env)
    (hrun : constructCR rollbackByUndoRec txn snapshot env fuel page = some st) :
    st.SnapshotCut txn snapshot := by
  unfold constructCR at hrun
  split at hrun
  · simp at hrun
  next st1 hfirst =>
    have hinit : (⟨env, page, empty 0, commitSeqNoFirstNormal, false⟩ :
        CrState).Inv txn snapshot (fun t => t < 0 ∨ 0 + page.tdCount ≤ t) := by
      have hnot : ∀ t, ¬ (empty 0 : BinaryHeap ℕ).Mem t := by
        rintro t ⟨i, hi, _⟩
        exact absurd hi (Nat.not_lt_zero i)
      refine ⟨henv, fun t hlt _ => ⟨(hpage t hlt).1, fun hmem => absurd hmem (hnot t), ?_, ?_⟩,
        fun t hmem => absurd hmem (hnot t), fun t hmem => absurd hmem (hnot t),
        fun i hi => absurd hi (Nat.not_lt_zero i), le_rfl, Or.inl rfl⟩
      · intro hv
        have hlt' : t < page.tdCount := hlt
        omega
      · exact fun _ => ⟨(hpage t hlt).2, hwait t hlt⟩
    rw [range_eq_range'] at hfirst
    have hdone := hinit.crFirstPass hroll hmvcc page.tdCount hfirst
    split at hrun
    next hempty =>
      rw [← some.inj hrun]
      exact hdone.snapshotCut hempty
    next hsize =>
      have hbuilt : (st1.tdHeap.build st1.csnKey).IsHeap st1.csnKey ∧
          ∀ t, (st1.tdHeap.build st1.csnKey).Mem t ↔ st1.tdHeap.Mem t :=
        build_isHeap (Nat.pos_of_ne_zero hsize) hdone.inj
      have hheap : CrState.Inv txn snapshot _ _ := hdone.withHeap hbuilt.2 hbuilt.1.inj
      exact hheap.rollbackTdsForCR hroll fuel hbuilt.1 hrun

end Queue

end DStore
