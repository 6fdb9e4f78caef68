import DStore.Heap.LockInv

/-!
# Locks of running transactions are kept

The lock of a tuple is lost in two ways only. Undo gives a TD back when the owner's first record
is undone, although the owner may still hold locks through it; and undo compacts a page that has
no room for an old version, which drops TDs without owner. In runs without such steps a running
transaction keeps its locks.
-/

namespace DStore

open DataPage TDAllocContext HeapDiskTuple

namespace LockState

/-! ## Runs -/

/-- The condition on undo: while the owner of the TD still holds locks through it, its first
record is not undone, and an old version that no longer fits its item finds room on the page. -/
def KeepsLocks (s : LockState) : LockStep → Prop
  | .undo tdId => ∀ record records, s.undo tdId = record :: records →
    (record.tdPreXid = invalidXid → ¬ s.env.InProgress (s.page.getTd tdId).lockerXid) ∧
      ∀ target size, s.page.readdTarget record = some (target, size) →
        size ≤ s.page.getFreeSpaceRaw
  | _ => True

/-- The effect of a step that keeps the locks: every lock or write first takes a TD. -/
inductive LockEffect (s : LockState) : LockState → Prop where
  | status {env' : TxnEnv} (h : s.StatusStep env') : LockEffect s { s with env := env' }
  | alloc {xid : Xid} {page₁ : DataPage} {tdId : ℕ}
    (hkept : DataPage.AllocLockKept s.env xid s.page page₁ tdId) :
    LockEffect s { s with page := page₁ }
  | lock {xid : Xid} {page₁ : DataPage} {offset tdId : ℕ} (hrun : s.env.InProgress xid)
    (hkept : DataPage.AllocLockKept s.env xid s.page page₁ tdId) (htd : tdId ≠ invalidTdSlot)
    (hv : s.page.ValidOffset offset) (hn : (s.page.getItemId offset).isNormal = true)
    (hfree : s.FreeFor xid offset)
    (hnot : page₁.tupleLocker offset ≠ xid ∨
      (page₁.tupleHeader offset).lockerTdId = invalidTdSlot) :
    LockEffect s { s with page := page₁.withLock xid offset tdId }
  | write {xid : Xid} {page₁ page' : DataPage} {tdId cid : ℕ} {op : HeapOp} {record : UndoRecord}
    {undoPtr : UndoRecPtr} (hrun : s.env.InProgress xid)
    (hkept : DataPage.AllocLockKept s.env xid s.page page₁ tdId) (htd : tdId ≠ invalidTdSlot)
    (hfree : ∀ offset, op.target = some offset → s.FreeFor xid offset)
    (hop : op.modify ⟨tdId, xid, cid⟩ page₁ = some (page', record)) :
    LockEffect s { s with
      page := page'.setTd tdId xid undoPtr cid
      undo := Function.update s.undo tdId
        (if (page₁.getTd tdId).xid = xid then record :: s.undo tdId else [record]) }
  | undo {tdId : ℕ} {page' : DataPage} {record : UndoRecord} {records : List UndoRecord}
    (hrun : s.env.InProgress (s.page.getTd tdId).xid) (hundo : s.undo tdId = record :: records)
    (hlockers : record.tdPreXid = invalidXid → ¬ s.env.InProgress (s.page.getTd tdId).lockerXid)
    (hfr : DataPage.UndoFrame s.page page' record) :
    LockEffect s { s with page := page', undo := Function.update s.undo tdId records }

section Runs

variable {s s' : LockState} {act : LockStep} {xid : Xid} {offset tdId : ℕ} {page₁ : DataPage}

/-- Taking a TD, allocated or already held, keeps the locks. -/
lemma LockInv.takeTd (h : s.LockInv) (hrun : s.env.InProgress xid) {source : TdSource}
    (hholds : s.Holds xid source) (htake : s.page.takeTd s.env xid source = some (page₁, tdId)) :
    AllocLockKept s.env xid s.page page₁ tdId := by
  cases source with
  | alloc ctx fuel =>
    unfold DataPage.takeTd at htake
    dsimp only at htake
    split at htake
    next => simp at htake
    next page2 ctx2 tdId2 halloc =>
      cases htake
      exact doAllocTd_kept h.wf h.sound hrun halloc
  | held t =>
    simp only [DataPage.takeTd, Option.some.injEq, Prod.mk.injEq] at htake
    obtain ⟨rfl, rfl⟩ := htake
    refine AllocLockKept.refl h.wf h.sound fun _ => ⟨?_, (h.sound t).granted hrun hholds⟩
    rcases hholds with hx | hl
    · exact tdId_lt_of_xid (by rw [hx]; exact hrun.ne_invalid)
    · exact tdId_lt_of_lockerXid (by rw [hl]; exact hrun.ne_invalid)

/-- A tuple that is free for a transaction stays so when another one allocates a TD. -/
lemma FreeFor.alloc {other : Xid} (h : s.FreeFor xid offset) (hv : s.page.ValidOffset offset)
    (hn : (s.page.getItemId offset).isNormal)
    (hkept : AllocLockKept s.env other s.page page₁ tdId) :
    FreeFor { s with page := page₁ } xid offset := by
  refine ⟨fun hrun => ?_, fun i _ hrun hne => ?_⟩
  · rcases hkept.locker offset hv hn with ⟨_, heq⟩ | ⟨hnone, _⟩
    · have hrun' : s.env.InProgress (page₁.tupleLocker offset) := hrun
      show page₁.tupleLocker offset = xid
      rw [heq] at hrun' ⊢
      exact h.1 hrun'
    · exact absurd (tupleLocker_of_invalid hkept.wf.layout hnone) hrun.ne_invalid
  · have htd : page₁.getTd i = s.page.getTd i := (hkept.td i).owner (Or.inr hrun)
    have hrun' : s.env.InProgress (page₁.getTd i).xid := hrun
    have hne' : (page₁.getTd i).xid ≠ xid := hne
    rw [htd] at hrun' hne'
    exact h.2 i (tdId_lt_of_xid hrun'.ne_invalid) hrun' hne'

/-- `DoLock` after the caller has taken a TD, or none. -/
lemma LockInv.doLock_effect (h : s.LockInv) (hrun : s.env.InProgress xid)
    (hv : s.page.ValidOffset offset) (hn : (s.page.getItemId offset).isNormal)
    (hfree : s.FreeFor xid offset) (hkept : AllocLockKept s.env xid s.page page₁ tdId)
    (hsame : tdId = invalidTdSlot → page₁ = s.page) {ctx ctx' : TDAllocContext} {fuel tdId' : ℕ}
    {page' : DataPage}
    (hlock : page₁.doLock s.env ctx fuel xid offset tdId = some (page', ctx', tdId')) :
    LockEffect s { s with page := page' } := by
  rcases doLock_cases hlock with rfl | ⟨page2, ctx2, tdId2, htake, hnot, rfl⟩
  · exact .alloc hkept
  have hkept2 : AllocLockKept s.env xid s.page page2 tdId2 := by
    rcases htake with ⟨hnone, halloc⟩ | ⟨_, rfl, rfl⟩
    · rw [hsame hnone] at halloc
      exact doAllocTd_kept h.wf h.sound hrun halloc
    · exact hkept
  split
  next => exact .alloc hkept2
  next htd =>
    refine .lock hrun hkept2 htd hv hn hfree ?_
    rcases htake with ⟨hnone, halloc⟩ | ⟨_, rfl, rfl⟩
    · rw [hsame hnone] at hnot
      rcases hkept2.locker offset hv hn with ⟨heq, hlocker⟩ | ⟨hnone', _⟩
      · rw [heq, hlocker]
        exact hnot
      · exact Or.inr hnone'
    · exact hnot

/-- Every step that fits has one of the effects. -/
lemma LockInv.step_effect (h : s.LockInv) (hfits : s.Fits act) (hcond : s.KeepsLocks act)
    (hstep : s.step act = some s') : LockEffect s s' := by
  cases act with
  | setStatus env' =>
    cases hstep
    exact .status hfits
  | allocTd xid ctx fuel =>
    simp only [step] at hstep
    split at hstep
    next => simp at hstep
    next page₁ ctx1 tdId1 halloc =>
      cases hstep
      exact .alloc (doAllocTd_kept h.wf h.sound hfits halloc)
  | doLock xid offset ctx fuel =>
    obtain ⟨hrun, hv, hn, hfree⟩ := hfits
    simp only [step] at hstep
    split at hstep
    next => simp at hstep
    next page' ctx' tdId' hlock =>
      cases hstep
      -- `DoLock` allocates the TD itself, so nothing has happened before it
      have hkept : AllocLockKept s.env xid s.page s.page invalidTdSlot :=
        AllocLockKept.refl h.wf h.sound fun hne => absurd rfl hne
      exact h.doLock_effect hrun hv hn hfree hkept (fun _ => rfl) hlock
  | doLockWith xid offset source =>
    obtain ⟨hrun, hv, hn, hfree, hholds⟩ := hfits
    simp only [step] at hstep
    split at hstep
    next => simp at hstep
    next page₁ tdId1 htake =>
      have hkept := h.takeTd hrun hholds htake
      split at hstep
      next =>
        cases hstep
        exact .alloc hkept
      next hne =>
        split at hstep
        next => simp at hstep
        next page' ctx' tdId' hlock =>
          cases hstep
          exact h.doLock_effect hrun hv hn hfree hkept (fun heq => absurd heq hne) hlock
  | write xid source op undoPtr cid =>
    obtain ⟨hrun, hholds, hfree⟩ := hfits
    simp only [step] at hstep
    split at hstep
    next => simp at hstep
    next page₁ tdId1 htake =>
      have hkept := h.takeTd hrun hholds htake
      split at hstep
      next =>
        cases hstep
        exact .alloc hkept
      next hne =>
        split at hstep
        next => simp at hstep
        next page' record hop =>
          cases hstep
          exact .write hrun hkept hne hfree hop
  | undo tdId =>
    simp only [step] at hstep
    split at hstep
    next => simp at hstep
    next record records hundo =>
      obtain ⟨hlockers, hroom⟩ := hcond record records hundo
      split at hstep
      next => simp at hstep
      next page' hpage =>
        cases hstep
        have hsound := (h.records tdId hfits).2 record (by rw [hundo]; exact List.mem_cons_self)
        exact .undo hfits hundo hlockers
          (undoHeap_frame h.wf hsound.restorable hsound.valid hroom hpage)

/-- Every step keeps the invariant. -/
lemma LockEffect.lockInv (heff : LockEffect s s') (h : s.LockInv) : s'.LockInv := by
  cases heff with
  | status hstatus => exact h.setStatus hstatus
  | alloc hkept => exact h.alloc hkept
  | lock hrun hkept htd hv hn hfree _ =>
    obtain ⟨hlt, hgranted⟩ := hkept.granted htd
    have hv' := hv.mono hkept.getMaxOffset_eq.ge
    have hn' := (hkept.normal _ hv).trans hn
    exact (h.alloc hkept).lock hlt hgranted hrun hv' hn' (hfree.alloc hv hn hkept)
  | write hrun hkept htd _ hop =>
    obtain ⟨hlt, hgranted⟩ := hkept.granted htd
    exact (h.alloc hkept).write hlt hgranted hrun hop _
  | undo hrun hundo hlockers hfr => exact h.undoRecord hrun hundo hlockers hfr

/-- The effects keep the lock of a running transaction on a tuple it has not overwritten. -/
lemma LockEffect.locked (heff : LockEffect s s') (h : s.LockInv) (hrun : s.env.InProgress xid)
    (hlocked : s.page.Locked xid offset tdId) (hbefore : ¬ s.OverwrittenBy xid offset)
    (hafter : ¬ s'.OverwrittenBy xid offset) : s'.page.Locked xid offset tdId := by
  have hholder : s.page.tupleLocker offset = xid := hlocked.tupleLocker_eq
  cases heff with
  | status => exact hlocked
  | alloc hkept => exact hkept.locked hlocked hrun
  | @lock other page₁ target t hother hkept htd hv hn hfree hnot =>
    have hlocked1 := hkept.locked hlocked hrun
    obtain ⟨hlt, hgranted⟩ := hkept.granted htd
    have hlocker : (page₁.getTd tdId).lockerXid ≠ invalidXid := by
      rw [hlocked1.lockerXid]
      exact hrun.ne_invalid
    have hne : offset ≠ target := by
      rintro rfl
      -- the locker waits for all others, and leaves its own lock as it is
      have hself : xid = other := hholder ▸ hfree.1 (by rw [hholder]; exact hrun)
      rcases hnot with hnot | hnone
      · exact hnot (hself ▸ hlocked1.tupleLocker_eq)
      · have := tupleLocker_of_invalid hkept.wf.layout hnone
        exact hrun.ne_invalid (hlocked1.tupleLocker_eq.symm.trans this)
    exact hlocked1.of_frame hkept.wf (withLock_frame hkept.wf
      (hv.mono hkept.getMaxOffset_eq.ge) ((hkept.normal _ hv).trans hn) other t) hne
      (lockerXid_withLock hlt hgranted hlocker)
  | @write other page₁ page' t cid op record undoPtr hother hkept htd hfree hop =>
    have hlocked1 := hkept.locked hlocked hrun
    obtain ⟨hlt, hgranted⟩ := hkept.granted htd
    have hfr := modify_opFrame hkept.wf hop
    have hlt' : t < page'.tdCount := by
      rw [tdCount, hfr.tds_eq]
      exact hlt
    have hmiss : ¬ record.isMatchedCtid offset := by
      intro hm
      have htarget := hfr.target offset hm hlocked1.normal
      have hself : xid = other :=
        hholder ▸ (hfree offset htarget).1 (by rw [hholder]; exact hrun)
      -- then the holder has overwritten the tuple
      refine hafter ⟨t, ?_, ?_, record, ?_, hm⟩
      · show t < (page'.putTd t _).tdCount
        rw [putTd_tdCount]
        exact hlt'
      · show ((page'.putTd t _).getTd t).xid = xid
        rw [getTd_putTd_self hlt', hself]
        rfl
      · show record ∈ Function.update s.undo t _ t
        rw [Function.update_self]
        split
        · exact List.mem_cons_self
        · exact List.mem_singleton.mpr rfl
    refine hlocked1.of_frame hkept.wf (hfr.frame.trans (TupleFrame.of_eq rfl rfl)) hmiss ?_
    have htd : page₁.getTd tdId = page'.getTd tdId := by rw [getTd, getTd, hfr.tds_eq]
    rw [htd]
    exact putTd_keeps TD.lockerXid (by rfl) tdId
  | @undo t page' record records howner hundo hlockers hfr =>
    obtain ⟨hchain, hrecords⟩ := h.records t howner
    have hmem : record ∈ s.undo t := by
      rw [hundo]
      exact List.mem_cons_self
    have hlt : t < s.page.tdCount := tdId_lt_of_xid howner.ne_invalid
    have hmiss : ¬ record.isMatchedCtid offset := by
      intro hm
      have hself := (hrecords record hmem).excl offset hm hlocked.normal
        (by rw [hholder]; exact hrun)
      exact hbefore ⟨t, hlt, hself.symm.trans hholder, record, hmem, hm⟩
    refine hlocked.of_frame h.wf hfr.frame hmiss ?_
    rw [getTd, hfr.tds_eq]
    exact putTd_keeps TD.lockerXid (by rfl) tdId

end Runs

end LockState

open LockState

section Main

variable {keeps : LockState → Prop} {s s' s₁ s₂ : LockState} {xid : Xid} {offset tdId : ℕ}

/-- Every run keeps the invariant. -/
lemma LockRun.lockInv (hrun : LockRun KeepsLocks keeps s s') (h : s.LockInv) : s'.LockInv := by
  induction hrun with
  | refl => exact h
  | step _ hfits hcond hstep _ ih => exact (ih.step_effect hfits hcond hstep).lockInv ih

/-- A tuple lock is kept while its holder runs and has not overwritten the tuple, in every run
whose undo steps leave locks and TDs alone. -/
theorem LockRun.locked_of_keepsLocks (hstart : s.Start)
    (hbefore : LockRun LockState.KeepsLocks (fun _ => True) s s₁)
    (hlocked : s₁.page.Locked xid offset tdId)
    (hrun : LockRun LockState.KeepsLocks
      (fun s => s.env.InProgress xid ∧ ¬ s.OverwrittenBy xid offset) s₁ s₂) :
    s₂.page.Locked xid offset tdId := by
  have hinv : s₁.LockInv := hbefore.lockInv hstart.lockInv
  have hends : ∀ {s₂}, LockRun KeepsLocks
      (fun s => s.env.InProgress xid ∧ ¬ s.OverwrittenBy xid offset) s₁ s₂ →
      s₂.env.InProgress xid ∧ ¬ s₂.OverwrittenBy xid offset := by
    intro s₂ hrun
    cases hrun with
    | refl h => exact h
    | step _ _ _ _ h => exact h
  induction hrun with
  | refl => exact hlocked
  | step hprev hfits hcond hstep hkeep ih =>
    have hprevInv := hprev.lockInv hinv
    exact (hprevInv.step_effect hfits hcond hstep).locked hprevInv (hends hprev).1 ih
      (hends hprev).2 hkeep.2

end Main

/-! ## A lock that is lost -/

/-- A page with two tuples of 16 bytes and two free TDs, all transactions running. -/
def twoTupleState : LockState where
  page :=
    { type := .heap
      selfPageId := ⟨1, 1⟩
      upper := 8160
      special := 8192
      hasFreeItemId := false
      hasPrunableTuple := false
      hasPrunableItem := false
      tds := [TD.reset, TD.reset]
      items := [⟨.normal, 8160, 16⟩, ⟨.normal, 8176, 16⟩]
      mem := setTupleSize (setLockerTdId (setTupleSize
        (setLockerTdId (fun _ => 0) 8160 invalidTdSlot) 8160 16) 8176 invalidTdSlot)
        8176 16
      potentialDelSize := 0
      recentDeadTupleMinCsn := 0 }
  env := uniformEnv .inProgress
  undo := fun _ => []

/-- The state after a step that applies. -/
def LockState.after (s : LockState) (act : LockStep) : LockState := (s.step act).getD s

lemma LockState.step_after {s : LockState} {act : LockStep} (h : (s.step act).isSome) :
    s.step act = some (s.after act) := by
  rw [after, Option.getD_of_ne_none (Option.isSome_iff_ne_none.mp h)]

/-- An insert of a tuple of 16 bytes. -/
def insertStep (xid : Xid) : LockStep :=
  .write xid (.alloc (begin 10 false) 1)
    (.insert ⟨fun _ => 0, 16, by decide, by decide⟩) ⟨⟨2, 2⟩, 2⟩ firstCid

/-- Transaction 1 locks the first tuple. -/
def lockedState : LockState :=
  twoTupleState.after (.doLock 1 1 (begin 10 false) 1)

/-- The example meets the conditions of a start. -/
lemma twoTupleState_start : twoTupleState.Start := by
  have htd : ∀ tdId, twoTupleState.page.getTd tdId = TD.reset := by
    intro tdId
    match tdId with
    | 0 => rfl
    | 1 => rfl
    | _ + 2 => rfl
  refine ⟨by decide, ?_, ?_, ?_, by decide, fun _ => rfl⟩
  all_goals intro tdId; rw [htd]
  · exact Or.inr ⟨rfl, by decide⟩
  · exact fun _ => rfl
  · rfl

/-- Transaction 1 locks the first tuple. -/
lemma lockedState_run (cond : LockState → LockStep → Prop)
    (hcond : cond twoTupleState (.doLock 1 1 (begin 10 false) 1)) :
    LockRun cond (fun _ => True) twoTupleState lockedState := by
  refine .step (.refl trivial) ?_ hcond (step_after (by decide)) trivial
  exact ⟨by decide, ⟨by decide, by decide⟩, by decide, by decide⟩

lemma insertStep_fits {s : LockState} {xid : Xid} (hrun : s.env.InProgress xid) :
    s.Fits (insertStep xid) :=
  ⟨hrun, trivial, by simp [HeapOp.target]⟩

/-- Another transaction inserts a tuple and rolls back; the lock stays. -/
theorem locked_of_keepsLocks_after_insert :
    twoTupleState.Start ∧ lockedState.page.Locked 1 1 0 ∧
      ((lockedState.after (insertStep 2)).after (.undo 1)).page.Locked 1 1 0 := by
  refine ⟨twoTupleState_start, by decide, LockRun.locked_of_keepsLocks twoTupleState_start
    (lockedState_run _ trivial) (by decide) ?_⟩
  refine .step (.step (.refl ⟨by decide, by decide⟩) (insertStep_fits (by decide)) trivial
    (step_after (by decide)) ⟨by decide, by decide⟩) ?_ ?_
    (step_after (by decide)) ⟨by decide, by decide⟩
  · show TxnEnv.InProgress _ _
    decide
  · intro record records hundo
    refine ⟨fun _ => by decide, fun target size htarget => ?_⟩
    have hnone : ∀ record ∈ (lockedState.after (insertStep 2)).undo 1,
        ((lockedState.after (insertStep 2)).page.readdTarget record).isNone = true := by decide
    have := hnone record (by rw [hundo]; exact List.mem_cons_self)
    rw [htarget] at this
    simp at this

/-- Transaction 1 inserts a tuple and rolls the insert back to a savepoint, which frees the TD of
its lock. Transaction 2 takes the TD for a lock of its own, and the first lock is gone. -/
theorem lock_lost_after_savepoint_rollback :
    ∃ s s₁ s₂ : LockState, s.Start ∧ LockRun (fun _ _ => True) (fun _ => True) s s₁ ∧
      s₁.page.Locked 1 1 0 ∧
      LockRun (fun _ _ => True) (fun s => s.env.InProgress 1 ∧ ¬ s.OverwrittenBy 1 1) s₁ s₂ ∧
      ¬ s₂.page.Locked 1 1 0 := by
  refine ⟨twoTupleState, lockedState, ((lockedState.after (insertStep 1)).after (.undo 0)).after
    (.doLock 2 2 (begin 10 false) 1), twoTupleState_start,
    lockedState_run _ trivial, by decide, ?_, by decide⟩
  refine .step (.step (.step (.refl ⟨by decide, by decide⟩) ?_ trivial
    (step_after (by decide)) ⟨by decide, by decide⟩) ?_ trivial
    (step_after (by decide)) ⟨by decide, by decide⟩) ?_ trivial
    (step_after (by decide)) ⟨by decide, by decide⟩
  · exact insertStep_fits (by decide)
  · show TxnEnv.InProgress _ _
    decide
  · exact ⟨by decide, ⟨by decide, by decide⟩, by decide, by decide⟩

end DStore
