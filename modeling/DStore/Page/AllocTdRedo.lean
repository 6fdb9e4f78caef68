import DStore.Page.AllocTd
import Mathlib.Data.List.Forall2

/-!
# Replaying a TD allocation

The log record of an allocation carries one status per TD. Redo rebuilds the recycle list
from it exactly, so tuples are refreshed alike; the two sides can only differ in the TD
array, where `RedoAllocTdWal` passes `existTxnInProgress` for the parameter that the
original run gives as `canResetTd`: redo resets unused TDs in the one situation in which
the run must not, and does not reset them when the run did.
-/

namespace DStore

open DataPage List Option TDAllocContext TD

variable {td td' std : TD} {env : TxnEnv} {ctx : TDAllocContext}

/-! ## Refreshing tuples never looks at the TD array -/

namespace DataPage

/-- The page with another TD array. -/
def withTds (page : DataPage) (tds : List TD) : DataPage := { page with tds := tds }

variable (page : DataPage) (tds : List TD)

@[simp] lemma withTds_tds : (page.withTds tds).tds = tds := rfl

section

variable (offset : ℕ)
include offset

@[simp] lemma withTds_getItemId :
    (page.withTds tds).getItemId offset = page.getItemId offset := rfl
@[simp] lemma withTds_getTupleTdId :
    (page.withTds tds).getTupleTdId offset = page.getTupleTdId offset := rfl
@[simp] lemma withTds_getTupleLockerTdId :
    (page.withTds tds).getTupleLockerTdId offset = page.getTupleLockerTdId offset := rfl
@[simp] lemma withTds_getTupleTdStatus :
    (page.withTds tds).getTupleTdStatus offset = page.getTupleTdStatus offset := rfl

/-- Tuples and TDs are set independently of each other. -/
lemma setTupleTdStatus_withTds (status : TupleTdStatus) :
    (page.withTds tds).setTupleTdStatus offset status =
      (page.setTupleTdStatus offset status).withTds tds := by
  rw [setTupleTdStatus, setTupleTdStatus, withTds_getItemId]
  split <;> rfl

lemma setTupleLockerTdId_withTds (tdId : ℕ) :
    (page.withTds tds).setTupleLockerTdId offset tdId =
      (page.setTupleLockerTdId offset tdId).withTds tds := rfl

/-- The refresh of a tuple does not read the TDs. -/
lemma refreshSlots_withTds (tdId lockerTdId tdStatus : ℕ)
    (slots : List TdRecycleStatus) (b1 b2 : Bool) :
    refreshSlots offset tdId lockerTdId tdStatus slots b1 b2 (page.withTds tds) =
      (refreshSlots offset tdId lockerTdId tdStatus slots b1 b2 page).withTds tds := by
  induction slots generalizing b1 b2 page with
  | nil => rfl
  | cons slot slots ih =>
    simp only [refreshSlots, setTupleLockerTdId_withTds, ← apply_ite (withTds · tds),
      setTupleTdStatus_withTds, ih]

end

lemma refreshTuple_withTds (slots : List TdRecycleStatus) (offset : ℕ) :
    refreshTuple slots (page.withTds tds) offset =
      (refreshTuple slots page offset).withTds tds := by
  simp only [refreshTuple, withTds_getItemId, withTds_getTupleLockerTdId,
    withTds_getTupleTdStatus, withTds_getTupleTdId, refreshSlots_withTds]
  split_ifs <;> rfl

/-- So the refresh of the page and the change of its TDs commute. -/
lemma refreshTupleTdStatus_withTds (slots : List TdRecycleStatus) :
    (page.withTds tds).refreshTupleTdStatus slots =
      (page.refreshTupleTdStatus slots).withTds tds :=
  foldl_hom (withTds · tds) fun page offset => refreshTuple_withTds page tds slots offset

lemma refreshTupleTdStatus_tds (slots : List TdRecycleStatus) :
    (page.refreshTupleTdStatus slots).tds = page.tds := by
  have h := congrArg tds (refreshTupleTdStatus_withTds page page.tds slots)
  exact h

end DataPage

/-! ## The TD array after `GetAvailableTd` -/

/-- What `GetAvailableTd` does to one TD, given its entry in the recycle list. -/
def availTd (canResetTd : Bool) : Option Bool → TD → TD
  | none, td => td
  | some unused, td =>
    if canResetTd && unused then reset
    else if td.status ≠ .unoccupyAndPruneable then { td with status := .occupyTrxEnd }
    else td

lemma set_getD_self (tds : List TD) (i : ℕ) : tds.set i (tds.getD i reset) = tds := by
  by_cases h : i < tds.length
  · rw [getD_eq_getElem _ _ h, set_getElem_self]
  · rw [set_eq_of_length_le (by omega)]

/-- One round of `GetAvailableTd` changes one TD. -/
lemma availStep_tds (c : Bool) (st : DataPage.AvailState) (slot : TdRecycleStatus) :
    (availStep c st slot).tds =
      st.tds.set slot.id (availTd c (some slot.unused) (st.tds.getD slot.id reset)) := by
  simp only [availStep, availTd]
  split_ifs <;> first | rfl | exact (set_getD_self _ _).symm

/-- The loop refreshes each recycled TD on its own. -/
lemma foldl_availStep_tds (c : Bool) (rs : List (Option Bool)) (pre l : List TD)
    (st : DataPage.AvailState) (hst : st.tds = pre ++ l) (hlen : l.length = rs.length) :
    ((recycleList pre.length rs).foldl (availStep c) st).tds =
      pre ++ zipWith (availTd c) rs l := by
  induction rs generalizing pre l st with
  | nil =>
    have hl : l = [] := length_eq_zero_iff.mp hlen
    simpa [recycleList, hl] using hst
  | cons r rs ih =>
    obtain ⟨td, l, rfl⟩ := exists_cons_of_length_eq_add_one hlen
    have hlen' : l.length = rs.length := by simpa using hlen
    have hpre : (pre ++ [availTd c r td]).length = pre.length + 1 := by simp
    cases r with
    | none =>
      have h := ih (pre ++ [td]) l st (by simpa using hst) hlen'
      simpa [recycleList, availTd] using h
    | some unused =>
      have hget : st.tds.getD pre.length reset = td := by simp [hst]
      have hset : (availStep c st ⟨unused, pre.length⟩).tds =
          (pre ++ [availTd c (some unused) td]) ++ l := by
        rw [availStep_tds, hget, hst]
        simp
      have h := ih (pre ++ [availTd c (some unused) td]) l _ hset hlen'
      rw [hpre] at h
      simpa [recycleList] using h

/-- `GetAvailableTd` treats every recycled TD by itself. -/
lemma getAvailableTd_fst (page : DataPage) (rs : List (Option Bool)) (c : Bool)
    (hlen : page.tds.length = rs.length) :
    (page.getAvailableTd (recycleList 0 rs) c).1 =
      page.withTds (zipWith (availTd c) rs page.tds) := by
  have h := foldl_availStep_tds c rs [] page.tds
    ⟨page.tds, invalidTdSlot, invalidTdSlot, maxCommitSeqNo⟩ rfl hlen
  simp only [length_nil, nil_append] at h
  simp only [getAvailableTd, h, withTds]

/-! ## What the scan can do to one TD -/

/-- The two TDs name the same owner: what readers of the page take from a TD, the csn hints
apart. -/
def TD.SameOwner (td td' : TD) : Prop :=
  td.xid = td'.xid ∧ td.undoRecPtr = td'.undoRecPtr ∧ td.status = td'.status

/-- `CheckSanity`, and the assertion `TryReuseTdSlots` adds for a TD without xid. -/
def TD.Sane (td : TD) : Prop :=
  td.CheckSanity ∧ (td.xid = invalidXid → td.undoRecPtr = invalidUndoRecPtr)

instance (td : TD) : Decidable td.Sane := inferInstanceAs (Decidable (_ ∧ _))

section Scan

variable (env : TxnEnv) (ctx : TDAllocContext)

/-- Another running transaction holds the TD as locker. -/
def LockedTd (td : TD) : Prop :=
  td.lockerXid ≠ invalidXid ∧ td.lockerXid ≠ td.xid ∧
    (env.queryXidStatus td.lockerXid).status = .inProgress

/-- The TD is examined and its owner has ended before every snapshot. -/
def FrozenTd (td : TD) : Prop :=
  td.xid ≠ invalidXid ∧ skipRemote env ctx td.xid = false ∧ ¬ LockedTd env td ∧
    ((td.xidStatus env).status = .frozen ∨
      ((td.xidStatus env).status = .committed ∧ (td.xidStatus env).csn < ctx.recycleMinCsn))

/-- The TD has no owner, and no locker that is running or skipped. -/
def EmptyTd (td : TD) : Prop :=
  td.xid = invalidXid ∧ (td.lockerXid = invalidXid ∨
    (skipRemote env ctx td.lockerXid = false ∧
      (env.queryXidStatus td.lockerXid).status ≠ .inProgress))

/-- The TD is examined and its owner is running. -/
def InProgressTd (td : TD) : Prop :=
  td.xid ≠ invalidXid ∧ skipRemote env ctx td.xid = false ∧
    (td.xidStatus env).status = .inProgress

/-- The TD is left out because it belongs to another node. -/
def SkippedTd (td : TD) : Prop :=
  (td.xid ≠ invalidXid ∧ skipRemote env ctx td.xid = true) ∨
    (td.xid = invalidXid ∧ td.lockerXid ≠ invalidXid ∧ skipRemote env ctx td.lockerXid = true)

/-- The four things the scan can do to a TD: ignore it, recycle it as committed, recycle it
as frozen, or recycle it as empty. -/
inductive ScanCase (td : TD) (scan : TdScan) : Prop where
  | ignored (hrec : scan.recycle = none) (hsame : scan.td.SameOwner td)
      (hfrozen : ¬ FrozenTd env ctx td) (hempty : ¬ EmptyTd env ctx td)
  | committed (hrec : scan.recycle = some false) (hxid : scan.td.xid = td.xid)
      (hundo : scan.td.undoRecPtr = td.undoRecPtr)
      (hstatus : scan.td.status = td.status ∨ scan.td.status = .occupyTrxEnd)
      (hvalid : td.xid ≠ invalidXid) (hfrozen : ¬ FrozenTd env ctx td)
  | frozen (hrec : scan.recycle = some true) (hxid : scan.td.xid = td.xid)
      (hundo : scan.td.undoRecPtr = td.undoRecPtr)
      (hstatus : scan.td.status = td.status ∨ scan.td.status = .occupyTrxEnd)
      (hfrozen : FrozenTd env ctx td)
  | empty (hrec : scan.recycle = some true) (hxid : scan.td.xid = td.xid)
      (hundo : scan.td.undoRecPtr = td.undoRecPtr)
      (hstatus : scan.td.status = .unoccupyAndPruneable ∨
        (td.lockerXid = invalidXid ∧ scan.td.status = td.status))
      (hempty : EmptyTd env ctx td)

variable {env ctx}

/-- Filling the end status leaves owner, undo pointer and locker. -/
lemma fillEndStatus_owner (td : TD) :
    td.fillEndStatus.xid = td.xid ∧ td.fillEndStatus.undoRecPtr = td.undoRecPtr ∧
      td.fillEndStatus.lockerXid = td.lockerXid ∧ td.fillEndStatus.csn = td.csn ∧
      (td.fillEndStatus.status = td.status ∨ td.fillEndStatus.status = .occupyTrxEnd) ∧
      (td.lockerXid ≠ invalidXid → td.fillEndStatus.status = td.status) := by
  unfold fillEndStatus
  split_ifs with h
  · exact ⟨rfl, rfl, rfl, rfl, Or.inr rfl, fun hl => absurd h.2 hl⟩
  · exact ⟨rfl, rfl, rfl, rfl, Or.inl rfl, fun _ => rfl⟩

/-- So does filling the csn. -/
lemma fillCsnWith_owner (td : TD) (xs : XidState) :
    (td.fillCsnWith xs).xid = td.xid ∧ (td.fillCsnWith xs).undoRecPtr = td.undoRecPtr ∧
      (td.fillCsnWith xs).lockerXid = td.lockerXid ∧
      ((td.fillCsnWith xs).status = td.status ∨ (td.fillCsnWith xs).status = .occupyTrxEnd) ∧
      (td.lockerXid ≠ invalidXid → (td.fillCsnWith xs).status = td.status) := by
  unfold TD.fillCsnWith
  split_ifs
  · exact ⟨rfl, rfl, rfl, Or.inl rfl, fun _ => rfl⟩
  · exact ⟨rfl, rfl, rfl, Or.inl rfl, fun _ => rfl⟩
  · obtain ⟨h1, h2, h3, -, h5, h6⟩ := fillEndStatus_owner
      { td with csn := commitSeqNoFirstNormal, csnStatus := .isCurXidCsn }
    exact ⟨h1, h2, h3, h5, h6⟩
  · obtain ⟨h1, h2, h3, -, h5, h6⟩ := fillEndStatus_owner
      { td with csn := xs.csn, csnStatus := .isCurXidCsn }
    exact ⟨h1, h2, h3, h5, h6⟩
  · exact ⟨rfl, rfl, rfl, Or.inl rfl, fun _ => rfl⟩

/-- For a committed owner the csn that is filled in is its commit csn. -/
lemma fillCsnWith_csn_of_committed (hvalid : td.xid ≠ invalidXid)
    (h : (td.xidStatus env).status = .committed) :
    (td.fillCsnWith (td.xidStatus env)).csn = (td.xidStatus env).csn := by
  by_cases hcur : td.csnStatus = .isCurXidCsn
  · simp [TD.fillCsnWith, TD.xidStatus, hcur]
  · rw [TD.fillCsnWith, if_neg hcur, if_neg hvalid, if_neg (by simp [h]), if_pos h]
    exact (fillEndStatus_owner _).2.2.2.1

variable (env ctx) in
/-- What the log and the flag `canResetTd` say about a scanned TD. -/
structure ScanLog (td : TD) (scan : TdScan) : Prop where
  recycle : scan.recycle = recycleOfStatus scan.xidStatus
  inProgress : scan.xidStatus = .inProgress ↔ InProgressTd env ctx td
  canResetTd : scan.canResetTd = false ↔ InProgressTd env ctx td ∨ SkippedTd env ctx td

/-- The scan of a TD whose owner has ended. -/
lemma reuseEndedTd_spec (hvalid : td.xid ≠ invalidXid) (hskip : skipRemote env ctx td.xid = false)
    (hended : (td.xidStatus env).status = .frozen ∨ (td.xidStatus env).status = .committed) :
    ScanCase env ctx td (reuseEndedTd env ctx td (td.xidStatus env)) ∧
      ScanLog env ctx td (reuseEndedTd env ctx td (td.xidStatus env)) := by
  obtain ⟨hx, hu, hl, hs, hsl⟩ := fillCsnWith_owner td (td.xidStatus env)
  have hempty : ¬ EmptyTd env ctx td := fun h => hvalid h.1
  have hin : ¬ InProgressTd env ctx td := by
    rintro ⟨-, -, h⟩
    rcases hended with h' | h' <;> simp [h] at h'
  have hsk : ¬ SkippedTd env ctx td := by
    rintro (⟨-, h⟩ | ⟨h, -⟩)
    · simp [hskip] at h
    · exact hvalid h
  -- the csn the code compares is the one of the status query
  have hcsn : ((td.xidStatus env).status = .frozen ∨
        (td.fillCsnWith (td.xidStatus env)).csn < ctx.recycleMinCsn) ↔
      ((td.xidStatus env).status = .frozen ∨ ((td.xidStatus env).status = .committed ∧
        (td.xidStatus env).csn < ctx.recycleMinCsn)) := by
    rcases hended with hf | hc
    · simp [hf]
    · simp [hc, fillCsnWith_csn_of_committed hvalid hc]
  unfold reuseEndedTd
  simp only [hl, apply_ite csn, ite_self, hcsn]
  rw [hx]
  split_ifs with hlock hfro hlx hlx
  all_goals refine ⟨?_, rfl, by simp [hin], by simp [hin, hsk]⟩
  · exact .ignored rfl ⟨hx, hu, hsl hlock.1⟩ (fun h => h.2.2.1 hlock) hempty
  · exact .frozen rfl rfl hu (Or.inr rfl) ⟨hvalid, hskip, hlock, hfro⟩
  · exact .frozen rfl hx hu hs ⟨hvalid, hskip, hlock, hfro⟩
  · exact .committed rfl rfl hu (Or.inr rfl) hvalid fun h => hfro h.2.2.2
  · exact .committed rfl hx hu hs hvalid fun h => hfro h.2.2.2

/-- The scan of a TD without xid. -/
lemma reuseLockerTd_spec (hx : td.xid = invalidXid) :
    ScanCase env ctx td (reuseLockerTd env ctx td) ∧
      ScanLog env ctx td (reuseLockerTd env ctx td) := by
  have hfrozen : ¬ FrozenTd env ctx td := fun h => h.1 hx
  have hin : ¬ InProgressTd env ctx td := fun h => h.1 hx
  have hsk : SkippedTd env ctx td ↔
      td.lockerXid ≠ invalidXid ∧ skipRemote env ctx td.lockerXid := by
    simp [SkippedTd, hx]
  unfold reuseLockerTd
  split_ifs with hl hskip hrun
  · refine ⟨.ignored rfl ⟨rfl, rfl, rfl⟩ hfrozen fun h => ?_, rfl, by simp [hin],
      by simp [hsk, hl, hskip]⟩
    rcases h.2 with h | h
    · exact hl h
    · simp [h.1] at hskip
  · refine ⟨.ignored rfl ⟨rfl, rfl, rfl⟩ hfrozen fun h => ?_, rfl, by simp [hin],
      by simp [hin, hsk, hskip]⟩
    rcases h.2 with h | h
    · exact hl h
    · exact h.2 hrun
  · exact ⟨.empty rfl rfl rfl (Or.inl rfl) ⟨hx, Or.inr ⟨by simpa using hskip, hrun⟩⟩, rfl,
      by simp [hin], by simp [hin, hsk, hskip]⟩
  · have hl' : td.lockerXid = invalidXid := by simpa using hl
    exact ⟨.empty rfl rfl rfl (Or.inr ⟨hl', rfl⟩) ⟨hx, Or.inl hl'⟩, rfl, by simp [hin],
      by simp [hin, hsk, hl]⟩

variable (env ctx) in
/-- The scan of any TD, with what the record says about it. -/
lemma scanTd_spec (td : TD) :
    ScanCase env ctx td (scanTd env ctx td) ∧ ScanLog env ctx td (scanTd env ctx td) := by
  unfold scanTd
  split_ifs with hvalid hskip
  · exact ⟨.ignored rfl ⟨rfl, rfl, rfl⟩ (fun h => by simp [h.2.1] at hskip) (fun h => hvalid h.1),
      rfl, by simp [InProgressTd, hskip], by simp [SkippedTd, hvalid, hskip]⟩
  · have hskip' : skipRemote env ctx td.xid = false := by simpa using hskip
    have hsk : ¬ SkippedTd env ctx td := by simp [SkippedTd, hskip', hvalid]
    have hin : InProgressTd env ctx td ↔ (td.xidStatus env).status = .inProgress := by
      simp [InProgressTd, hvalid, hskip']
    have hignored : ∀ st : TrxSlotStatus, (td.xidStatus env).status = st →
        st ≠ .frozen → st ≠ .committed → ¬ FrozenTd env ctx td ∧ ¬ EmptyTd env ctx td := by
      intro st hst hf hc
      refine ⟨fun h => ?_, fun h => hvalid h.1⟩
      rcases h.2.2.2 with h | h
      · exact hf (hst.symm.trans h)
      · exact hc (hst.symm.trans h.1)
    cases hst : (td.xidStatus env).status with
    | frozen => simpa only [hst] using reuseEndedTd_spec hvalid hskip' (Or.inl hst)
    | committed => simpa only [hst] using reuseEndedTd_spec hvalid hskip' (Or.inr hst)
    | _ =>
      obtain ⟨h1, h2⟩ := hignored _ hst (by decide) (by decide)
      simp only [hst]
      exact ⟨.ignored rfl ⟨rfl, rfl, rfl⟩ h1 h2, rfl, by simp [hin, hst], by simp [hin, hsk, hst]⟩
  · exact reuseLockerTd_spec (by simpa using hvalid)

end Scan

/-! ## Rolling back an aborted owner -/

/-- What page code may assume of undo records: each holds the content of a sane TD, and no
TD caches a commit csn for an aborted transaction. -/
structure UndoSane (env : TxnEnv) : Prop where
  empty : ∀ xid ptr undo, env.fetchUndoRecord xid ptr = some undo →
    undo.tdPreXid = invalidXid → undo.tdPreUndoPtr = invalidUndoRecPtr
  hint : ∀ xid ptr undo, env.fetchUndoRecord xid ptr = some undo →
    undo.tdPreCsnStatus = .isCurXidCsn → (env.queryXidStatus undo.tdPreXid).status ≠ .aborted

/-- A TD rolled back past a transaction: reset, or as the transaction's first undo record
has it. -/
def RolledBack (env : TxnEnv) (td : TD) : Prop :=
  td = reset ∨ ∃ prev xid ptr undo, env.fetchUndoRecord xid ptr = some undo ∧
    undo.tdPreXid ≠ prev.xid ∧ td = rollbackTdInfo prev undo

/-- Rolling a TD back ends at a TD of another transaction or at a free one. -/
lemma rollbackLoop_rolledBack {xid : Xid} (fuel : ℕ) {td : TD} (hx : td.xid = xid)
    (h : rollbackLoop env xid fuel td = some td') : RolledBack env td' := by
  induction fuel generalizing td with
  | zero => simp [rollbackLoop, hx] at h
  | succ fuel ih =>
    rw [rollbackLoop, if_pos hx] at h
    cases hf : env.fetchUndoRecord xid td.undoRecPtr with
    | none =>
      simp only [hf, some.injEq] at h
      exact Or.inl h.symm
    | some undo =>
      simp only [hf] at h
      by_cases hpre : undo.tdPreXid = xid
      · exact ih hpre h
      · -- the loop stops at the first record of the transaction
        have hstop : rollbackLoop env xid fuel (td.rollbackTdInfo undo) =
            some (td.rollbackTdInfo undo) := by
          cases fuel <;> exact if_neg hpre
        rw [hstop, some.injEq] at h
        exact Or.inr ⟨td, xid, td.undoRecPtr, undo, hf, by rw [hx]; exact hpre, h.symm⟩

/-- After the rollback of an aborted owner no owner is aborted. -/
lemma settleTd_spec (fuel : ℕ) {td : TD} (h : settleTd env ctx fuel td = some td') :
    abortedTd env ctx td' = false ∧ (td' = td ∨ RolledBack env td') := by
  induction fuel generalizing td with
  | zero => simp [settleTd] at h
  | succ fuel ih =>
    rw [settleTd] at h
    split_ifs at h with hab
    · cases hr : td.rollbackTdToPreTxn env fuel with
      | none => simp [hr] at h
      | some t =>
        simp only [hr] at h
        obtain ⟨hna, hcase⟩ := ih h
        refine ⟨hna, Or.inr ?_⟩
        rcases hcase with rfl | hrb
        · exact rollbackLoop_rolledBack fuel rfl hr
        · exact hrb
    · simp only [some.injEq] at h
      subst h
      exact ⟨by simpa using hab, Or.inl rfl⟩

/-- An owner that is examined and found aborted. -/
lemma abortedTd_eq_true :
    abortedTd env ctx td ↔ td.xid ≠ invalidXid ∧ skipRemote env ctx td.xid = false ∧
      (td.xidStatus env).status = .aborted := by
  simp [abortedTd, and_assoc]

/-- A status read through the TD says aborted only if the transaction has aborted. -/
lemma query_of_abortedTd (h : (td.xidStatus env).status = .aborted) :
    (env.queryXidStatus td.xid).status = .aborted ∧ td.status ≠ .unoccupyAndPruneable := by
  unfold TD.xidStatus at h
  split_ifs at h with hc hs
  exact ⟨h, hs⟩

variable {fuel : ℕ}

section

variable {env : TxnEnv}
  {ctx : TDAllocContext}
  {td td' : TD}
  (h : settleTd env ctx fuel td = some td')
include h

/-- A TD whose owner has not aborted is left alone. -/
lemma settleTd_of_not_aborted
    (hab : abortedTd env ctx td = false) : td' = td := by
  cases fuel with
  | zero => simp [settleTd] at h
  | succ fuel =>
    rw [settleTd, hab] at h
    exact (some.inj h).symm

/-- After the rollback the aborted transaction no longer owns the TD, and a TD without owner
is as good as reset. -/
lemma settleTd_of_aborted (hundo : UndoSane env) (hab : abortedTd env ctx td) :
    td'.xid ≠ td.xid ∧ (td'.xid = invalidXid →
      td'.undoRecPtr = invalidUndoRecPtr ∧ td'.status = .unoccupyAndPruneable) := by
  obtain ⟨hna, hcase⟩ := settleTd_spec fuel h
  obtain ⟨hvalid, hskip, hst⟩ := abortedTd_eq_true.mp hab
  rcases hcase with rfl | rfl | ⟨prev, xid, ptr, undo, hf, hne, rfl⟩
  · simp [hab] at hna
  · exact ⟨fun hx => hvalid hx.symm, fun _ => ⟨rfl, rfl⟩⟩
  · have hxid : (prev.rollbackTdInfo undo).xid = undo.tdPreXid := rfl
    refine ⟨fun hx => ?_, fun hx => ⟨hundo.empty _ _ _ hf hx, if_pos hx⟩⟩
    -- the same transaction again would have to carry a commit hint
    have hpre : undo.tdPreXid = td.xid := hx
    have hstatus : (prev.rollbackTdInfo undo).status = .occupyTrxEnd := by
      simp only [rollbackTdInfo]
      rw [if_neg (by rw [hpre]; exact hvalid), if_pos hne]
    have hquery := (query_of_abortedTd hst).1
    rw [← hpre] at hquery
    refine hundo.hint _ _ _ hf ?_ hquery
    by_contra hcur
    have hxs : ((prev.rollbackTdInfo undo).xidStatus env).status = .aborted := by
      rw [TD.xidStatus,
        if_neg (show ¬ (prev.rollbackTdInfo undo).csnStatus = .isCurXidCsn from hcur),
        if_neg (by rw [hstatus]; decide)]
      exact hquery
    have : abortedTd env ctx (prev.rollbackTdInfo undo) :=
      abortedTd_eq_true.mpr ⟨by rw [hx]; exact hvalid, by rw [hx]; exact hskip, hxs⟩
    simp [this] at hna

end

/-! ## When one TD is replayed right -/

section Replay

variable {env : TxnEnv} {ctx : TDAllocContext} {c e : Bool}

/-- A TD that is not reset keeps its owner and is marked as ended. -/
lemma availTd_kept_owner {b u : Bool} (hbu : (b && u) = false)
    (h : td.status ≠ .unoccupyAndPruneable) :
    (availTd b (some u) td).xid = td.xid ∧
      (availTd b (some u) td).undoRecPtr = td.undoRecPtr ∧
      (availTd b (some u) td).status = .occupyTrxEnd := by
  simp [availTd, hbu, h]

lemma availTd_kept_of_unoccupied (h : td.status = .unoccupyAndPruneable) :
    availTd false (some true) td = td := by
  simp [availTd, h]

lemma availTd_reset (td : TD) : availTd true (some true) td = reset := by
  simp [availTd]

/-- An xid stays or goes. -/
lemma availTd_xid_or (b : Bool) (r : Option Bool) (td : TD) :
    (availTd b r td).xid = td.xid ∨ (availTd b r td).xid = invalidXid := by
  cases r with
  | none => exact Or.inl rfl
  | some u =>
    simp only [availTd]
    split_ifs
    · exact Or.inr rfl
    · exact Or.inl rfl
    · exact Or.inl rfl

lemma availTd_kept_xid {b u : Bool} (hbu : (b && u) = false) (td : TD) :
    (availTd b (some u) td).xid = td.xid := by
  simp only [availTd, hbu, Bool.false_eq_true, if_false]
  split_ifs <;> rfl

/-- Redo that keeps the owner does not agree with a run that had another one. -/
lemma availTd_not_sameOwner {u : Bool} {run : TD} (hkept : (e && u) = false)
    (hvalid : td.xid ≠ invalidXid) (hne : run.xid ≠ td.xid) :
    ¬ (availTd c (some u) run).SameOwner (availTd e (some u) td) := by
  rintro ⟨h, -⟩
  rw [availTd_kept_xid hkept td] at h
  rcases availTd_xid_or c (some u) run with hrun | hrun
  · exact hne (hrun.symm.trans h)
  · exact hvalid (h.symm.trans hrun)

/-- A TD with an xid is occupied. -/
lemma TD.CheckSanity.occupied (h : td.CheckSanity) (hvalid : td.xid ≠ invalidXid) :
    td.status ≠ .unoccupyAndPruneable := fun hs => hvalid (h.1 hs).1

/-- A TD without xid and locker is not. -/
lemma TD.CheckSanity.unoccupied (h : td.CheckSanity) (hx : td.xid = invalidXid)
    (hl : td.lockerXid = invalidXid) : td.status = .unoccupyAndPruneable := by
  cases hs : td.status with
  | unoccupyAndPruneable => rfl
  | occupyTrxInProgress =>
    rcases h.2.1 hs with h | h
    · exact absurd hl h
    · exact absurd hx h.1
  | occupyTrxEnd => exact absurd hx (h.2.2.1 hs).1

/-- A TD with an owner is still occupied after the scan. -/
lemma scanTd_occupied (hsane : td.Sane) (hvalid : td.xid ≠ invalidXid)
    (hstatus : (scanTd env ctx td).td.status = td.status ∨
      (scanTd env ctx td).td.status = .occupyTrxEnd) :
    (scanTd env ctx td).td.status ≠ .unoccupyAndPruneable := by
  rcases hstatus with h | h <;> rw [h]
  · exact hsane.1.occupied hvalid
  · decide

/-- A TD recycled as empty ends up unoccupied, whether it is reset or kept. -/
lemma availTd_empty_sameOwner (hsane : td.Sane) (hx : td.xid = invalidXid)
    (hxid : (scanTd env ctx td).td.xid = td.xid)
    (hundo : (scanTd env ctx td).td.undoRecPtr = td.undoRecPtr)
    (hstatus : (scanTd env ctx td).td.status = .unoccupyAndPruneable ∨
      td.lockerXid = invalidXid ∧ (scanTd env ctx td).td.status = td.status) :
    (availTd c (some true) (scanTd env ctx td).td).SameOwner reset := by
  have hfree : (scanTd env ctx td).td.status = .unoccupyAndPruneable := by
    rcases hstatus with h | ⟨hl, h⟩
    · exact h
    · rw [h]
      exact hsane.1.unoccupied hx hl
  cases c with
  | true =>
    rw [availTd_reset]
    exact ⟨rfl, rfl, rfl⟩
  | false =>
    rw [availTd_kept_of_unoccupied hfree]
    exact ⟨by rw [hxid, hx]; rfl, by rw [hundo, hsane.2 hx]; rfl, hfree⟩

/-- The replay of a TD whose owner is not aborted. -/
lemma sameOwner_iff_of_sane (hsane : td.Sane) (hce : c → e = false) :
    (availTd c (scanTd env ctx td).recycle (scanTd env ctx td).td).SameOwner
        (availTd e (scanTd env ctx td).recycle td) ↔ (FrozenTd env ctx td → c = false ∧ e = false) ∧
      (EmptyTd env ctx td → e ∨ td.status = .unoccupyAndPruneable) := by
  rcases (scanTd_spec env ctx td).1 with
    ⟨hrec, hsame, hfro, hemp⟩ | ⟨hrec, hxid, hundo, hstatus, hvalid, hfro⟩ |
    ⟨hrec, hxid, hundo, hstatus, hfro⟩ | ⟨hrec, hxid, hundo, hstatus, hemp⟩
  · simp [hrec, availTd, hsame, hfro, hemp]
  · -- recycled as committed: both sides mark the TD ended
    have hocc := hsane.1.occupied hvalid
    obtain ⟨h1, h2, h3⟩ := availTd_kept_owner c.and_false (scanTd_occupied hsane hvalid hstatus)
    obtain ⟨h1', h2', h3'⟩ := availTd_kept_owner e.and_false hocc
    have hempty : ¬ EmptyTd env ctx td := fun h => hvalid h.1
    simp [hrec, SameOwner, h1, h2, h3, h1', h2', h3', hxid, hundo, hfro, hempty]
  · -- recycled as frozen: the sides agree only if neither resets the TD
    have hvalid := hfro.1
    have hempty : ¬ EmptyTd env ctx td := fun h => hvalid h.1
    have hkept := Bool.false_and true
    obtain ⟨h1, h2, h3⟩ := availTd_kept_owner hkept (scanTd_occupied hsane hvalid hstatus)
    obtain ⟨h1', h2', h3'⟩ := availTd_kept_owner hkept (hsane.1.occupied hvalid)
    cases c with
    | true =>
      have he : e = false := hce rfl
      subst he
      simp [hrec, SameOwner, availTd_reset, h1', reset, Ne.symm hvalid, hfro]
    | false =>
      cases e with
      | true => simp [hrec, SameOwner, availTd_reset, h1, hxid, reset, hvalid, hfro]
      | false =>
        simp [hrec, SameOwner, h1, h2, h3, h1', h2', h3', hxid, hundo, hempty]
  · -- recycled as empty: the run leaves the TD unoccupied in every case
    have hx := hemp.1
    have hfrozen : ¬ FrozenTd env ctx td := fun h => h.1 hx
    have hu := hsane.2 hx
    have hdo := availTd_empty_sameOwner (c := c) hsane hx hxid hundo hstatus
    rw [hrec]
    cases e with
    | true => simp [availTd_reset, hdo, hfrozen]
    | false =>
      by_cases hs : td.status = .unoccupyAndPruneable
      · simp only [availTd_kept_of_unoccupied hs, hs, hfrozen, false_implies, or_true,
          implies_true, and_self, iff_true]
        exact ⟨hdo.1.trans hx.symm, hdo.2.1.trans hu.symm, hdo.2.2.trans hs.symm⟩
      · obtain ⟨-, -, h3'⟩ := availTd_kept_owner (Bool.false_and true) hs
        simp [SameOwner, hdo.2.2, h3', reset, hs, hfrozen, hemp]

/-- The replay of a TD whose owner is aborted: `std` is the TD the run rolled it back to,
`td` the one redo works on. -/
lemma sameOwner_iff_of_aborted {td : TD} (hvalid : td.xid ≠ invalidXid) (hne : std.xid ≠ td.xid)
    (hempty : std.xid = invalidXid →
      std.undoRecPtr = invalidUndoRecPtr ∧ std.status = .unoccupyAndPruneable)
    (hce : c → e = false) :
    (availTd c (scanTd env ctx std).recycle (scanTd env ctx std).td).SameOwner
        (availTd e (scanTd env ctx std).recycle td) ↔
      EmptyTd env ctx std ∧ e := by
  have hc : e = true → c = false := by
    rintro rfl
    simpa using hce
  rcases (scanTd_spec env ctx std).1 with
    ⟨hrec, hsame, hfro, hemp⟩ | ⟨hrec, hx, hundo, hstatus, hv, hfro⟩ |
    ⟨hrec, hx, hundo, hstatus, hfro⟩ | ⟨hrec, hx, hundo, hstatus, hemp⟩
  · simp only [hrec, availTd, hemp, false_and, iff_false]
    intro h
    exact hne (hsame.1.symm.trans h.1)
  · have hemp : ¬ EmptyTd env ctx std := fun h => hv h.1
    simp only [hemp, false_and, iff_false, hrec]
    exact availTd_not_sameOwner e.and_false hvalid (hx ▸ hne)
  · have hv := hfro.1
    have hemp : ¬ EmptyTd env ctx std := fun h => hv h.1
    simp only [hemp, false_and, iff_false, hrec]
    cases e with
    | true =>
      intro h
      rw [availTd_reset, hc rfl] at h
      exact hv (hx.symm.trans ((availTd_kept_xid rfl _).symm.trans h.1))
    | false => exact availTd_not_sameOwner rfl hvalid (hx ▸ hne)
  · obtain ⟨hu, hs⟩ := hempty hemp.1
    have hun : (scanTd env ctx std).td.status = .unoccupyAndPruneable := by
      rcases hstatus with h | ⟨-, h⟩
      · exact h
      · rw [h]; exact hs
    rw [hrec]
    simp only [hemp, true_and]
    cases e with
    | true =>
      rw [availTd_reset, hc rfl, availTd_kept_of_unoccupied hun]
      simp only [iff_true]
      exact ⟨by rw [hx, hemp.1]; rfl, by rw [hundo, hu]; rfl, hun⟩
    | false =>
      simp only [Bool.false_eq_true, iff_false]
      exact availTd_not_sameOwner rfl hvalid (hx ▸ hne)

end Replay

/-! ## The whole allocation -/

section Alloc

variable (env : TxnEnv) (ctx : TDAllocContext)

/-- The recycle entries of the settled TDs. -/
def recycles (settled : List TD) : List (Option Bool) :=
  settled.map fun td => (scanTd env ctx td).recycle

/-- `canResetTd` at the end of the scan. -/
def canReset (settled : List TD) : Bool :=
  settled.all fun td => (scanTd env ctx td).canResetTd

/-- `existTxnInProgress` as redo computes it from the log. -/
def existInProgress (settled : List TD) : Bool :=
  settled.any fun td => (scanTd env ctx td).xidStatus = .inProgress

/-- The TD array the run leaves, before it is extended. -/
def doTds (settled : List TD) : List TD :=
  List.zipWith (availTd (canReset env ctx settled)) (recycles env ctx settled)
    (settled.map fun td => (scanTd env ctx td).td)

/-- The TD array redo leaves, before it is extended and up to csn hints. -/
def redoTds (settled tds : List TD) : List TD :=
  List.zipWith (availTd (existInProgress env ctx settled)) (recycles env ctx settled) tds

/-- The page with its tuples refreshed for the recycled TDs. -/
abbrev refreshed (page : DataPage) (settled : List TD) : DataPage :=
  page.refreshTupleTdStatus (recycleList 0 (recycles env ctx settled))

variable {env ctx}

variable {tds settled : List TD} {page page' : DataPage} {ctx' : TDAllocContext} {tdId : ℕ}

/-- The TDs of a page are settled one by one. -/
lemma settleTds_forall₂ (h : settleTds env ctx fuel tds = some settled) :
    List.Forall₂ (fun td std => settleTd env ctx fuel td = some std) tds settled := by
  induction tds generalizing settled with
  | nil =>
    simp only [settleTds, some.injEq] at h
    subst h
    exact .nil
  | cons td tds ih =>
    simp only [settleTds] at h
    cases h1 : settleTd env ctx fuel td with
    | none => simp [h1] at h
    | some std =>
      cases h2 : settleTds env ctx fuel tds with
      | none => simp [h1, h2] at h
      | some stds =>
        simp only [h1, h2, some.injEq] at h
        subst h
        exact .cons h1 (ih h2)

/-- Without aborted owners nothing is rolled back. -/
lemma settled_eq {fuel : ℕ}
    (hset : List.Forall₂ (fun td std => settleTd env ctx fuel td = some std) tds settled)
    (hab : ∀ td ∈ tds, abortedTd env ctx td = false) : settled = tds := by
  induction hset with
  | nil => rfl
  | cons h hset ih =>
    rw [forall_mem_cons] at hab
    rw [ih hab.2, settleTd_of_not_aborted h hab.1]

/-- Nothing is recycled, and no TD changes. -/
lemma zipWith_availTd_none {c : Bool} {k : ℕ} {rs : List (Option Bool)}
    (hnil : recycleList k rs = []) (hlen : rs.length = tds.length) :
    zipWith (availTd c) rs tds = tds := by
  induction rs generalizing k tds with
  | nil => simpa using (length_eq_zero_iff.mp hlen.symm).symm
  | cons r rs ih =>
    obtain ⟨td, tds, rfl⟩ := exists_cons_of_length_eq_add_one hlen.symm
    cases r with
    | none =>
      rw [zipWith_cons_cons, ih hnil (by simpa using hlen)]
      rfl
    | some unused => simp [recycleList] at hnil

lemma DataPage.refreshTupleTdStatus_nil (page : DataPage) :
    page.refreshTupleTdStatus [] = page := by
  have hone : ∀ (page : DataPage) (off : ℕ),
      refreshTuple [] page off = page := by
    intro page off
    unfold refreshTuple
    dsimp only [refreshSlots]
    split_ifs <;> rfl
  exact foldl_fixed' (hone page) _

/-- `GetAvailableTd` picks one of the recycled TDs. -/
lemma DataPage.getAvailableTd_snd (page : DataPage) (slots : List TdRecycleStatus) (c : Bool) :
    (page.getAvailableTd slots c).2 = invalidTdSlot ∨
      ∃ slot ∈ slots, slot.id = (page.getAvailableTd slots c).2 := by
  have hall := foldlRecOn (motive := fun st : AvailState => ∀ id, id = st.firstReusableTdSlot ∨
      id = st.firstCommitTdSlot → id = invalidTdSlot ∨ ∃ slot ∈ slots, slot.id = id)
    (b := ⟨page.tds, invalidTdSlot, invalidTdSlot, maxCommitSeqNo⟩) slots (availStep c)
    (fun id hid => Or.inl (or_self_iff.mp hid)) (by
      intro st h slot hmem id hid
      have hslot : id = slot.id → id = invalidTdSlot ∨ ∃ slot ∈ slots, slot.id = id := fun heq =>
        Or.inr ⟨slot, hmem, heq.symm⟩
      unfold availStep at hid
      dsimp only at hid
      split_ifs at hid
      all_goals
        rcases hid with hid | hid
        all_goals first
          | exact hslot hid
          | exact h id (Or.inl hid)
          | exact h id (Or.inr hid))
  rw [getAvailableTd]
  dsimp only
  split
  · exact hall _ (Or.inl rfl)
  · exact hall _ (Or.inr rfl)

/-- What `TryReuseTdSlots` leaves, whether or not it found something to recycle. -/
lemma tryReuseTdSlots_spec (h : page.tryReuseTdSlots env ctx fuel = some (page', ctx', tdId)) :
    ∃ settled, settleTds env ctx fuel page.tds = some settled ∧
      page' = (refreshed env ctx page settled).withTds (doTds env ctx settled) ∧
      (tdId = invalidTdSlot ∨ ∃ slot ∈ recycleList 0 (recycles env ctx settled), slot.id = tdId) ∧
      ctx'.xidStatus = (settled.map fun td => (scanTd env ctx td).xidStatus) ∧
      ctx'.extendNum = ctx.extendNum ∧
      ctx'.isDirty = (ctx.isDirty || recycleList 0 (recycles env ctx settled) ≠ []) := by
  have hwait : ∀ (xids : List Xid) (ctx : TDAllocContext),
      (xids.foldl addTdReuseWaitXid ctx).xidStatus = ctx.xidStatus ∧
      (xids.foldl addTdReuseWaitXid ctx).extendNum = ctx.extendNum ∧
      (xids.foldl addTdReuseWaitXid ctx).isDirty = ctx.isDirty := by
    intro xids ctx
    refine foldlRecOn (motive := fun c : TDAllocContext => c.xidStatus = ctx.xidStatus ∧
      c.extendNum = ctx.extendNum ∧ c.isDirty = ctx.isDirty) xids _ ⟨rfl, rfl, rfl⟩
      fun c h xid _ => ?_
    unfold addTdReuseWaitXid
    split_ifs <;> exact h
  unfold tryReuseTdSlots at h
  cases hs : settleTds env ctx fuel page.tds with
  | none => simp [hs] at h
  | some settled =>
    refine ⟨settled, rfl, ?_⟩
    simp only [hs, List.map_map, Function.comp_def] at h
    change (if recycleList 0 (recycles env ctx settled) = [] then _ else _) = _ at h
    set mid : DataPage := page.withTds (settled.map fun td => (scanTd env ctx td).td) with hmid
    obtain ⟨hw1, hw2, hw3⟩ := hwait
      ((settled.map (scanTd env ctx)).filterMap TdScan.waitXid)
      { ctx with xidStatus := settled.map fun td => (scanTd env ctx td).xidStatus }
    have hlen : (settled.map fun td => (scanTd env ctx td).td).length =
        (recycles env ctx settled).length := by simp [recycles]
    split_ifs at h with hnil
    · simp only [Option.some.injEq, Prod.mk.injEq] at h
      obtain ⟨rfl, rfl, rfl⟩ := h
      refine ⟨?_, Or.inl rfl, hw1, hw2, by rw [hw3, hnil]; simp⟩
      rw [refreshed, hnil, refreshTupleTdStatus_nil, doTds,
        zipWith_availTd_none hnil hlen.symm]
      rfl
    · simp only [Option.some.injEq, Prod.mk.injEq] at h
      obtain ⟨rfl, rfl, rfl⟩ := h
      refine ⟨?_, getAvailableTd_snd _ _ _, hw1, hw2, by simp [hnil]⟩
      change ((mid.refreshTupleTdStatus (recycleList 0 (recycles env ctx settled))).getAvailableTd
        _ _).1 = _
      rw [hmid, refreshTupleTdStatus_withTds]
      rw [getAvailableTd_fst _ _ _ hlen]
      simp only [withTds_tds, doTds, canReset, List.all_map, Function.comp_def]
      rfl

lemma appendTds_zero (page : DataPage) : page.appendTds 0 = page := by
  rw [appendTds, replicate_zero, append_nil]

/-- An extension has room for its TDs and stays below the maximum. -/
lemma numExtended_room {num : ℕ} (h : page.numExtended = some num) :
    page.tdCount + num ≤ maxTdCount ∧ num * sizeofTd ≤ page.getFreeSpaceRaw ∧ num ≠ 0 := by
  unfold numExtended at h
  dsimp only at h
  split_ifs at h with hmax hfew hone
  all_goals
    simp only [some.injEq] at h
    simp only [maxTdCount, sizeofTd] at *
    omega

/-- Steps 2 to 4 of `DoAllocTd`: the page is refreshed and extended by `num` TDs, and the
record says so. -/
lemma reuseOrExtendTd_spec (hext : ctx.extendNum = 0) (hdirty : ctx.isDirty = false)
    (h : page.reuseOrExtendTd env ctx fuel = some (page', ctx', tdId)) :
    ∃ settled num, settleTds env ctx fuel page.tds = some settled ∧
      page' = ((refreshed env ctx page settled).withTds (doTds env ctx settled)).appendTds num ∧
      ctx'.xidStatus = (settled.map fun td => (scanTd env ctx td).xidStatus) ∧
      ctx'.extendNum = num ∧
      (ctx'.isDirty ↔ recycleList 0 (recycles env ctx settled) ≠ [] ∨ num ≠ 0) ∧
      (num ≠ 0 → (doTds env ctx settled).length + num ≤ maxTdCount ∧
        num * sizeofTd ≤
          ((refreshed env ctx page settled).withTds (doTds env ctx settled)).getFreeSpaceRaw) := by
  unfold reuseOrExtendTd at h
  cases hr : page.tryReuseTdSlots env ctx fuel with
  | none => simp [hr] at h
  | some r =>
    obtain ⟨p1, c1, id1⟩ := r
    obtain ⟨settled, hset, hp, -, hst, hnum, hd⟩ := tryReuseTdSlots_spec hr
    have hd' : c1.isDirty ↔ recycleList 0 (recycles env ctx settled) ≠ [] := by
      simp [hd, hdirty]
    simp only [hr] at h
    split_ifs at h with hid
    · simp only [some.injEq, Prod.mk.injEq] at h
      obtain ⟨rfl, rfl, -⟩ := h
      exact ⟨settled, 0, hset, by rw [appendTds_zero, hp], hst, hnum.trans hext, by simp [hd'],
        fun h => absurd rfl h⟩
    · unfold DataPage.extendTd at h
      cases hn : p1.numExtended with
      | none =>
        simp only [hn, some.injEq, Prod.mk.injEq] at h
        obtain ⟨rfl, rfl, -⟩ := h
        exact ⟨settled, 0, hset, by rw [appendTds_zero, hp], hst, hnum.trans hext, by simp [hd'],
          fun h => absurd rfl h⟩
      | some num =>
        simp only [hn, some.injEq, Prod.mk.injEq] at h
        obtain ⟨rfl, rfl, -⟩ := h
        obtain ⟨hroom, hfree, hne⟩ := numExtended_room hn
        subst hp
        exact ⟨settled, num, hset, rfl, hst, rfl, by simp [hne], fun _ => ⟨hroom, hfree⟩⟩

lemma forall₂_sameOwner_refl (tds : List TD) : List.Forall₂ SameOwner tds tds :=
  forall₂_same.mpr fun _ _ => ⟨rfl, rfl, rfl⟩

/-- What `SameOwner` compares. -/
def TD.owner (td : TD) : Xid × UndoRecPtr × TDStatus := (td.xid, td.undoRecPtr, td.status)

lemma forall₂_sameOwner_iff {tds' : List TD} :
    List.Forall₂ SameOwner tds tds' ↔ tds.map TD.owner = tds'.map TD.owner := by
  rw [← forall₂_eq_eq_eq, forall₂_map_left_iff, forall₂_map_right_iff]
  simp only [TD.owner, Prod.mk.injEq]
  rfl

/-- A csn hint does not change the owner. -/
lemma forall₂_sameOwner_set (tds : List TD) (i : ℕ) (csn : ℕ) (cs : TdCsnStatus) :
    List.Forall₂ SameOwner tds
      (tds.set i { tds.getD i reset with csn := csn, csnStatus := cs }) := by
  rw [forall₂_sameOwner_iff, map_set]
  show _ = (tds.map TD.owner).set i (tds.getD i reset).owner
  rw [← map_set, set_getD_self]

variable (env ctx) in
/-- What redo makes of the status array, before it extends the TD array. -/
lemma redoReuse_spec (page : DataPage) (settled : List TD)
    (hlen : page.tds.length = settled.length) :
    ∃ tds, redoReuse page (settled.map fun td => (scanTd env ctx td).xidStatus) =
        (refreshed env ctx page settled).withTds tds ∧
      List.Forall₂ SameOwner (redoTds env ctx settled page.tds) tds := by
  have hrs : (settled.map fun td => (scanTd env ctx td).xidStatus).map recycleOfStatus =
      recycles env ctx settled := by
    rw [List.map_map, recycles]
    exact List.map_congr_left fun td _ => (scanTd_spec env ctx td).2.recycle.symm
  have hex : (settled.map fun td => (scanTd env ctx td).xidStatus).any (· = .inProgress) =
      existInProgress env ctx settled := by
    rw [List.any_map]; rfl
  have hlen' : page.tds.length = (recycles env ctx settled).length := by simpa [recycles] using hlen
  unfold redoReuse
  simp only [hrs, hex]
  split_ifs with hnil hid
  · refine ⟨page.tds, ?_, ?_⟩
    · rw [refreshed, hnil, refreshTupleTdStatus_nil]; rfl
    · rw [redoTds, zipWith_availTd_none hnil hlen'.symm]
      exact forall₂_sameOwner_refl _
  all_goals
    have hfst := getAvailableTd_fst (refreshed env ctx page settled) (recycles env ctx settled)
      (existInProgress env ctx settled) (by rw [refreshTupleTdStatus_tds]; exact hlen')
    rw [refreshTupleTdStatus_tds] at hfst
    rw [hfst]
  · exact ⟨_, rfl, forall₂_sameOwner_set _ _ _ _⟩
  · exact ⟨_, rfl, forall₂_sameOwner_refl _⟩

end Alloc

/-- The two pages agree on everything a TD allocation writes, csn hints and lockers of TDs
apart. -/
structure SameTdState (page page' : DataPage) : Prop where
  tdCount : page.tdCount = page'.tdCount
  tds : List.Forall₂ SameOwner page.tds page'.tds
  tdStatus : ∀ offset, 1 ≤ offset → offset ≤ page.getMaxOffset →
    page.getTupleTdStatus offset = page'.getTupleTdStatus offset
  lockerTdId : ∀ offset, 1 ≤ offset → offset ≤ page.getMaxOffset →
    page.getTupleLockerTdId offset = page'.getTupleLockerTdId offset

section Main

variable (env : TxnEnv) (ctx : TDAllocContext)

/-- When the TD `td`, settled to `std`, comes out of redo as it came out of the run. An
aborted owner must be rolled back to nothing while another transaction is running; a frozen
owner must be kept by both sides, which happens only when no owner is running and some TD
was skipped as remote; an empty TD must be unoccupied already, or some owner running. -/
def TdRedoOk (settled : List TD) (td std : TD) : Prop :=
  if abortedTd env ctx td then
    EmptyTd env ctx std ∧ ∃ t ∈ settled, InProgressTd env ctx t
  else
    (FrozenTd env ctx td → (¬ ∃ t ∈ settled, InProgressTd env ctx t) ∧
      ∃ t ∈ settled, SkippedTd env ctx t) ∧
    (EmptyTd env ctx td → (∃ t ∈ settled, InProgressTd env ctx t) ∨
      td.status = .unoccupyAndPruneable)

variable {env ctx}

variable {tds settled : List TD} {page page' : DataPage} {ctx' : TDAllocContext} {tdId : ℕ}

variable (env ctx) in
/-- The flag that redo computes says that some owner is running. -/
lemma existInProgress_iff (settled : List TD) :
    existInProgress env ctx settled ↔ ∃ t ∈ settled, InProgressTd env ctx t := by
  simp only [existInProgress, List.any_eq_true, decide_eq_true_eq]
  exact exists_congr fun t => and_congr_right fun _ => (scanTd_spec env ctx t).2.inProgress

variable (env ctx) in
/-- The run resets no TD while an owner is running or was skipped as remote. -/
lemma canReset_eq_false_iff (settled : List TD) :
    canReset env ctx settled = false ↔
      (∃ t ∈ settled, InProgressTd env ctx t) ∨ ∃ t ∈ settled, SkippedTd env ctx t := by
  simp only [canReset, List.all_eq_false, Bool.not_eq_true]
  constructor
  · rintro ⟨t, ht, h⟩
    rcases (scanTd_spec env ctx t).2.canResetTd.mp h with h | h
    · exact Or.inl ⟨t, ht, h⟩
    · exact Or.inr ⟨t, ht, h⟩
  · rintro (⟨t, ht, h⟩ | ⟨t, ht, h⟩)
    · exact ⟨t, ht, (scanTd_spec env ctx t).2.canResetTd.mpr (Or.inl h)⟩
    · exact ⟨t, ht, (scanTd_spec env ctx t).2.canResetTd.mpr (Or.inr h)⟩

/-- One TD comes out alike exactly when `TdRedoOk` holds. -/
lemma sameOwner_iff_tdRedoOk (hundo : UndoSane env) (settled : List TD) {td : TD} (hsane : td.Sane)
    (hset : settleTd env ctx fuel td = some std) :
    (availTd (canReset env ctx settled) (scanTd env ctx std).recycle
        (scanTd env ctx std).td).SameOwner
      (availTd (existInProgress env ctx settled) (scanTd env ctx std).recycle td) ↔
    TdRedoOk env ctx settled td std := by
  have hex := existInProgress_iff env ctx settled
  have hcan := canReset_eq_false_iff env ctx settled
  have hce : canReset env ctx settled = true → existInProgress env ctx settled = false := by
    intro hc
    by_contra he
    have he' := hex.mp (by simpa using he)
    simp [hcan.mpr (Or.inl he')] at hc
  unfold TdRedoOk
  split_ifs with hab
  · obtain ⟨hne, hempty⟩ := settleTd_of_aborted hset hundo hab
    rw [sameOwner_iff_of_aborted (abortedTd_eq_true.mp hab).1 hne hempty hce, hex]
  · obtain rfl := settleTd_of_not_aborted hset (Bool.eq_false_of_not_eq_true hab)
    rw [sameOwner_iff_of_sane hsane hce, hex, hcan]
    have he : existInProgress env ctx settled = false ↔
        ¬ ∃ t ∈ settled, InProgressTd env ctx t := by rw [← hex]; simp
    rw [he]
    refine and_congr (imp_congr_right fun _ => ?_) Iff.rfl
    constructor
    · rintro ⟨h1, h2⟩
      exact ⟨h2, h1.resolve_left h2⟩
    · rintro ⟨h1, h2⟩
      exact ⟨Or.inr h2, h1⟩

/-- Run and redo agree on a page exactly if they agree on each TD. -/
lemma doTds_sameOwner_redoTds_iff (hundo : UndoSane env) (all : List TD)
    (hsane : ∀ td ∈ tds, td.Sane)
    (hset : List.Forall₂ (fun td std => settleTd env ctx fuel td = some std) tds settled) :
    List.Forall₂ SameOwner
      (zipWith (availTd (canReset env ctx all)) (recycles env ctx settled)
        (settled.map fun td => (scanTd env ctx td).td))
      (zipWith (availTd (existInProgress env ctx all)) (recycles env ctx settled) tds) ↔
    List.Forall₂ (TdRedoOk env ctx all) tds settled := by
  induction hset with
  | nil => simp [recycles]
  | cons h hset ih =>
    have ih' := ih fun td htd => hsane td (by simp [htd])
    simp only [recycles, map_cons, zipWith_cons_cons, forall₂_cons] at ih' ⊢
    rw [sameOwner_iff_tdRedoOk hundo all (hsane _ (by simp)) h, ih']

/-- Redo ends with the tuples the run left and a TD array that is `redoTds` up to csn
hints, extended as the run extended it. -/
lemma redoAllocTdWal_spec {num : ℕ} (hlen : page.tds.length = settled.length)
    (hst : ctx'.xidStatus = settled.map fun td => (scanTd env ctx td).xidStatus)
    (hnum : ctx'.extendNum = num)
    (hdirty : ctx'.isDirty ↔ recycleList 0 (recycles env ctx settled) ≠ [] ∨ num ≠ 0)
    (hroom : num ≠ 0 → (doTds env ctx settled).length + num ≤ maxTdCount ∧
      num * sizeofTd ≤
        ((refreshed env ctx page settled).withTds (doTds env ctx settled)).getFreeSpaceRaw) :
    ∃ tds, redoAllocTdWal (setAllocTdWal ctx') page =
        some (((refreshed env ctx page settled).withTds tds).appendTds num) ∧
      List.Forall₂ SameOwner (redoTds env ctx settled page.tds) tds := by
  have hdolen : (doTds env ctx settled).length = settled.length := by simp [doTds, recycles]
  have hredolen : (redoTds env ctx settled page.tds).length = settled.length := by
    simp [redoTds, recycles, hlen]
  set base := refreshed env ctx page settled with hbase
  by_cases hd : ctx'.isDirty
  · obtain ⟨tds, hreuse, htds⟩ := redoReuse_spec env ctx page settled hlen
    refine ⟨tds, ?_, htds⟩
    have htlen : tds.length = settled.length := htds.length_eq.symm.trans hredolen
    have hcheck : ¬ (settled.map fun td => (scanTd env ctx td).xidStatus).length ≠
        page.tdCount := by simp [tdCount, hlen]
    simp only [setAllocTdWal, hd, if_true, redoAllocTdWal, hst, hnum, if_neg hcheck, hreuse]
    by_cases hz : num = 0
    · rw [if_neg (by simp [hz]), hz, appendTds_zero]
    · obtain ⟨h1, h2⟩ := hroom hz
      have hfree : (base.withTds tds).getFreeSpaceRaw =
          (base.withTds (doTds env ctx settled)).getFreeSpaceRaw := by
        simp [getFreeSpaceRaw, lower, withTds, htlen, hdolen]
      rw [if_pos hz, redoExtendTdWal, if_neg, if_neg]
      · rw [hfree]; omega
      · rw [tdCount, withTds_tds, htlen, ← hdolen]; omega
  · -- nothing was logged, and nothing but hints was changed
    have hclean := (not_congr hdirty).mp hd
    have hnil : recycleList 0 (recycles env ctx settled) = [] := by
      by_contra h; exact hclean (Or.inl h)
    have hz : num = 0 := by by_contra h; exact hclean (Or.inr h)
    refine ⟨page.tds, ?_, ?_⟩
    · rw [hbase, refreshed, hnil, refreshTupleTdStatus_nil, hz, appendTds_zero]
      simp [setAllocTdWal, hd, redoAllocTdWal, withTds]
    · rw [redoTds, zipWith_availTd_none hnil (by simp [recycles, hlen])]
      exact forall₂_sameOwner_refl _

/-- Pages that differ in their TDs agree exactly if the TDs do. -/
lemma sameTdState_iff (base : DataPage) {tds' : List TD} (num : ℕ)
    (hlen : tds.length = tds'.length) :
    SameTdState ((base.withTds tds).appendTds num) ((base.withTds tds').appendTds num) ↔
      List.Forall₂ SameOwner tds tds' := by
  constructor
  · intro h
    have htds := h.tds
    simp only [appendTds, withTds_tds] at htds
    have htake := forall₂_take tds.length htds
    rwa [take_left, hlen, take_left] at htake
  · intro h
    exact
      { tdCount := by simp [tdCount, appendTds, hlen]
        tds := rel_append h (forall₂_sameOwner_refl _)
        tdStatus := fun _ _ _ => rfl
        lockerTdId := fun _ _ _ => rfl }

lemma forall₂_sameOwner_congr {l l1 l2 : List TD} (h : List.Forall₂ SameOwner l1 l2) :
    List.Forall₂ SameOwner l l2 ↔ List.Forall₂ SameOwner l l1 := by
  rw [forall₂_sameOwner_iff] at h
  rw [forall₂_sameOwner_iff, forall₂_sameOwner_iff, h]

/-- Redo of a TD allocation leaves the page as the allocation left it, csn hints apart,
exactly when every TD of the page satisfies `TdRedoOk`. -/
theorem redo_alloc_td_eq_do_iff (hundo : UndoSane env) (recycleMinCsn : ℕ)
    (tryLocalXidOnly : Bool) (fuel : ℕ) (page page' : DataPage) (ctx' : TDAllocContext)
    (tdId : ℕ) (hsane : ∀ td ∈ page.tds, td.Sane)
    (hdo : page.reuseOrExtendTd env (TDAllocContext.begin recycleMinCsn tryLocalXidOnly) fuel =
      some (page', ctx', tdId)) :
    (∃ page'', redoAllocTdWal (setAllocTdWal ctx') page = some page'' ∧
      SameTdState page' page'') ↔
    ∃ settled, settleTds env (TDAllocContext.begin recycleMinCsn tryLocalXidOnly) fuel page.tds =
        some settled ∧
      List.Forall₂ (TdRedoOk env (TDAllocContext.begin recycleMinCsn tryLocalXidOnly) settled)
        page.tds settled := by
  obtain ⟨settled, num, hset, rfl, hst, hnum, hdirty, hroom⟩ := reuseOrExtendTd_spec rfl rfl hdo
  have hforall := settleTds_forall₂ hset
  obtain ⟨tds, hredo, htds⟩ := redoAllocTdWal_spec hforall.length_eq hst hnum hdirty hroom
  have hlen : (doTds env (begin recycleMinCsn tryLocalXidOnly) settled).length =
      tds.length := by
    rw [← htds.length_eq]
    simp [doTds, redoTds, recycles, hforall.length_eq]
  calc (∃ page'', redoAllocTdWal (setAllocTdWal ctx') page = some page'' ∧ SameTdState _ page'')
      ↔ List.Forall₂ SameOwner
          (doTds env (begin recycleMinCsn tryLocalXidOnly) settled) tds := by
        simp only [hredo, Option.some.injEq, exists_eq_left', sameTdState_iff _ _ hlen]
    _ ↔ List.Forall₂ SameOwner
          (doTds env (begin recycleMinCsn tryLocalXidOnly) settled)
          (redoTds env (begin recycleMinCsn tryLocalXidOnly) settled page.tds) :=
        forall₂_sameOwner_congr htds
    _ ↔ List.Forall₂ (TdRedoOk env (begin recycleMinCsn tryLocalXidOnly) settled)
          page.tds settled := doTds_sameOwner_redoTds_iff hundo settled hsane hforall
    _ ↔ _ := by simp only [hset, Option.some.injEq, exists_eq_left']

/-- A TD that transaction 5 has written through. -/
def writtenTd : TD where
  xid := 5
  csn := invalidCsn
  undoRecPtr := ⟨⟨1, 7⟩, 40⟩
  lockerXid := invalidXid
  commandId := firstCid
  status := .occupyTrxInProgress
  csnStatus := .isInvalid

/-- A heap page with `writtenTd` and a tuple that is attached to it. -/
def writtenTdPage : DataPage where
  type := .heap
  selfPageId := ⟨1, 3⟩
  upper := blckSz - 32
  special := blckSz
  hasFreeItemId := false
  hasPrunableTuple := false
  hasPrunableItem := false
  tds := [writtenTd]
  items := [⟨.normal, blckSz - 32, 32⟩]
  mem := fun _ => 0
  potentialDelSize := 0
  recentDeadTupleMinCsn := invalidCsn

/-- Every transaction has the status `status`, with csn 3. -/
def uniformEnv (status : TrxSlotStatus) : TxnEnv where
  slotStatus := fun _ => ⟨status, 3⟩
  isXidRecycled := fun _ => true
  undoRecord := fun _ => ⟨invalidUndoRecPtr, firstCid, 0, invalidXid, invalidUndoRecPtr, invalidCsn,
    .isInvalid, .heapInsert⟩
  isZoneOwned := fun _ => true
  needWaitPendingTxn := fun _ => true
  waitForTransactionEnd := fun _ => none

/-- No undo record is found, so the condition on them holds. -/
lemma uniformEnv_undoSane (status : TrxSlotStatus) : UndoSane (uniformEnv status) := by
  constructor <;> intro xid ptr undo h <;> simp [uniformEnv, TxnEnv.fetchUndoRecord] at h

/-- While the owner is running the array is extended, and redo extends it alike. -/
theorem redo_alloc_td_of_running_owner :
    ∃ page' ctx', writtenTdPage.reuseOrExtendTd (uniformEnv .inProgress)
        (TDAllocContext.begin 10 false) 1 = some (page', ctx', 1) ∧
      ∃ page'', redoAllocTdWal (setAllocTdWal ctx') writtenTdPage = some page'' ∧
        SameTdState page' page'' := by
  refine ⟨_, _, rfl, (redo_alloc_td_eq_do_iff (uniformEnv_undoSane .inProgress) 10 false 1
    writtenTdPage _ _ 1 (by decide) rfl).mpr
      ⟨[writtenTd], rfl, List.Forall₂.cons ?_ List.Forall₂.nil⟩⟩
  · have hnot : ¬ FrozenTd (uniformEnv .inProgress) (begin 10 false) writtenTd := by
      intro h
      simpa [TD.xidStatus, TxnEnv.queryXidStatus, writtenTd, uniformEnv, invalidXid] using h.2.2.2
    rw [TdRedoOk, if_neg (by decide)]
    exact ⟨fun h => absurd h hnot, fun h => absurd h.1 (by decide)⟩

/-- The TD of a committed transaction that every snapshot sees is reset by the run; replaying
the record leaves it to that transaction. -/
theorem reset_td_not_replayed :
    (writtenTdPage.reuseOrExtendTd (uniformEnv .committed) (TDAllocContext.begin 10 false) 1).map
        (fun run => (run.1.tds, setAllocTdWal run.2.1, run.2.2)) =
      some ([TD.reset], some ⟨0, [.frozen]⟩, 0) ∧
    (redoAllocTdWal (some ⟨0, [.frozen]⟩) writtenTdPage).map DataPage.tds =
      some [{ writtenTd with status := .occupyTrxEnd }] := by
  decide

end Main

end DStore
