import DStore.Heap.AllocLock
import DStore.Heap.UndoFrame

/-!
# Tuple locks

`DoLock`, and runs of transactions that lock, write and roll back on one heap page. Beside the
page a state holds, for each TD, the undo records its running owner has written through it; a
rollback to a savepoint undoes the newest of them.
-/

namespace DStore

namespace DataPage

/-- `DoLock`. `tdId` is the TD the caller already has, or `INVALID_TD_SLOT`; the last component
is its value afterwards, `INVALID_TD_SLOT` again when no TD is available. -/
def doLock (env : TxnEnv) (ctx : TDAllocContext) (fuel : ℕ) (xid : Xid) (offset tdId : ℕ)
    (page : DataPage) : Option (DataPage × TDAllocContext × ℕ) :=
  let lockerTdId := (page.tupleHeader offset).lockerTdId
  if lockerTdId = invalidTdSlot ∨ (page.getTd lockerTdId).lockerXid ≠ xid then
    match if tdId = invalidTdSlot then page.doAllocTd env ctx fuel xid
      else some (page, ctx, tdId) with
    | none => none
    | some (page, ctx, tdId) =>
      if tdId = invalidTdSlot then some (page, ctx, tdId)
      else
        let page := page.setTupleLockerTdId offset tdId
        let td := { page.getTd tdId with lockerXid := xid, status := .occupyTrxInProgress }
        some (page.putTd tdId td, ctx, tdId)
  else some (page, ctx, tdId)

/-- The tuple at `offset` is locked by `xid` through `tdId`. -/
@[mk_iff]
structure Locked (page : DataPage) (xid : Xid) (offset tdId : ℕ) : Prop where
  valid : page.ValidOffset offset
  normal : (page.getItemId offset).isNormal = true
  lockerTdId : (page.tupleHeader offset).lockerTdId = tdId
  lockerXid : (page.getTd tdId).lockerXid = xid

instance (page : DataPage) (xid : Xid) (offset tdId : ℕ) :
    Decidable (page.Locked xid offset tdId) :=
  haveI : Decidable (page.ValidOffset offset) := inferInstanceAs (Decidable (_ ∧ _))
  decidable_of_iff _ (locked_iff page xid offset tdId).symm

end DataPage

/-- Where a transaction takes a TD from: one attempt of `AllocTd`, or a TD it holds already. -/
inductive TdSource where
  | alloc (ctx : TDAllocContext) (fuel : ℕ)
  | held (tdId : ℕ)

/-- The page after the allocation and the TD found. -/
def DataPage.takeTd (env : TxnEnv) (xid : Xid) (page : DataPage) :
    TdSource → Option (DataPage × ℕ)
  | .alloc ctx fuel =>
    match page.doAllocTd env ctx fuel xid with
    | none => none
    | some (page, _, tdId) => some (page, tdId)
  | .held tdId => some (page, tdId)

/-- A heap page in use, with the records of each TD's running owner, the newest first. -/
structure LockState where
  page : DataPage
  env : TxnEnv
  undo : ℕ → List UndoRecord

/-- What can happen: transactions change status, allocate a TD, lock a tuple (with a TD of their
own, or one that `DoLock` allocates), write through a TD, or undo the newest record of a TD. -/
inductive LockStep where
  | setStatus (env : TxnEnv)
  | allocTd (xid : Xid) (ctx : TDAllocContext) (fuel : ℕ)
  | doLock (xid : Xid) (offset : ℕ) (ctx : TDAllocContext) (fuel : ℕ)
  | doLockWith (xid : Xid) (offset : ℕ) (source : TdSource)
  | write (xid : Xid) (source : TdSource) (op : HeapOp) (undoPtr : UndoRecPtr) (cid : ℕ)
  | undo (tdId : ℕ)

namespace LockState

variable (s : LockState)

/-- `xid` has a record that names the tuple at `offset`: it has overwritten the tuple. -/
def OverwrittenBy (xid : Xid) (offset : ℕ) : Prop :=
  ∃ tdId < s.page.tdCount, (s.page.getTd tdId).xid = xid ∧
    ∃ record ∈ s.undo tdId, record.isMatchedCtid offset = true

/-- What a transaction waits for before it locks or overwrites a tuple: no other running
transaction has locked or overwritten it. -/
def FreeFor (xid : Xid) (offset : ℕ) : Prop :=
  (s.env.InProgress (s.page.tupleLocker offset) → s.page.tupleLocker offset = xid) ∧
    ∀ tdId < s.page.tdCount, s.env.InProgress (s.page.getTd tdId).xid →
      (s.page.getTd tdId).xid ≠ xid →
      ∀ record ∈ s.undo tdId, record.isMatchedCtid offset = false

instance (xid : Xid) (offset : ℕ) : Decidable (s.OverwrittenBy xid offset) :=
  inferInstanceAs (Decidable (∃ tdId < s.page.tdCount, _))

instance (xid : Xid) (offset : ℕ) : Decidable (s.FreeFor xid offset) :=
  inferInstanceAs (Decidable (_ ∧ _))

/-- A TD that `xid` holds is one it owns or has locked a tuple through. -/
def Holds (xid : Xid) : TdSource → Prop
  | .alloc _ _ => True
  | .held tdId => (s.page.getTd tdId).xid = xid ∨ (s.page.getTd tdId).lockerXid = xid

/-- The transaction manager's side of a status change: ended transactions stay ended, a
transaction that owns a TD leaves it by a commit only, and transactions that start anew are not
named on the page. -/
structure StatusStep (env' : TxnEnv) : Prop where
  ended : ∀ xid, s.env.Ended xid → env'.Ended xid
  owner : ∀ tdId, s.env.Open (s.page.getTd tdId).xid →
    env'.Open (s.page.getTd tdId).xid ∨ env'.Ended (s.page.getTd tdId).xid
  fresh : ∀ tdId, (env'.InProgress (s.page.getTd tdId).xid →
      s.env.InProgress (s.page.getTd tdId).xid) ∧
    (env'.InProgress (s.page.getTd tdId).lockerXid → s.env.InProgress (s.page.getTd tdId).lockerXid)

/-- What the callers of a step see to. -/
def Fits : LockStep → Prop
  | .setStatus env' => s.StatusStep env'
  | .allocTd xid _ _ => s.env.InProgress xid
  | .doLock xid offset _ _ => s.env.InProgress xid ∧ s.page.ValidOffset offset ∧
      (s.page.getItemId offset).isNormal = true ∧ s.FreeFor xid offset
  | .doLockWith xid offset source => s.env.InProgress xid ∧ s.page.ValidOffset offset ∧
      (s.page.getItemId offset).isNormal = true ∧ s.FreeFor xid offset ∧ s.Holds xid source
  | .write xid source op _ _ => s.env.InProgress xid ∧ s.Holds xid source ∧
      ∀ offset, op.target = some offset → s.FreeFor xid offset
  | .undo tdId => s.env.InProgress (s.page.getTd tdId).xid

/-- One step; `none` when the operation does not apply. A write ends with `SetTd`. -/
def step : LockStep → Option LockState
  | .setStatus env' => some { s with env := env' }
  | .allocTd xid ctx fuel =>
    match s.page.doAllocTd s.env ctx fuel xid with
    | none => none
    | some (page, _, _) => some { s with page := page }
  | .doLock xid offset ctx fuel =>
    match s.page.doLock s.env ctx fuel xid offset invalidTdSlot with
    | none => none
    | some (page, _, _) => some { s with page := page }
  | .doLockWith xid offset source =>
    match s.page.takeTd s.env xid source with
    | none => none
    | some (page, tdId) =>
      if tdId = invalidTdSlot then some { s with page := page }
      else
        match page.doLock s.env (TDAllocContext.begin 0 false) 0 xid offset tdId with
        | none => none
        | some (page, _, _) => some { s with page := page }
  | .write xid source op undoPtr cid =>
    match s.page.takeTd s.env xid source with
    | none => none
    | some (page, tdId) =>
      if tdId = invalidTdSlot then some { s with page := page }
      else
        match op.modify ⟨tdId, xid, cid⟩ page with
        | none => none
        | some (page', record) =>
          some { s with
            page := page'.setTd tdId xid undoPtr cid
            undo := Function.update s.undo tdId
              (if (page.getTd tdId).xid = xid then record :: s.undo tdId else [record]) }
  | .undo tdId =>
    match s.undo tdId with
    | [] => none
    | record :: records =>
      match s.page.undoHeap record with
      | none => none
      | some page => some { s with page := page, undo := Function.update s.undo tdId records }

/-- A page that no running transaction uses. -/
structure Start : Prop where
  wf : s.page.HeapWellFormed
  owner : ∀ tdId, s.env.Ended (s.page.getTd tdId).xid ∨
    ((s.page.getTd tdId).xid = invalidXid ∧ (s.page.getTd tdId).csnStatus ≠ .isCurXidCsn)
  free : ∀ tdId, (s.page.getTd tdId).status = .unoccupyAndPruneable →
    (s.page.getTd tdId).xid = invalidXid
  noLocker : ∀ tdId, (s.page.getTd tdId).lockerXid = invalidXid
  unlocked : ∀ offset, s.page.ValidOffset offset → (s.page.getItemId offset).isNormal = true →
    (s.page.tupleHeader offset).lockerTdId = invalidTdSlot
  noUndo : ∀ tdId, s.undo tdId = []

end LockState

/-- Runs whose steps all satisfy `cond` and whose states all satisfy `keeps`. -/
inductive LockRun (cond : LockState → LockStep → Prop) (keeps : LockState → Prop) :
    LockState → LockState → Prop where
  | refl {s : LockState} (h : keeps s) : LockRun cond keeps s s
  | step {s s' s'' : LockState} {act : LockStep} (hrun : LockRun cond keeps s s')
    (hfits : s'.Fits act) (hcond : cond s' act) (hstep : s'.step act = some s'')
    (h : keeps s'') : LockRun cond keeps s s''

end DStore
