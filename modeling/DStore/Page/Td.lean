import DStore.Undo.Record

/-!
# Transaction directory slots

A TD names the last transaction that changed a tuple through it, that transaction's last
undo record, and caches a commit sequence number. Transaction statuses and undo records
live outside the page; page code sees them through `TxnEnv`.
-/

namespace DStore

/-- `INVALID_TD_SLOT`. -/
def invalidTdSlot : ℕ := 0xFF

/-- `MAX_TD_COUNT`. -/
def maxTdCount : ℕ := 128

/-- `TDStatus`. -/
inductive TDStatus where
  | unoccupyAndPruneable
  | occupyTrxInProgress
  | occupyTrxEnd
deriving DecidableEq, Repr

/-- `TD`: one slot of the transaction directory. -/
structure TD where
  xid : Xid
  csn : ℕ
  undoRecPtr : UndoRecPtr
  lockerXid : Xid
  commandId : ℕ
  status : TDStatus
  csnStatus : TdCsnStatus
deriving DecidableEq, Repr

/-- What a status query answers for one xid (`XidStatus` once initialised). -/
structure XidState where
  status : TrxSlotStatus
  csn : ℕ
deriving DecidableEq, Repr

/-- The transaction and undo managers as page code sees them: the status in a transaction's
slot, whether its slot (and with it its undo records) may be recycled, the record stored at
an undo pointer; for a pending commit, whether a reader has to wait for its end, and the
status found then (`none` when the wait fails). -/
structure TxnEnv where
  slotStatus : Xid → XidState
  isXidRecycled : Xid → Bool
  undoRecord : UndoRecPtr → UndoRecord
  isZoneOwned : ℕ → Bool
  needWaitPendingTxn : Xid → Bool
  waitForTransactionEnd : Xid → Option XidState

/-- `QueryXidStatus`: an invalid xid has no slot to ask. -/
def TxnEnv.queryXidStatus (env : TxnEnv) (xid : Xid) : XidState :=
  if xid = invalidXid then ⟨.unknown, invalidCsn⟩ else env.slotStatus xid

/-- The managers once `xid` is known to have status `xs`. -/
def TxnEnv.afterWait (env : TxnEnv) (xid : Xid) (xs : XidState) : TxnEnv :=
  { env with slotStatus := fun x => if x = xid then xs else env.slotStatus x }

/-- `FetchUndoRecord`: fails when the record may be recycled. -/
def TxnEnv.fetchUndoRecord (env : TxnEnv) (xid : Xid) (ptr : UndoRecPtr) : Option UndoRecord :=
  if env.isXidRecycled xid then none else some (env.undoRecord ptr)

/-- `TD::Reset`. -/
def TD.reset : TD where
  xid := invalidXid
  csn := invalidCsn
  undoRecPtr := invalidUndoRecPtr
  lockerXid := invalidXid
  commandId := invalidCid
  status := .unoccupyAndPruneable
  csnStatus := .isInvalid

/-- `TD::CheckSanity`. -/
def TD.CheckSanity (td : TD) : Prop :=
  (td.status = .unoccupyAndPruneable → td.xid = invalidXid ∧ td.csn = invalidCsn ∧
    td.undoRecPtr = invalidUndoRecPtr ∧ td.csnStatus = .isInvalid) ∧
  (td.status = .occupyTrxInProgress → td.lockerXid ≠ invalidXid ∨
    (td.xid ≠ invalidXid ∧ td.undoRecPtr ≠ invalidUndoRecPtr)) ∧
  (td.status = .occupyTrxEnd → td.xid ≠ invalidXid ∧ td.undoRecPtr ≠ invalidUndoRecPtr) ∧
  (td.csnStatus = .isPrevXidCsn → td.csn ≠ invalidCsn) ∧
  (td.csnStatus = .isCurXidCsn → td.csn ≠ invalidCsn ∧ td.xid ≠ invalidXid)

instance (td : TD) : Decidable td.CheckSanity :=
  inferInstanceAs (Decidable (_ ∧ _ ∧ _ ∧ _ ∧ _))

/-- `XidStatus(td->GetXid(), txn, td)`: the hints of the TD come before a query. -/
def TD.xidStatus (env : TxnEnv) (td : TD) : XidState :=
  if td.csnStatus = .isCurXidCsn then ⟨.committed, td.csn⟩
  else if td.status = .unoccupyAndPruneable then ⟨.frozen, invalidCsn⟩
  else env.queryXidStatus td.xid

/-- The status update `FillCsn` makes once it knows the transaction has ended. -/
def TD.fillEndStatus (td : TD) : TD :=
  if td.status = .occupyTrxInProgress ∧ td.lockerXid = invalidXid then
    { td with status := .occupyTrxEnd }
  else td

/-- The body of `TD::FillCsn` for the status `xs`. -/
def TD.fillCsnWith (td : TD) (xs : XidState) : TD :=
  if td.csnStatus = .isCurXidCsn then td
  else if td.xid = invalidXid then td
  else if xs.status = .frozen then
    TD.fillEndStatus { td with csn := commitSeqNoFirstNormal, csnStatus := .isCurXidCsn }
  else if xs.status = .committed then
    TD.fillEndStatus { td with csn := xs.csn, csnStatus := .isCurXidCsn }
  else td

/-- `TD::FillCsn` without a status argument. -/
def TD.fillCsn (env : TxnEnv) (td : TD) : TD := td.fillCsnWith (env.queryXidStatus td.xid)

/-- `TD::RollbackTdInfo`: back to the content before `undo`. -/
def TD.rollbackTdInfo (td : TD) (undo : UndoRecord) : TD :=
  { td with
    undoRecPtr := undo.tdPreUndoPtr
    xid := undo.tdPreXid
    csn := undo.tdPreCsn
    csnStatus := undo.tdPreCsnStatus
    status :=
      if undo.tdPreXid = invalidXid then .unoccupyAndPruneable
      else if undo.tdPreXid ≠ td.xid then .occupyTrxEnd
      else td.status
    commandId := invalidCid }

/-- The loop of `TD::RollbackTdToPreTxn`: undo until another transaction owns the TD.
`none` only when the fuel does not cover the chain. -/
def TD.rollbackLoop (env : TxnEnv) (xid : Xid) : ℕ → TD → Option TD
  | 0, td => if td.xid = xid then none else some td
  | fuel + 1, td =>
    if td.xid = xid then
      match env.fetchUndoRecord xid td.undoRecPtr with
      | none => some TD.reset
      | some undo => TD.rollbackLoop env xid fuel (td.rollbackTdInfo undo)
    else some td

/-- `TD::RollbackTdToPreTxn`. -/
def TD.rollbackTdToPreTxn (env : TxnEnv) (fuel : ℕ) (td : TD) : Option TD :=
  TD.rollbackLoop env td.xid fuel td

/-- `DataPage::SetTd` on the slot itself. -/
def TD.setTd (td : TD) (xid : Xid) (undoPtr : UndoRecPtr) (commandId : ℕ) : TD :=
  { td with
    csnStatus :=
      if td.xid ≠ invalidXid ∧ td.xid ≠ xid ∧ td.csnStatus = .isCurXidCsn
      then .isPrevXidCsn else td.csnStatus
    xid := xid
    undoRecPtr := undoPtr
    status := .occupyTrxInProgress
    commandId := commandId }

end DStore
