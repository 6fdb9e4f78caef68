import DStore.Lib.BinaryHeap
import DStore.Page.Layout
import DStore.Txn.Snapshot

/-!
# Consistent-read pages

`ConstructCR` turns a copy of a data page into what a snapshot sees. A first pass over the
TDs rolls back running and aborted owners and the reader's own later commands; a heap of the
TDs by csn then rolls back committed owners, latest commit first, down to the snapshot.

How one undo record is applied (`RollbackByUndoRec`) depends on the type of the page and is
a parameter here.
-/

namespace DStore

namespace DataPage

/-- The loop body of `UpdateTupleTdStatus`. -/
def updateTdStatusAt (tdId : ℕ) (src dest : TupleTdStatus) (page : DataPage) (offset : ℕ) :
    DataPage :=
  if page.getTupleTdId offset ≠ tdId ∨ page.testTupleTdStatus offset src = false then page
  else page.setTupleTdStatus offset dest

/-- `UpdateTupleTdStatus`: the loop runs over the offsets below the maximum offset. -/
def updateTupleTdStatus (page : DataPage) (tdId : ℕ) (src dest : TupleTdStatus) : DataPage :=
  (List.range' 1 (page.getMaxOffset - 1)).foldl (updateTdStatusAt tdId src dest) page

end DataPage

/-- `CRContext` with the locals of `ConstructCR`. -/
structure CrState where
  env : TxnEnv
  page : DataPage
  tdHeap : BinaryHeap ℕ
  pageMaxCsn : ℕ
  useLocalCr : Bool

namespace CrState

variable (st : CrState)

/-- The state with another page. -/
def withPage (page : DataPage) : CrState := { st with page := page }

/-- The state with another page, which cannot be shared. -/
def withLocalPage (page : DataPage) : CrState := { st with page := page, useLocalCr := true }

/-- `td->GetCsn()` of the TD a heap node points to. -/
def csnKey (tdId : ℕ) : ℕ := (st.page.getTd tdId).csn

end CrState

section ConstructCR

variable (rollbackByUndoRec : Xid → UndoRecord → ℕ → DataPage → Option DataPage)
  (txn : Transaction) (snapshot : Snapshot)

/-- The loop of `RollbackTdOneXidForCRAsNeed`: apply the undo records of `xid` on the TD, for
the reader itself only down to a visible command. `none` is a failure to apply a record, or
too little fuel. -/
def rollbackTdOneXidLoop (env : TxnEnv) (isCurrentXid : Bool) (tdId : ℕ) (xid : Xid) :
    ℕ → DataPage → Option DataPage
  | 0, _ => none
  | fuel + 1, page =>
    let undoRecord := env.undoRecord (page.getTd tdId).undoRecPtr
    if isCurrentXid && cidVisibleToSnapshot txn snapshot undoRecord.cid then some page
    else
      match rollbackByUndoRec xid undoRecord tdId page with
      | none => none
      | some page =>
        if (page.getTd tdId).xid ≠ xid then some page
        else rollbackTdOneXidLoop env isCurrentXid tdId xid fuel page

/-- `RollbackTdOneXidForCRAsNeed`. -/
def rollbackTdOneXidForCRAsNeed (env : TxnEnv) (isCurrentXid : Bool) (tdId : ℕ) (fuel : ℕ)
    (page : DataPage) : Option DataPage :=
  let xid := (page.getTd tdId).xid
  if env.isXidRecycled xid then some (page.putTd tdId TD.reset)
  else rollbackTdOneXidLoop rollbackByUndoRec txn snapshot env isCurrentXid tdId xid fuel page

/-- The end of the loop body of `ConstructCR`: fill the csn of the owner the TD has now, and
queue the TD if that commit is not visible. -/
def crFillCsn (tdId : ℕ) (st : CrState) : CrState :=
  let td := st.page.getTd tdId
  if td.xid = invalidXid then st
  else
    let td := td.fillCsn st.env
    let st := st.withPage (st.page.putTd tdId td)
    if snapshot.snapshotType = .dirty then st
    else if td.csn ≥ snapshot.getCsn then { st with tdHeap := st.tdHeap.addUnordered tdId }
    else { st with pageMaxCsn := if st.pageMaxCsn < td.csn then td.csn else st.pageMaxCsn }

/-- The step of `ConstructCR` that takes a TD away from the reader because an earlier owner
is not visible: back to that owner, then detach tuples. The TD index has been advanced by
the time the tuples are detached. -/
def crRollbackToPreTxn (env : TxnEnv) (tdId fuel : ℕ) (page : DataPage) : Option DataPage :=
  match (page.getTd tdId).rollbackTdToPreTxn env fuel with
  | none => none
  | some td =>
    some ((page.putTd tdId td).updateTupleTdStatus (tdId + 1) .attachTdAsNewOwner .detachTd)

variable (tdId fuel : ℕ) (st : CrState)

/-- The branch of `ConstructCR` for the reader's own TD. -/
def crCurrentTd : Option CrState :=
  let td := st.page.getTd tdId
  let rolled :=
    if td.commandId ≥ snapshot.currentCid then
      rollbackTdOneXidForCRAsNeed rollbackByUndoRec txn snapshot st.env true tdId fuel st.page
    else some st.page
  match rolled with
  | none => none
  | some page =>
    let st := st.withLocalPage page
    if (page.getTd tdId).xid = td.xid then
      if (page.getTd tdId).csnStatus ≠ .isPrevXidCsn ∨ (page.getTd tdId).csn < snapshot.getCsn then
        some st
      else
        match crRollbackToPreTxn st.env tdId fuel page with
        | none => none
        | some page => some (crFillCsn snapshot tdId (st.withPage page))
    else some (crFillCsn snapshot tdId st)

/-- Roll the whole owner of the TD back, then look at the owner before it. -/
def crRollbackTd : Option CrState :=
  match rollbackTdOneXidForCRAsNeed rollbackByUndoRec txn snapshot st.env false tdId fuel
    st.page with
  | none => none
  | some page => some (crFillCsn snapshot tdId (st.withPage page))

/-- The branch of `ConstructCR` for an owner in pending commit. -/
def crPendingTd : Option CrState :=
  let xid := (st.page.getTd tdId).xid
  if st.env.needWaitPendingTxn xid then
    match st.env.waitForTransactionEnd xid with
    | none => none
    | some xs =>
      let st := { st with env := st.env.afterWait xid xs }
      if xs.status = .inProgress ∨ xs.status = .pendingCommit then
        crRollbackTd rollbackByUndoRec txn snapshot tdId fuel { st with useLocalCr := true }
      else some (crFillCsn snapshot tdId st)
  else crRollbackTd rollbackByUndoRec txn snapshot tdId fuel { st with useLocalCr := true }

/-- The loop body of the first pass of `ConstructCR`. -/
def crVisitTd : Option CrState :=
  let td := st.page.getTd tdId
  let status := (td.xidStatus st.env).status
  if status = .frozen then some st
  else if td.xid ≠ invalidXid ∧ td.xid = txn.currentXid then
    crCurrentTd rollbackByUndoRec txn snapshot tdId fuel st
  else if status = .pendingCommit ∧ snapshot.snapshotType ≠ .dirty then
    crPendingTd rollbackByUndoRec txn snapshot tdId fuel st
  else if status = .inProgress ∧ snapshot.snapshotType ≠ .dirty then
    crRollbackTd rollbackByUndoRec txn snapshot tdId fuel { st with useLocalCr := true }
  else if status = .aborted then crRollbackTd rollbackByUndoRec txn snapshot tdId fuel st
  else some (crFillCsn snapshot tdId st)

/-- The first pass of `ConstructCR` over the TDs that are left to visit. -/
def crFirstPass (fuel : ℕ) : List ℕ → CrState → Option CrState
  | [], st => some st
  | tdId :: rest, st =>
    if tdId < st.page.tdCount then
      match crVisitTd rollbackByUndoRec txn snapshot tdId fuel st with
      | none => none
      | some st => crFirstPass fuel rest st
    else some st

/-- `RollbackTdsForCR` once the heap is built. -/
def rollbackTdsForCR : ℕ → CrState → Option CrState
  | 0, _ => none
  | fuel + 1, st =>
    if st.tdHeap.size = 0 then some st
    else
      let tdId := st.tdHeap.nodes 0
      let topCsn := (st.page.getTd tdId).csn
      if topCsn < snapshot.snapshotCsn then
        some { st with pageMaxCsn := if topCsn > st.pageMaxCsn then topCsn else st.pageMaxCsn }
      else
        match rollbackTdOneXidForCRAsNeed rollbackByUndoRec txn snapshot st.env false tdId fuel
          st.page with
        | none => none
        | some page =>
          let st := st.withLocalPage page
          let td := page.getTd tdId
          if td.xid = invalidXid then
            rollbackTdsForCR fuel { st with tdHeap := st.tdHeap.removeFirst st.csnKey }
          else
            let st := if td.csnStatus ≠ .isCurXidCsn
              then st.withPage (page.putTd tdId (td.fillCsn st.env)) else st
            rollbackTdsForCR fuel { st with tdHeap := st.tdHeap.replaceFirst st.csnKey tdId }

/-- `ConstructCR` on the copy `page`. -/
def constructCR (env : TxnEnv) (fuel : ℕ) (page : DataPage) : Option CrState :=
  match crFirstPass rollbackByUndoRec txn snapshot fuel (List.range page.tdCount)
    ⟨env, page, BinaryHeap.empty 0, commitSeqNoFirstNormal, false⟩ with
  | none => none
  | some st =>
    if st.tdHeap.size = 0 then some st
    else rollbackTdsForCR rollbackByUndoRec txn snapshot fuel
      { st with tdHeap := st.tdHeap.build st.csnKey }

end ConstructCR

end DStore
