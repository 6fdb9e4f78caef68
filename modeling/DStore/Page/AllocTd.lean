import DStore.Page.DataPage

/-!
# Allocating a TD on a data page

`DoAllocTd` looks for the transaction's own TD or a free one, then tries to reuse the TDs of
ended transactions (`TryReuseTdSlots`), and at last extends the TD array. The scan records
one status per TD: that array is all the log record of an allocation carries.
-/

namespace DStore

/-- `TdRecycleStatus`. -/
structure TdRecycleStatus where
  unused : Bool
  id : ℕ
deriving DecidableEq, Repr

/-- `TDAllocContext`: the inputs of an allocation and its `allocTd` record. -/
structure TDAllocContext where
  recycleMinCsn : ℕ
  tryLocalXidOnly : Bool
  xidStatus : List TrxSlotStatus
  extendNum : ℕ
  isDirty : Bool
  waitXids : List Xid

/-- `TDAllocContext::Begin`. -/
def TDAllocContext.begin (recycleMinCsn : ℕ) (tryLocalXidOnly : Bool) :
    TDAllocContext where
  recycleMinCsn := recycleMinCsn
  tryLocalXidOnly := tryLocalXidOnly
  xidStatus := []
  extendNum := 0
  isDirty := false
  waitXids := []

/-- `TDAllocContext::AddTdReuseWaitXid`. -/
def TDAllocContext.addTdReuseWaitXid (ctx : TDAllocContext) (xid : Xid) : TDAllocContext :=
  if xid ∈ ctx.waitXids then ctx else { ctx with waitXids := ctx.waitXids ++ [xid] }

/-- What the scan of `TryReuseTdSlots` does with one TD: the TD it leaves, the status it
logs, whether the TD is recycled (and then whether as unused), whether TDs may still be
reset, and the transaction to wait for. -/
structure TdScan where
  td : TD
  xidStatus : TrxSlotStatus
  recycle : Option Bool
  canResetTd : Bool
  waitXid : Option Xid

section Scan

variable (env : TxnEnv) (ctx : TDAllocContext)

/-- The TD belongs to a zone of another node and only local TDs are wanted. -/
def skipRemote (xid : Xid) : Bool := ctx.tryLocalXidOnly && !env.isZoneOwned xid.zoneId

/-- The `FROZEN`/`COMMITTED` case of `TryReuseOneTdSlot`. -/
def reuseEndedTd (td : TD) (xs : XidState) : TdScan :=
  let td := td.fillCsnWith xs
  if td.lockerXid ≠ invalidXid ∧ td.lockerXid ≠ td.xid ∧
      (env.queryXidStatus td.lockerXid).status = .inProgress then
    ⟨td, .failed, none, true, some td.lockerXid⟩
  else
    let td := if td.lockerXid ≠ invalidXid
      then { td with lockerXid := invalidXid, status := .occupyTrxEnd } else td
    if xs.status = .frozen ∨ td.csn < ctx.recycleMinCsn then
      ⟨td, .frozen, some true, true, none⟩
    else
      ⟨td, .committed, some false, true, none⟩

/-- The branch of the scan for a TD without xid: it may still hold a locker. -/
def reuseLockerTd (td : TD) : TdScan :=
  if td.lockerXid ≠ invalidXid then
    if skipRemote env ctx td.lockerXid then ⟨td, .unknown, none, false, none⟩
    else if (env.queryXidStatus td.lockerXid).status = .inProgress then
      ⟨td, .unknown, none, true, some td.lockerXid⟩
    else
      ⟨{ td with lockerXid := invalidXid, status := .unoccupyAndPruneable },
        .frozen, some true, true, none⟩
  else ⟨td, .frozen, some true, true, none⟩

/-- The owner of the TD is examined and turns out aborted (index pages only). -/
def abortedTd (td : TD) : Bool :=
  td.xid ≠ invalidXid && !skipRemote env ctx td.xid && (td.xidStatus env).status = .aborted

/-- The `TD_CONTENT_UPDATED` repetitions of the scan on one TD: roll an aborted owner back
and look at the TD again. `none` only when the fuel does not cover the chain. -/
def settleTd : ℕ → TD → Option TD
  | 0, _ => none
  | fuel + 1, td =>
    if abortedTd env ctx td then
      match td.rollbackTdToPreTxn env fuel with
      | none => none
      | some td => settleTd fuel td
    else some td

/-- `settleTd` on every TD of the page. -/
def settleTds (fuel : ℕ) : List TD → Option (List TD)
  | [] => some []
  | td :: tds =>
    match settleTd env ctx fuel td, settleTds fuel tds with
    | some td, some tds => some (td :: tds)
    | _, _ => none

/-- The scan of one TD whose owner is not aborted (`TryReuseOneTdSlot`). -/
def scanTd (td : TD) : TdScan :=
  if td.xid ≠ invalidXid then
    if skipRemote env ctx td.xid then ⟨td, .unknown, none, false, none⟩
    else
      let xs := td.xidStatus env
      match xs.status with
      | .frozen => reuseEndedTd env ctx td xs
      | .committed => reuseEndedTd env ctx td xs
      | .pendingCommit => ⟨td, .pendingCommit, none, true, some td.xid⟩
      | .inProgress => ⟨td, .inProgress, none, false, some td.xid⟩
      -- the rest is asserted unreachable; without assertions the TD is ignored
      | status => ⟨td, status, none, true, none⟩
  else reuseLockerTd env ctx td

end Scan

/-- The entries of `tdRecycle`, numbered from `tdId`. -/
def recycleList (tdId : ℕ) : List (Option Bool) → List TdRecycleStatus
  | [] => []
  | none :: rest => recycleList (tdId + 1) rest
  | some unused :: rest => ⟨unused, tdId⟩ :: recycleList (tdId + 1) rest

namespace DataPage

/-- The inner loop of `RefreshTupleTdStatus` on the tuple at `offset`. -/
def refreshSlots (offset : ℕ) (tdId lockerTdId tdStatus : ℕ) :
    List TdRecycleStatus → Bool → Bool → DataPage → DataPage
  | [], _, _, page => page
  | slot :: slots, isTdStatusDetached, isLockTdIdInvalid, page =>
    if isTdStatusDetached && isLockTdIdInvalid then page
    else
      let page' := if slot.id = lockerTdId
        then page.setTupleLockerTdId offset invalidTdSlot else page
      let isLockTdIdInvalid' := if slot.id = lockerTdId then true else isLockTdIdInvalid
      if tdStatus = TupleTdStatus.detachTd.code ∨ slot.id ≠ tdId then
        refreshSlots offset tdId lockerTdId tdStatus slots isTdStatusDetached
          isLockTdIdInvalid' page'
      else
        refreshSlots offset tdId lockerTdId tdStatus slots true isLockTdIdInvalid'
          (page'.setTupleTdStatus offset
            (if slot.unused then .detachTd else .attachTdAsHistoryOwner))

/-- One pass of the outer loop of `RefreshTupleTdStatus`. -/
def refreshTuple (slots : List TdRecycleStatus) (page : DataPage) (offset : ℕ) :
    DataPage :=
  if (page.getItemId offset).isUnused then page
  else
    let lockerTdId := page.getTupleLockerTdId offset
    let tdStatus := page.getTupleTdStatus offset
    let isTdStatusDetached := tdStatus = TupleTdStatus.detachTd.code
    let isLockTdIdInvalid := lockerTdId = invalidTdSlot
    if isTdStatusDetached ∧ isLockTdIdInvalid then page
    else refreshSlots offset (page.getTupleTdId offset) lockerTdId tdStatus slots
      isTdStatusDetached isLockTdIdInvalid page

/-- `RefreshTupleTdStatus`. -/
def refreshTupleTdStatus (page : DataPage) (slots : List TdRecycleStatus) : DataPage :=
  (List.range' 1 page.getMaxOffset).foldl (refreshTuple slots) page

/-- The locals of `GetAvailableTd`, with the TD array. -/
structure AvailState where
  tds : List TD
  firstReusableTdSlot : ℕ
  firstCommitTdSlot : ℕ
  csn : ℕ

/-- The loop body of `GetAvailableTd`. -/
def availStep (canResetTd : Bool) (st : AvailState) (slot : TdRecycleStatus) : AvailState :=
  let td := st.tds.getD slot.id TD.reset
  if canResetTd && slot.unused then
    { st with
      tds := st.tds.set slot.id TD.reset
      firstReusableTdSlot :=
        if st.firstReusableTdSlot = invalidTdSlot then slot.id else st.firstReusableTdSlot }
  else if td.status ≠ .unoccupyAndPruneable then
    let tds := st.tds.set slot.id { td with status := .occupyTrxEnd }
    if (td.csnStatus = .isCurXidCsn ∧ td.csn ≤ st.csn) ∨ st.firstCommitTdSlot = invalidTdSlot then
      { st with tds := tds, firstCommitTdSlot := slot.id, csn := td.csn }
    else { st with tds := tds }
  else
    { st with
      firstReusableTdSlot :=
        if st.firstReusableTdSlot = invalidTdSlot then slot.id else st.firstReusableTdSlot }

/-- `GetAvailableTd`: refresh the recycled TDs, then pick one. -/
def getAvailableTd (page : DataPage) (slots : List TdRecycleStatus) (canResetTd : Bool) :
    DataPage × ℕ :=
  let st := slots.foldl (availStep canResetTd)
    ⟨page.tds, invalidTdSlot, invalidTdSlot, maxCommitSeqNo⟩
  ({ page with tds := st.tds },
    if st.firstReusableTdSlot ≠ invalidTdSlot then st.firstReusableTdSlot
    else st.firstCommitTdSlot)

/-- `TryReuseTdSlots`: the page, the context and the TD found. -/
def tryReuseTdSlots (env : TxnEnv) (ctx : TDAllocContext) (fuel : ℕ) (page : DataPage) :
    Option (DataPage × TDAllocContext × ℕ) :=
  match settleTds env ctx fuel page.tds with
  | none => none
  | some settled =>
    let scans := settled.map (scanTd env ctx)
    let page := { page with tds := scans.map TdScan.td }
    let ctx := (scans.filterMap TdScan.waitXid).foldl TDAllocContext.addTdReuseWaitXid
      { ctx with xidStatus := scans.map TdScan.xidStatus }
    let tdRecycle := recycleList 0 (scans.map TdScan.recycle)
    if tdRecycle = [] then some (page, ctx, invalidTdSlot)
    else
      let (page, tdId) := (page.refreshTupleTdStatus tdRecycle).getAvailableTd tdRecycle
        (scans.all TdScan.canResetTd)
      some (page, { ctx with isDirty := true }, tdId)

/-- `EXTEND_TD_NUM` and `EXTEND_TD_MIN_NUM` against the room left: how many TDs `ExtendTd`
adds, `none` when it fails. -/
def numExtended (page : DataPage) : Option ℕ :=
  let num := min 2 (maxTdCount - page.tdCount)
  if maxTdCount ≤ page.tdCount then none
  else if page.getFreeSpaceRaw < num * sizeofTd then
    if page.getFreeSpaceRaw < sizeofTd then none else some 1
  else some num

/-- Append `num` fresh TDs; the item array moves up with `lower`. -/
def appendTds (page : DataPage) (num : ℕ) : DataPage :=
  { page with tds := page.tds ++ List.replicate num TD.reset }

/-- `ExtendTd`. -/
def extendTd (ctx : TDAllocContext) (page : DataPage) : Option (DataPage × TDAllocContext) :=
  match page.numExtended with
  | none => none
  | some num => some (page.appendTds num, { ctx with isDirty := true, extendNum := num })

/-- Steps 2 to 4 of `DoAllocTd`: reuse a TD, else extend the array. -/
def reuseOrExtendTd (env : TxnEnv) (ctx : TDAllocContext) (fuel : ℕ) (page : DataPage) :
    Option (DataPage × TDAllocContext × ℕ) :=
  match page.tryReuseTdSlots env ctx fuel with
  | none => none
  | some (page', ctx', tdId) =>
    if tdId ≠ invalidTdSlot then some (page', ctx', tdId)
    else
      match page'.extendTd ctx' with
      | none => some (page', ctx', invalidTdSlot)
      | some (page'', ctx'') => some (page'', ctx'', page.tdCount)

/-- Step 1 of `DoAllocTd`: the transaction's own TD, else the first unoccupied one. -/
def findTd (curXid : Xid) (page : DataPage) : Option ℕ :=
  match page.tds.findIdx? fun td => td.status ≠ .unoccupyAndPruneable ∧
      (td.xid = curXid ∨ td.lockerXid = curXid) with
  | some tdId => some tdId
  | none => page.tds.findIdx? fun td => td.status = .unoccupyAndPruneable

/-- `DoAllocTd`. -/
def doAllocTd (env : TxnEnv) (ctx : TDAllocContext) (fuel : ℕ) (curXid : Xid)
    (page : DataPage) : Option (DataPage × TDAllocContext × ℕ) :=
  match page.findTd curXid with
  | some tdId => some (page, ctx, tdId)
  | none => page.reuseOrExtendTd env ctx fuel

end DataPage

/-! ## The log record -/

/-- `AllocTdRecord` with its status array. -/
structure AllocTdRecord where
  extendNum : ℕ
  xidStatus : List TrxSlotStatus
deriving DecidableEq, Repr

/-- `SetAllocTdWal`: nothing is logged for a page that is not dirty. -/
def setAllocTdWal (ctx : TDAllocContext) : Option AllocTdRecord :=
  if ctx.isDirty then some ⟨ctx.extendNum, ctx.xidStatus⟩ else none

/-- `GetTdRecycleInfo`, one status: what is recycled. -/
def recycleOfStatus : TrxSlotStatus → Option Bool
  | .frozen => some true
  | .committed => some false
  | _ => none

/-- `RedoExtendTdWal`; `none` is a panic. -/
def redoExtendTdWal (page : DataPage) (extendNum : ℕ) : Option DataPage :=
  if maxTdCount < page.tdCount + extendNum then none
  else if page.getFreeSpaceRaw < extendNum * sizeofTd then none
  else some (page.appendTds extendNum)

/-- The part of `RedoAllocTdWal` before `ExtendTd`: refresh the tuples and the TDs the
status array names. -/
def redoReuse (page : DataPage) (xidStatus : List TrxSlotStatus) : DataPage :=
  let tdRecycle := recycleList 0 (xidStatus.map recycleOfStatus)
  let existTxnInProgress := xidStatus.any (· = .inProgress)
  if tdRecycle = [] then page
  else
    let (page, tdId) :=
      (page.refreshTupleTdStatus tdRecycle).getAvailableTd tdRecycle existTxnInProgress
    if tdId ≠ invalidTdSlot then
      page.putTd tdId { page.getTd tdId with csn := invalidCsn, csnStatus := .isInvalid }
    else page

/-- `RedoAllocTdWal`; `none` is a panic (the record does not match the page). -/
def redoAllocTdWal (record : Option AllocTdRecord) (page : DataPage) : Option DataPage :=
  match record with
  | none => some page
  | some record =>
    if record.xidStatus.length ≠ page.tdCount then none
    else
      let page := redoReuse page record.xidStatus
      if record.extendNum ≠ 0 then redoExtendTdWal page record.extendNum else some page

end DStore
