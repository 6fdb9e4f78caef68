import DStore.Heap.RefreshLink
import DStore.Heap.CompactBytes

/-!
# Pruning a heap page

`TryPrunePage` turns the items of deleted tuples into redirects or frees them, compacts the
rest and logs the item changes. A full prune, as vacuum asks for, first tries to reuse the TDs
of the page.
-/

namespace DStore

open HeapDiskTupLiveMode

/-- `ItemIdDiff`: the state an item takes. -/
structure ItemIdDiff where
  offNum : ℕ
  newState : ItemIdState
deriving DecidableEq, Repr

/-- `WalRecordHeapPrune`. -/
structure WalRecordHeapPrune where
  itemIdDiff : List ItemIdDiff
  recentDeadMinCsn : ℕ
deriving DecidableEq, Repr

/-- `MIN_TD_COUNT`. -/
def minTdCount : ℕ := 2

/-- `MAXALIGN`. -/
def maxAlign (n : ℕ) : ℕ := (n + 7) / 8 * 8

/-- `MaxPossibleTupleSpace`. -/
def maxPossibleTupleSpace : ℕ :=
  blckSz - maxAlign (PageType.heap.headerOffset + minTdCount * sizeofTd + sizeofItemId)

namespace DataPage

variable (page : DataPage)

/-! ## Scanning -/

/-- `IsDiskTupleDeleted`; `none` is a panic. -/
def isDiskTupleDeleted (offset : ℕ) : Option Bool :=
  if (page.getItemId offset).isNormal = false then some true
  else
    let liveMode := (page.tupleHeader offset).liveMode
    if liveMode = tupleByNormalDelete.code ∨
        liveMode = oldTupleByAnotherPageUpdate.code then some true
    else if liveMode = oldTupleBySamePageUpdate.code then none
    else some false

/-- The tuple at `offset` belongs to an open transaction. -/
def ownedByOpenTxn (offset : ℕ) : Bool :=
  page.testTupleTdStatus offset .attachTdAsNewOwner &&
    (page.getTd (page.getTupleTdId offset)).status = .occupyTrxInProgress

/-- The loop body of `ScanPrunableItems`: the change of one item, if any. -/
def scanPrunableItem (offset : ℕ) : Option (Option ItemIdDiff) :=
  if (page.getItemId offset).isUnused then some none
  else if page.ownedByOpenTxn offset then some none
  else
    match page.isDiskTupleDeleted offset with
    | none => none
    | some false => some none
    | some true =>
      if page.testTupleTdStatus offset .detachTd then some (some ⟨offset, .unused⟩)
      else if (page.getItemId offset).isNoStorage then some none
      else some (some ⟨offset, .noStorage⟩)

/-- `deleteCsn` of a tuple whose storage is pruned. -/
def deleteCsn (offset : ℕ) : ℕ :=
  let td := page.getTd (page.getTupleTdId offset)
  if page.testTupleTdStatus offset .attachTdAsNewOwner ∧ td.csnStatus = .isCurXidCsn then td.csn
  else commitSeqNoFirstNormal

/-- `minCsn` after an item change. -/
def nextMinCsn (minCsn : ℕ) (diff : ItemIdDiff) : ℕ :=
  if diff.newState = .noStorage then
    if minCsn = invalidCsn then page.deleteCsn diff.offNum
    else min minCsn (page.deleteCsn diff.offNum)
  else minCsn

/-- `ScanPrunableItems` over `offsets`: the item changes and `minCsn`. -/
def scanPrunableItems : List ℕ → ℕ → Option (List ItemIdDiff × ℕ)
  | [], minCsn => some ([], minCsn)
  | offset :: offsets, minCsn =>
    match page.scanPrunableItem offset with
    | none => none
    | some none => scanPrunableItems offsets minCsn
    | some (some diff) =>
      match scanPrunableItems offsets (page.nextMinCsn minCsn diff) with
      | none => none
      | some (diffs, minCsn) => some (diff :: diffs, minCsn)

/-! ## Pruning items -/

/-- The redirect an item becomes when its storage is pruned. -/
def prunedItem (offset : ℕ) : ItemId :=
  let diskTup := page.tupleHeader offset
  let tdStatus := if diskTup.tdStatus = TupleTdStatus.attachTdAsHistoryOwner.code
    then TupleTdStatus.attachTdAsHistoryOwner else .attachTdAsNewOwner
  let item := ((page.getItemId offset).setTdId diskTup.tdId).setTdStatus tdStatus
  item.setNoStorage.setTupLiveMode diskTup.liveMode

/-- The loop body of `PruneItems`. -/
def pruneItem (diff : ItemIdDiff) : DataPage :=
  match diff.newState with
  | .unused => (page.putItemId diff.offNum ItemId.unused).setHasFreeItemId
  | .noStorage => page.putItemId diff.offNum (page.prunedItem diff.offNum)
  | _ => page

/-- `PruneItems`. -/
def pruneItems (itemIdDiff : List ItemIdDiff) : DataPage := itemIdDiff.foldl pruneItem page

/-- Apply the item changes, as `TryPruneItems` and the redo of a prune do. -/
def applyItemIdDiff (itemIdDiff : List ItemIdDiff) (recentDeadMinCsn : ℕ) : DataPage :=
  if itemIdDiff = [] then page
  else
    { page.pruneItems itemIdDiff with
      recentDeadTupleMinCsn := recentDeadMinCsn
      hasPrunableItem := recentDeadMinCsn ≠ invalidCsn }

/-! ## Compacting tuples -/

/-- `notPrunedDelSize` of `ScanCompactableItems`, a 16-bit sum. -/
def notPrunedDelSize : List ItemIdCompactData → ℕ → Option ℕ
  | [], size => some size
  | c :: cs, size =>
    match page.isDiskTupleDeleted c.itemOffnum with
    | none => none
    | some true => notPrunedDelSize cs ((size + c.itemLen) % 2 ^ 16)
    | some false => notPrunedDelSize cs size

/-- `TryCompactTuples`, by whether `compactItems` is allocated; `none` is a panic. -/
def tryCompactTuples (allocated : Bool) : Option DataPage :=
  if allocated = false then some page
  else
    match page.notPrunedDelSize page.compactableItems 0 with
    | none => none
    | some delSize =>
      some { page.compactAll with potentialDelSize := delSize, hasPrunableTuple := 0 < delSize }

/-! ## The prune handler -/

/-- `CheckPagePrunable`, with the two factors 0.6 and 0.2 as integer comparisons. -/
def checkPagePrunable (recycleMinCsn needSize : ℕ) : Bool :=
  let itemIdPrunable := page.hasPrunableItem && page.recentDeadTupleMinCsn < recycleMinCsn
  let hasMorePotentialFreeSpace : Bool := 5 * page.potentialDelSize > 3 * maxPossibleTupleSpace
  let hasLessFreeSpace : Bool := 5 * page.getFreeSpaceForInsert < maxPossibleTupleSpace
  if !page.hasPrunableTuple && !itemIdPrunable then false
  else hasMorePotentialFreeSpace || (hasLessFreeSpace && page.potentialDelSize > 0) ||
    (needSize > 0 && needSize < page.potentialDelSize)

/-- `TryReuseTdSlots` before a full prune; its context is dropped, and with it the log record
of the recycled TDs. -/
def reuseTdsForPrune (env : TxnEnv) (recycleMinCsn fuel : ℕ) (fullPrune : Bool) :
    Option DataPage :=
  if fullPrune then
    (page.tryReuseTdSlots env (TDAllocContext.begin recycleMinCsn false) fuel).map Prod.fst
  else some page

/-- `TryPrunePage` on a logged relation, by whether `itemIdDiff` and the `compactItems` of
`TryCompactTuples` are allocated: the page and the log records written. -/
def tryPrunePage (env : TxnEnv) (recycleMinCsn fuel needSize : ℕ)
    (fullPrune diffAllocated compactAllocated : Bool) :
    Option (DataPage × List WalRecordHeapPrune) :=
  if page.checkPagePrunable recycleMinCsn needSize = false then some (page, [])
  else
    match page.reuseTdsForPrune env recycleMinCsn fuel fullPrune with
    | none => none
    | some page =>
      if diffAllocated = false then some (page, [])
      else
        match page.scanPrunableItems (List.range' 1 page.getMaxOffset) invalidCsn with
        | none => none
        | some (itemIdDiff, recentDeadMinCsn) =>
          match (page.applyItemIdDiff itemIdDiff recentDeadMinCsn).tryCompactTuples
              compactAllocated with
          | none => none
          | some page => some (page, [⟨itemIdDiff, recentDeadMinCsn⟩])

end DataPage

/-- `WalRecordHeapPrune::Redo`, by whether `compactItems` is allocated. -/
def WalRecordHeapPrune.redo (allocated : Bool) (record : WalRecordHeapPrune) (page : DataPage) :
    Option DataPage :=
  (page.applyItemIdDiff record.itemIdDiff record.recentDeadMinCsn).tryCompactTuples allocated

/-- Replay the records of a prune. -/
def redoPrune (allocated : Bool) : List WalRecordHeapPrune → DataPage → Option DataPage
  | [], page => some page
  | record :: records, page =>
    match record.redo allocated page with
    | none => none
    | some page => redoPrune allocated records page

end DStore
