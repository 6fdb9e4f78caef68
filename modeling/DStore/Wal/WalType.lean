import DStore.Common.Types

/-!
# WAL record types

The types of log records and the predicates by which the writer, the dispatcher and the redo code
tell them apart.
-/

namespace DStore

/-- `WalType`. -/
inductive WalType where
  | heapInsert | heapBatchInsert | heapDelete | heapInplaceUpdate | heapSamePageAppend
  | heapAnotherPageAppendUpdateNewPage | heapAnotherPageAppendUpdateOldPage | heapAllocTd
  | heapPrune | heapForceUpdateTupleDataNoTrx | btreeBuild | btreeInitMetaPage
  | btreeUpdateMetaRoot | btreeUpdateLowestSinglePage | btreeNewInternalRoot | btreeNewLeafRoot
  | btreeInsertOnInternal | btreeInsertOnLeaf | btreeSplitInternal | btreeSplitLeaf
  | btreeSplitInsertInternal | btreeSplitInsertLeaf | btreeNewInternalRight | btreeNewLeafRight
  | btreeDeleteOnInternal | btreeDeleteOnLeaf | btreePagePrune | btreeAllocTd
  | btreeUpdateLivestatus | btreeUpdateSplitstatus | btreeUpdateLeftSibLink
  | btreeUpdateRightSibLink | btreeUpdateDownlink | btreeEraseInsForDelFlag
  | btreeRecyclePartitionInitPage | btreeRecyclePartitionPush | btreeRecyclePartitionBatchPush
  | btreeRecyclePartitionPop | btreeRecyclePartitionAllocSlot | btreeRecyclePartitionWriteSlot
  | btreeRecycleQueuePageMetaSetNext | btreeRecyclePartitionMetaInit
  | btreeRecyclePartitionMetaSetHead | btreeRecyclePartitionMetaTimestampUpdate
  | btreeRecycleRootMetaInit | btreeRecycleRootMetaSetPartitionMeta | tbsInitBitmapMetaPage
  | tbsInitTbsFileMetaPage | tbsInitTbsSpaceMetaPage | tbsUpdateTbsFileMetaPage
  | tbsInitOneBitmapPage | tbsInitBitmapPages | tbsAddBitmapPages | tbsBitmapAllocBitStart
  | tbsBitmapAllocBitEnd | tbsBitmapFreeBitStart | tbsBitmapFreeBitEnd | tbsExtendFile
  | tbsInitUndoSegmentMeta | tbsInitDataSegmentMeta | tbsInitHeapSegmentMeta | tbsInitFsmMeta
  | tbsInitFsmPage | tbsInitExtMeta | tbsModifyExtMetaNext | tbsModifyFsmIndex | tbsAddFsmSlot
  | tbsMoveFsmSlot | tbsSegAddExt | tbsDataSegAddExt | tbsSegMetaAssignDataPages | tbsSegUnlinkExt
  | tbsSegMetaAddFsmTree | tbsSegMetaRecycleFsmTree | tbsSegMetaAdjustDataPagesInfo
  | tbsFsmMetaUpdateFsmTree | tbsFsmMetaUpdateNumUsedPages | tbsFsmMetaUpdateExtensionStat
  | tbsInitOneDataPage | tbsInitMultipleDataPages | tbsUpdateFirstFreeBitmapPage
  | tbsCreateTablespace | tbsCreateDataFile | tbsAddFileToTablespace | tbsDropTablespace
  | tbsDropDataFile | tbsAlterTablespace | checkpointShutdown | checkpointOnline
  | undoInitMapSegment | undoSetZoneSegmentId | undoInsertRecord | undoInitRecordSpace
  | undoExtendPageRingPrevPage | undoExtendPageRingNextPage | undoExtendPageRingNewPage
  | undoInitTxnPage | undoUpdateTxnSlotPtr | undoAllocateTxnSlot | undoSetTxnPageInited | undoHeap
  | undoBtree | undoHeapPageRollBack | undoBtreePageRollBack | undoRecycleTxnSlot | txnCommit
  | txnAbort | nextCsn | barrierCsn | systableWriteBuiltinRelmap
deriving DecidableEq, Repr

namespace WalType

/-- `IsRedoableWalRecord`. -/
def isRedoableWalRecord : WalType → Bool
  | .checkpointShutdown | .checkpointOnline => false
  | _ => true

/-- `IsWalRecordWithMultiPagesInfo`. -/
def isWalRecordWithMultiPagesInfo : WalType → Bool
  | .tbsInitMultipleDataPages | .tbsInitBitmapPages => true
  | _ => false

/-- `IsWalRecordWithoutPageInfo`. -/
def isWalRecordWithoutPageInfo : WalType → Bool
  | .tbsCreateTablespace | .tbsCreateDataFile | .tbsAddFileToTablespace | .tbsDropTablespace
  | .tbsDropDataFile | .tbsAlterTablespace | .systableWriteBuiltinRelmap => true
  | _ => false

/-- `WalRecovery::IsSupportCompress`. -/
def isSupportCompress : WalType → Bool
  | .tbsInitOneDataPage | .tbsInitOneBitmapPage | .tbsInitMultipleDataPages | .tbsInitBitmapPages
  | .tbsCreateTablespace | .tbsCreateDataFile | .tbsAddFileToTablespace | .tbsDropTablespace
  | .tbsDropDataFile | .tbsAlterTablespace | .nextCsn | .barrierCsn
  | .systableWriteBuiltinRelmap => false
  | _ => true

end WalType

end DStore
