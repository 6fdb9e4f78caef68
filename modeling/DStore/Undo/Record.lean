import DStore.Common.Types

/-!
# Undo records of a page

An undo record carries, besides the change it reverses, the content its TD had before the
change: the records of one TD form a chain through `tdPreUndoPtr`.
-/

namespace DStore

/-- `TdCsnStatus`: whose commit the `csn` of a TD belongs to. -/
inductive TdCsnStatus where
  | isInvalid
  | isPrevXidCsn
  | isCurXidCsn
deriving DecidableEq, Repr

/-- One diff section of an in-place update: the bytes whose distance to the end of the old
tuple data is in `[start, stop)`. -/
structure DiffSection where
  start : ℕ
  stop : ℕ
  bytes : List UInt8
deriving DecidableEq, Repr

/-- The type-specific payload of an undo record (`UndoType` and `UndoData...`). -/
inductive UndoData where
  | heapInsert
  | heapBatchInsert (ranges : List (ℕ × ℕ))
  | heapDelete (tuple : List UInt8)
  | heapInplaceUpdate (oldTdId oldInfo oldTupleLen : ℕ) (oldXid : Xid)
      (diffs : List DiffSection)
  | heapSamePageAppendUpdate (tuple : List UInt8)
  | heapAnotherPageAppendUpdateOldPage (newCtid : ItemPointerData) (tuple : List UInt8)
  | heapAnotherPageAppendUpdateNewPage
  /-- Any of the index types; a heap page never applies one. -/
  | btree
deriving DecidableEq, Repr

/-- `UndoRecord`: the header with its `UndoTdInfo`, and the payload. -/
structure UndoRecord where
  ctid : ItemPointerData
  cid : ℕ
  tdId : ℕ
  tdPreXid : Xid
  tdPreUndoPtr : UndoRecPtr
  tdPreCsn : ℕ
  tdPreCsnStatus : TdCsnStatus
  data : UndoData
deriving DecidableEq, Repr

end DStore
