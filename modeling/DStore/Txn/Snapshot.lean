import DStore.Page.Td

/-!
# Snapshots

What a reading transaction may see: commits before the snapshot's csn, and its own commands
before the snapshot's command id.
-/

namespace DStore

/-- `SnapshotType`. -/
inductive SnapshotType where
  | mvcc
  | now
  | dirty
deriving DecidableEq, Repr

/-- `SnapshotData`. -/
structure Snapshot where
  snapshotType : SnapshotType
  snapshotCsn : ℕ
  currentCid : ℕ
deriving DecidableEq, Repr

/-- `SnapshotData::GetCsn`. -/
def Snapshot.getCsn (snapshot : Snapshot) : ℕ :=
  if snapshot.snapshotType = .mvcc then snapshot.snapshotCsn else maxCommitSeqNo

/-- What visibility checks read of the reading `Transaction`. -/
structure Transaction where
  currentXid : Xid
  currentCommandId : ℕ
  currentCommandIdUsed : Bool
deriving DecidableEq, Repr

/-- `CidVisibleToSnapshot(txn, snapshot, cid)`. -/
def cidVisibleToSnapshot (txn : Transaction) (snapshot : Snapshot) (cid : ℕ) : Bool :=
  (!txn.currentCommandIdUsed && txn.currentCommandId = snapshot.currentCid) ||
    cid < snapshot.currentCid

end DStore
