import DStore.Heap.HeapCr
import DStore.Heap.InplaceCodec
import DStore.Heap.LockKept
import DStore.Heap.PruneRedo
import DStore.Heap.UndoFailure
import DStore.Index.CachedSearch
import DStore.Index.InsertUndo
import DStore.Index.RightWalk
import DStore.Index.TruncateHikey
import DStore.Lock.EarlyDeadlock
import DStore.Page.CrDetach
import DStore.Txn.CommitSlot
import DStore.Txn.CsnOrder
import DStore.Txn.CsnReserve
import DStore.Txn.LazyLockExclusion
import DStore.Txn.TxnInfoSound
import DStore.Undo.RingSafety
import DStore.Undo.Rollback
import DStore.Undo.SlotRestore
import DStore.Wal.AtomicWal
import DStore.Wal.FlushOrder
import DStore.Wal.GroupLimits
import DStore.Wal.InitPagesWait
import DStore.Wal.PrevReadPoint
import DStore.Wal.RecoveryTruncate
import DStore.Wal.RedoRefine
