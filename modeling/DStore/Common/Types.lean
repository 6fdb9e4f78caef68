import Mathlib.Algebra.Group.Nat.Defs
import Mathlib.Logic.Function.Basic

/-!
# Identifiers shared by pages, undo records and transactions

The scalar types every component passes around: transaction ids, commit sequence
numbers, command ids, page ids and the pointers made of them. An identifier that is
stored in page bytes keeps its machine width; the two sequence numbers, which the code
only compares, are naturals.
-/

namespace DStore

/-- `RetStatus`. -/
inductive RetStatus where
  | succ
  | fail
deriving DecidableEq, Repr

/-- `Xid`: the 64-bit word `m_placeHolder`, zone in the low 20 bits, logic slot above. -/
abbrev Xid := UInt64

/-- `INVALID_XID`. -/
def invalidXid : Xid := 0xFFFFFFFFFFFFFFFF

/-- `Xid::m_zoneId`. -/
def Xid.zoneId (xid : Xid) : ℕ := xid.toNat % 2 ^ 20

/-- `INVALID_CSN`: commit sequence numbers are naturals. -/
def invalidCsn : ℕ := 0

/-- `COMMITSEQNO_FIRST_NORMAL`. -/
def commitSeqNoFirstNormal : ℕ := 1

/-- `MAX_COMMITSEQNO`. -/
def maxCommitSeqNo : ℕ := 2 ^ 64 - 1

/-- `FIRST_CID`: command ids are naturals. -/
def firstCid : ℕ := 0

/-- `INVALID_CID`. -/
def invalidCid : ℕ := 2 ^ 32 - 1

/-- `INVALID_ITEM_OFFSET_NUMBER`: offsets into the item array of a page are one-based. -/
def invalidItemOffsetNumber : ℕ := 0

/-- `PageId`. -/
structure PageId where
  fileId : UInt16
  blockId : UInt32
deriving DecidableEq, Repr

/-- `ItemPointerData`: a page and a 16-bit position in it. -/
structure ItemPointerData where
  pageId : PageId
  offset : UInt16
deriving DecidableEq, Repr

/-- `UndoRecPtr`. -/
abbrev UndoRecPtr := ItemPointerData

/-- `INVALID_UNDO_RECORD_PTR`: all bits of `m_placeHolder` set. -/
def invalidUndoRecPtr : UndoRecPtr := ⟨⟨0xFFFF, 0xFFFFFFFF⟩, 0xFFFF⟩

/-- `TrxSlotStatus`. -/
inductive TrxSlotStatus where
  | unknown
  | frozen
  | inProgress
  | pendingCommit
  | committed
  | aborted
  | failed
  | prepared
deriving DecidableEq, Repr

/-- A change at one place that keeps what `g` reads there. -/
lemma apply_update_of_eq {α β γ : Type} [DecidableEq α] {f : α → β} {a a' : α} {b : β} (g : β → γ)
    (h : g b = g (f a)) : g (Function.update f a b a') = g (f a') := by
  by_cases heq : a' = a
  · rw [heq, Function.update_self, h]
  · rw [Function.update_of_ne heq]

end DStore
