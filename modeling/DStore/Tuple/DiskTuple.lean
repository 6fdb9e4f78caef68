import DStore.Tuple.HeapDiskTuple

/-!
# Tuple headers in page bytes

Heap tuples and index tuples keep their TD link in the bytes of the tuple: a td id, a
two-bit td status inside the 32-bit `m_info` word, and, for heap tuples, a locker td id.
A header is read and written in place, at the address the item id gives.
-/

namespace DStore

/-- `PageType`, for the two types of data page. -/
inductive PageType where
  | heap
  | index
deriving DecidableEq, Repr

namespace DiskTuple

variable (pt : PageType) (m : ByteMem) (off : ℕ)

/-- Address of `m_info` relative to the tuple: `HeapDiskTuple` and `IndexTuple`. -/
def infoPos : PageType → ℕ
  | .heap => 12
  | .index => 8

/-- First bit of `m_tdStatus` in `m_info`. -/
def tdStatusBit : PageType → ℕ
  | .heap => 4
  | .index => 24

/-- The 32-bit `m_info` word. -/
def getInfo : ℕ := m.readLE (off + infoPos pt) 4

/-- Store the 32-bit `m_info` word. -/
def setInfo (info : ℕ) : ByteMem := m.writeLE (off + infoPos pt) 4 info

/-- `GetTdId`: a byte of the heap header, a field of `m_info` for an index tuple. -/
def getTdId : ℕ :=
  match pt with
  | .heap => HeapDiskTuple.getTdId m off
  | .index => BitField.get 16 8 (getInfo .index m off)

/-- `GetLockerTdId`: index tuples are never locked. -/
def getLockerTdId : ℕ :=
  match pt with
  | .heap => HeapDiskTuple.getLockerTdId m off
  | .index => 0xFF

/-- The raw `m_tdStatus` bits. -/
def tdStatusCode : ℕ := BitField.get (tdStatusBit pt) 2 (getInfo pt m off)

/-- `SetTdStatus`. -/
def setTdStatus (status : TupleTdStatus) : ByteMem :=
  setInfo pt m off (BitField.set (tdStatusBit pt) 2 status.code (getInfo pt m off))

end DiskTuple

end DStore
