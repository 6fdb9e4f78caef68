import DStore.Lib.BitField
import DStore.Common.Types

/-!
# Item ids

An `ItemId` is one 32-bit word read in two ways: `direct` (flags, offset, length) and, for a
tuple whose storage was pruned away, `redirect`, whose `tdId`, `tdStatus` and `tupLiveMode`
overlay the offset bits. The word is kept as its `direct` fields.
-/

namespace DStore

open BitField

/-- `TupleTdStatus`: how a tuple hangs on its TD. -/
inductive TupleTdStatus where
  | attachTdAsNewOwner
  | attachTdAsHistoryOwner
  | detachTd
deriving DecidableEq, Repr

/-- The two bits that store a `TupleTdStatus`. -/
def TupleTdStatus.code : TupleTdStatus → ℕ
  | attachTdAsNewOwner => 0
  | attachTdAsHistoryOwner => 1
  | detachTd => 2

/-- A td status has two bits. -/
lemma TupleTdStatus.code_lt (s : TupleTdStatus) : s.code < 4 := by
  cases s <;> decide

/-- `ItemIdState`. -/
inductive ItemIdState where
  | unused
  | normal
  | unreadableRangeHolder
  | noStorage
deriving DecidableEq, Repr

/-- `ItemId`. -/
structure ItemId where
  flags : ItemIdState
  offset : ℕ
  len : ℕ
deriving DecidableEq, Repr

namespace ItemId

/-- `SetUnused`, on any item. -/
def unused : ItemId := ⟨.unused, 0, 0⟩

/-- `SetNormal`, on any item: both fields have 15 bits. -/
def normal (off size : ℕ) : ItemId := ⟨.normal, off % 2 ^ 15, size % 2 ^ 15⟩

variable (item : ItemId)

/-- `SetNoStorage`: the offset bits stay, they become the `redirect` view. -/
def setNoStorage : ItemId := { item with flags := .noStorage, len := 0 }

/-- `IsUnused`. -/
def isUnused : Bool := item.flags = .unused

/-- `IsNormal`. -/
def isNormal : Bool := item.flags = .normal

/-- `IsNoStorage`. -/
def isNoStorage : Bool := item.flags = .noStorage

/-- `GetTdId` of the `redirect` view. -/
def getTdId : ℕ := get 0 8 item.offset

/-- `SetTdId` of the `redirect` view. -/
def setTdId (tdId : ℕ) : ItemId :=
  { item with offset := set 0 8 tdId item.offset }

/-- The raw `redirect.m_tdStatus` bits. -/
def tdStatusCode : ℕ := get 8 2 item.offset

/-- `SetTdStatus` of the `redirect` view. -/
def setTdStatus (status : TupleTdStatus) : ItemId :=
  { item with offset := set 8 2 status.code item.offset }

/-- `SetTupLiveMode` of the `redirect` view. -/
def setTupLiveMode (mode : ℕ) : ItemId :=
  { item with offset := set 10 3 mode item.offset }

lemma not_isUnused_of_isNormal {item : ItemId} (h : item.isNormal) : ¬ item.isUnused := by
  simp only [isNormal, isUnused, decide_eq_true_eq] at h ⊢
  rw [h]
  decide

@[simp] lemma tdStatusCode_setTdStatus (item : ItemId) (s : TupleTdStatus) :
    (item.setTdStatus s).tdStatusCode = s.code := by
  rw [tdStatusCode, setTdStatus, get_set_self]
  exact Nat.mod_eq_of_lt s.code_lt

@[simp] lemma getTdId_setTdStatus (item : ItemId) (s : TupleTdStatus) :
    (item.setTdStatus s).getTdId = item.getTdId :=
  get_set_of_disjoint (by decide) _ _

end ItemId

end DStore
