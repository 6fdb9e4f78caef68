import DStore.Common.Types

/-!
# The commit sequence number manager

`CsnMgr` hands out csns from a counter in memory. A csn may be returned only below the
reservation that is stored in the control file, so that a restart, which continues above the
reservation, never hands it out again. One caller in `csnAssignmentIncrement` extends the
reservation; the others wait until it covers their csn.

All csn arithmetic is that of `uint64`.
-/

namespace DStore

/-! ## The control file -/

/-- How a call of `ControlCsnInfo::SetMaxReservedCSN` goes: it gets through, it fails with the
old value still on disk, or it fails after the new value has reached the disk. -/
inductive ControlWrite where
  | done
  | failedOld
  | failedNew
deriving DecidableEq, Repr

/-- `ControlCsnInfo::SetMaxReservedCSN`: the value it leaves in the reference parameter, `none`
when it fails, and the reservation on disk. Nothing is written if a reservation as large is
stored already. -/
def setMaxReservedCSN (write : ControlWrite) (stored csn : ℕ) : Option ℕ × ℕ :=
  if write = .failedOld then (none, stored)
  else if csn ≤ stored then (some stored, stored)
  else if write = .failedNew then (none, csn)
  else (some csn, csn)

/-! ## The manager -/

/-- `CsnMgr`: the fields that `GetNextCsn` uses. -/
structure CsnMgr where
  csnAssignmentIncrement : ℕ
  nextCsn : ℕ
  maxReservedCsn : ℕ
deriving DecidableEq, Repr

namespace CsnMgr

variable (mgr : CsnMgr)

/-- `CsnMgr::Initialize` on a new manager, with the reservation `stored`. -/
def initializeFrom (csnAssignmentIncrement stored : ℕ) : CsnMgr where
  csnAssignmentIncrement := csnAssignmentIncrement
  nextCsn := (stored + 1) % 2 ^ 64
  maxReservedCsn := stored

/-- The atomic increment of `GetNextCsn`. -/
def fetchAddNextCsn : CsnMgr := { mgr with nextCsn := (mgr.nextCsn + 1) % 2 ^ 64 }

/-- The test of `GetNextCsn` whether this caller extends the reservation. -/
def extendsReservation (curCsn : ℕ) : Bool :=
  curCsn % mgr.csnAssignmentIncrement = commitSeqNoFirstNormal

/-- The first half of `UpdateMaxReservedCsnIfNecessary`: the reservation to ask for, if any. -/
def newMaxReservedCsn (curCsn : ℕ) : Option ℕ :=
  let increment := mgr.csnAssignmentIncrement
  if mgr.maxReservedCsn ≤ curCsn then
    some ((((curCsn / increment + 1) * increment) % 2 ^ 64 + increment) % 2 ^ 64)
  else if mgr.maxReservedCsn - curCsn ≤ increment then
    some ((mgr.maxReservedCsn + increment) % 2 ^ 64)
  else none

/-- `UpdateMaxReservedCsn`: the manager, `none` on failure, and the reservation on disk. The
lock it takes makes it one step. -/
def updateMaxReservedCsn (write : ControlWrite) (stored newMaxReservedCsn : ℕ) :
    Option CsnMgr × ℕ :=
  if newMaxReservedCsn > mgr.maxReservedCsn then
    match setMaxReservedCSN write stored newMaxReservedCsn with
    | (none, stored) => (none, stored)
    | (some csn, stored) => (some { mgr with maxReservedCsn := csn }, stored)
  else (some mgr, stored)

end CsnMgr

/-! ## One caller -/

/-- What becomes of a call: a csn, `DSTORE_FAIL`, or a wait that no one will end. -/
inductive CsnResult where
  | csn (curCsn : ℕ)
  | fail
  | waits
deriving DecidableEq, Repr

/-- The manager and the reservation on disk. -/
structure CsnState where
  mgr : CsnMgr
  stored : ℕ
deriving DecidableEq, Repr

namespace CsnState

variable (st : CsnState)

/-- The wait loop of `GetNextCsn`, with no other caller around. -/
def waitReserved (curCsn : ℕ) : CsnResult :=
  if curCsn > st.mgr.maxReservedCsn then .waits else .csn curCsn

/-- `GetNextCsn(outNextCsn, true)`, with no other caller around. -/
def getNextCsnAdvance (write : ControlWrite) : CsnResult × CsnState :=
  let curCsn := st.mgr.nextCsn
  let st := { st with mgr := st.mgr.fetchAddNextCsn }
  if st.mgr.extendsReservation curCsn then
    match st.mgr.newMaxReservedCsn curCsn with
    | none => (st.waitReserved curCsn, st)
    | some csn =>
      match st.mgr.updateMaxReservedCsn write st.stored csn with
      | (none, stored) => (.fail, { st with stored := stored })
      | (some mgr, stored) =>
        let st : CsnState := ⟨mgr, stored⟩
        (st.waitReserved curCsn, st)
  else (st.waitReserved curCsn, st)

end CsnState

/-- A call of `GetNextCsn`. -/
inductive CsnCall where
  | peek
  | advance (write : ControlWrite)
deriving DecidableEq, Repr

/-- The calls of one thread: their results, up to one that waits. -/
def CsnState.run : List CsnCall → CsnState → List CsnResult
  | [], _ => []
  | .peek :: calls, st => .csn st.mgr.nextCsn :: run calls st
  | .advance write :: calls, st =>
    match st.getNextCsnAdvance write with
    | (.waits, _) => [.waits]
    | (result, st) => result :: run calls st

end DStore
