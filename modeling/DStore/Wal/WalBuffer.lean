import DStore.Lib.ByteMem
import DStore.Lib.SegmentRing
import DStore.Wal.Plsn

/-!
# The log buffer

Groups are written to a ring of blocks before they go to the log files. An inserter reserves a range
of the log, waits until the range's place in the ring can be reused, copies its group there and
marks the range as finished, by storing its end in a second ring, in the entry of its start. The
flusher follows the ends and hands out what is finished, never across the end of the ring.

The inserters and the flusher take turns in any order; each of the functions is one step. A message
of the level `DSTORE_PANIC` ends the process, so that there is no next state.
-/

namespace DStore

/-- The sizes that a log buffer works with: `m_walFileSize`, which `Init` checks, `blockCount`, and
`INSERT_STATUS_ENTRY_POW`, which is 24, or 16 in a build for unit tests. -/
structure WalBufferConf where
  walFileSize : ℕ
  blockCount : ℕ
  insertStatusEntryPow : ℕ
  header_lt_file : walFileHdrSize < walFileSize
  blocks_pos : 0 < blockCount

/-- `WalStreamBuffer`: `m_insertCtl.endBytePos`, the ring of blocks, the ring of ends,
`m_maxContinuousPlsn` and `m_lastScannedPlsn`. -/
structure WalStreamBuffer where
  endBytePos : ℕ
  blockPtrArr : ByteMem
  insertStateEntrys : ℕ → ℕ
  maxContinuousPlsn : ℕ
  lastScannedPlsn : ℕ

/-- What `GetNextFlushData` hands out. -/
structure FlushData where
  startPlsn : ℕ
  endPlsn : ℕ
  data : Option ℕ
  reachBufferTail : Bool
deriving DecidableEq, Repr

namespace WalBufferConf

variable (conf : WalBufferConf)

/-- `INSERT_STATUS_ENTRY_CNT`. -/
def insertStatusEntryCnt : ℕ := 2 ^ conf.insertStatusEntryPow

instance neZeroInsertStatusEntryCnt : NeZero conf.insertStatusEntryCnt :=
  ⟨(Nat.two_pow_pos conf.insertStatusEntryPow).ne'⟩

/-- `m_bufferSize`. -/
def bufferSize : ℕ := conf.blockCount * walBlckSz

/-- `m_maxReserveSize`. -/
def maxReserveSize : ℕ := conf.bufferSize - walFileHdrSize

/-- `Init` followed by `InitPlsn`: the groups up to the position `b` are in the files, and the ring
may hold their last block. -/
def initBuffer (b : ℕ) (ring : ByteMem) : WalStreamBuffer where
  endBytePos := b
  blockPtrArr := ring
  insertStateEntrys := fun _ => 0
  maxContinuousPlsn := walBytePosToPlsn true conf.walFileSize b
  lastScannedPlsn := walBytePosToPlsn true conf.walFileSize b

/-- `ReserveInsertByteLocation` of `size` bytes, which start at the old `endBytePos`. -/
def reserveInsertByteLocation (buffer : WalStreamBuffer) (size : ℕ) : Option WalStreamBuffer :=
  if conf.maxReserveSize < size then none
  else some { buffer with endBytePos := buffer.endBytePos + size }

/-- `GetBufferBlock`: where in the ring the byte of `plsn` is. -/
def getBufferBlock (plsn : ℕ) : ℕ :=
  plsn / walBlckSz % conf.blockCount * walBlckSz + plsn % walBlckSz

/-- `CalculateFreeSpaceInBlock`. -/
def calculateFreeSpaceInBlock (plsn : ℕ) : ℕ := walBlckSz - plsn % walBlckSz

lemma calculateFreeSpaceInBlock_pos (plsn : ℕ) : 0 < calculateFreeSpaceInBlock plsn :=
  Nat.sub_pos_of_lt (Nat.mod_lt _ (by decide))

/-- The loop of `CopyToBuffer`: `walLen` bytes of `data` from `src` on go to `bufPos`, the place of
`curPlsn`. At the start of a file the header gets the length of the rest. -/
def copyLoop (data : ByteMem) (src walLen curPlsn bufPos : ℕ) (ring : ByteMem) : ByteMem × ℕ :=
  if calculateFreeSpaceInBlock curPlsn < walLen then
    let freeSpace := calculateFreeSpaceInBlock curPlsn
    let ring := ring.blit bufPos data src freeSpace
    let curPlsn' := curPlsn + freeSpace
    let bufPos := conf.getBufferBlock curPlsn'
    if curPlsn' % conf.walFileSize = 0 then
      copyLoop data (src + freeSpace) (walLen - freeSpace) (curPlsn' + walFileHdrSize)
        (bufPos + walFileHdrSize)
        (ring.writeLE (bufPos + lastRecordRemainLenOff) 4 (walLen - freeSpace))
    else copyLoop data (src + freeSpace) (walLen - freeSpace) curPlsn' bufPos ring
  else (ring.blit bufPos data src walLen, curPlsn + walLen)
termination_by walLen
decreasing_by
  all_goals
    have hfree := calculateFreeSpaceInBlock_pos curPlsn
    omega

/-- `CopyToBuffer` behind its wait, of a group at `startPlsn`: the new ring, and the plsn it ends
at, which is compared with the reserved one. -/
def copyToBuffer (data : List UInt8) (startPlsn : ℕ) (ring : ByteMem) : ByteMem × ℕ :=
  let bufPos := conf.getBufferBlock startPlsn
  let ring := if startPlsn % conf.walFileSize = walFileHdrSize then
      ring.writeLE (bufPos - walFileHdrSize + lastRecordRemainLenOff) 4 0
    else ring
  conf.copyLoop (ByteMem.ofBytes data) 0 data.length startPlsn bufPos ring

/-- `MarkInsertFinish` behind its wait. -/
def markInsertFinish (buffer : WalStreamBuffer) (startPlsn endPlsn : ℕ) : WalStreamBuffer :=
  let entrys := if startPlsn % conf.walFileSize = walFileHdrSize then
      Function.update buffer.insertStateEntrys
        ((startPlsn - walFileHdrSize) % conf.insertStatusEntryCnt) startPlsn
    else buffer.insertStateEntrys
  { buffer with
    insertStateEntrys := Function.update entrys (startPlsn % conf.insertStatusEntryCnt) endPlsn }

/-- `GetMaxContinuesPlsn`, without the store of its result. -/
def getMaxContinuesPlsn (buffer : WalStreamBuffer) : ℕ :=
  SegmentRing.scan conf.insertStatusEntryCnt buffer.insertStateEntrys buffer.maxContinuousPlsn

/-- `GetNextFlushData`. -/
def getNextFlushData (buffer : WalStreamBuffer) : Option (WalStreamBuffer × FlushData) :=
  let startPlsn := buffer.lastScannedPlsn
  let endBound := conf.getMaxContinuesPlsn buffer
  let buffer := { buffer with maxContinuousPlsn := endBound }
  if endBound = startPlsn then some (buffer, ⟨startPlsn, startPlsn, none, false⟩)
  else
    let currentBufferEndPlsn := (buffer.lastScannedPlsn / conf.bufferSize + 1) * conf.bufferSize
    let reachBufferTail := decide (currentBufferEndPlsn ≤ endBound)
    let endBound := if reachBufferTail then currentBufferEndPlsn else endBound
    if endBound < buffer.lastScannedPlsn then none
    else some ({ buffer with lastScannedPlsn := endBound },
      ⟨startPlsn, endBound, some (conf.getBufferBlock buffer.lastScannedPlsn), reachBufferTail⟩)

end WalBufferConf

/-! ## Inserters and the flusher -/

/-- A group with the position that was reserved for it. -/
structure WalInsert where
  startBytePos : ℕ
  data : List UInt8

/-- How far an inserter is. -/
inductive InsertPhase where
  | reserved
  | copied
  | finished
deriving DecidableEq, Repr

/-- A buffer with the groups that were reserved, in order, how far their inserters are,
`m_maxFlushFinishPlsn`, and the ranges that were handed out. -/
structure WalInsertState where
  buffer : WalStreamBuffer
  inserts : List WalInsert
  phase : ℕ → InsertPhase
  maxFlushFinishPlsn : ℕ
  handedOut : List (ℕ × ℕ)

/-- What can happen next: `ReserveInsertByteLocation` for a group, `CopyToBuffer` or
`MarkInsertFinish` of the group at a position, `GetNextFlushData`, or the end of a flush. -/
inductive WalInsertAction where
  | reserve (data : List UInt8)
  | copy (startBytePos : ℕ)
  | finish (startBytePos : ℕ)
  | flush
  | flushFinish (plsn : ℕ)

namespace WalBufferConf

variable (conf : WalBufferConf)

/-- The start of a group. -/
def startPlsn (ins : WalInsert) : ℕ := walBytePosToPlsn false conf.walFileSize ins.startBytePos

/-- The end of a group. -/
def endPlsn (ins : WalInsert) : ℕ :=
  walBytePosToPlsn true conf.walFileSize (ins.startBytePos + ins.data.length)

/-- What `CopyToBuffer` waits for: `WaitUntilCorrespondBufferCanReuse` of the end of the last block
of the group. -/
def CanReuse (s : WalInsertState) (ins : WalInsert) : Prop :=
  conf.endPlsn ins + walBlckSz - conf.endPlsn ins % walBlckSz ≤
    s.maxFlushFinishPlsn + conf.bufferSize

instance decidableCanReuse (s : WalInsertState) (ins : WalInsert) :
    Decidable (conf.CanReuse s ins) :=
  inferInstanceAs (Decidable (_ ≤ _))

/-- What `MarkInsertFinish` waits for. -/
def CanMark (s : WalInsertState) (ins : WalInsert) : Prop :=
  conf.startPlsn ins < s.buffer.maxContinuousPlsn + conf.insertStatusEntryCnt

instance decidableCanMark (s : WalInsertState) (ins : WalInsert) : Decidable (conf.CanMark s ins) :=
  inferInstanceAs (Decidable (_ < _))

/-- The group that was reserved at a position. -/
def findInsert (s : WalInsertState) (startBytePos : ℕ) : Option WalInsert :=
  s.inserts.find? fun ins => ins.startBytePos = startBytePos

/-- The state after an action; nothing when the action cannot be taken now. A group is never empty,
as it has a header. -/
def step (s : WalInsertState) : WalInsertAction → Option WalInsertState
  | .reserve data =>
    if data = [] then none
    else
      (conf.reserveInsertByteLocation s.buffer data.length).map fun buffer =>
        { s with
          buffer := buffer
          inserts := s.inserts ++ [⟨s.buffer.endBytePos, data⟩] }
  | .copy startBytePos =>
    (findInsert s startBytePos).bind fun ins =>
      if s.phase startBytePos = .reserved ∧ conf.CanReuse s ins then
        let copied := conf.copyToBuffer ins.data (conf.startPlsn ins) s.buffer.blockPtrArr
        if copied.2 ≠ conf.endPlsn ins then none
        else some { s with
          buffer := { s.buffer with blockPtrArr := copied.1 }
          phase := Function.update s.phase startBytePos .copied }
      else none
  | .finish startBytePos =>
    (findInsert s startBytePos).bind fun ins =>
      if s.phase startBytePos = .copied ∧ conf.CanMark s ins then
        some { s with
          buffer := conf.markInsertFinish s.buffer (conf.startPlsn ins) (conf.endPlsn ins)
          phase := Function.update s.phase startBytePos .finished }
      else none
  | .flush =>
    (conf.getNextFlushData s.buffer).map fun (buffer, flushed) =>
      { s with
        buffer := buffer
        handedOut := if flushed.data = none then s.handedOut
          else s.handedOut ++ [(flushed.startPlsn, flushed.endPlsn)] }
  | .flushFinish plsn =>
    if s.maxFlushFinishPlsn ≤ plsn ∧ plsn ≤ s.buffer.lastScannedPlsn then
      some { s with maxFlushFinishPlsn := plsn }
    else none

/-- The state after the log up to the position `b` was recovered. -/
def init (b : ℕ) (ring : ByteMem) : WalInsertState where
  buffer := conf.initBuffer b ring
  inserts := []
  phase := fun _ => .reserved
  maxFlushFinishPlsn := walBytePosToPlsn true conf.walFileSize b
  handedOut := []

/-- The states that are reached from a recovered log. -/
inductive Reachable (b : ℕ) : WalInsertState → Prop where
  | init (ring : ByteMem) : Reachable b (conf.init b ring)
  | step {s s' : WalInsertState} (action : WalInsertAction) (h : Reachable b s)
      (hstep : conf.step s action = some s') : Reachable b s'

end WalBufferConf

end DStore
