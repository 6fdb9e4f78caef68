import DStore.Wal.PageHeader
import DStore.Wal.Plsn

/-!
# How long a log group may be

Three places limit the length of a group: the context that builds it, the reservation in the log
buffer and the reader. Before a group is copied, the writer also waits until the part of the
buffer it goes to is flushed, counted to the end of the block in which the group ends.
-/

namespace DStore

/-- `MAX_WAL_RECORD_SIZE`. -/
def maxWalRecordSize : ℕ := 65535 - WalRecordForPage.getMaxCompressedSize

/-- `WAL_GROUP_MAX_SIZE`. -/
def walGroupMaxSize : ℕ := 1030 * maxWalRecordSize

/-! ## Building a group -/

/-- The group that an `AtomicWalWriterContext` builds: its length and the size of the record that
was put last. -/
structure WalWriterContext where
  groupLen : ℕ
  curLogEntry : Option ℕ
deriving DecidableEq, Repr

namespace WalWriterContext

/-- `BeginAtomicWal`. -/
def beginAtomicWal : WalWriterContext := ⟨walGroupHeaderSize, none⟩

/-- `PutNewWalRecord` of a record of `recordSize` bytes which `CompressProcess` stores with
`storedSize`; `none` when the process stops. -/
def putNewWalRecord (ctx : WalWriterContext) (recordSize storedSize : ℕ) :
    Option WalWriterContext :=
  if recordSize > maxWalRecordSize ∨ recordSize < walRecordSize then none
  else
    let groupLen := ctx.groupLen + storedSize
    if groupLen > walGroupMaxSize then none else some ⟨groupLen, some storedSize⟩

/-- `Append` of `size` bytes to the last record; `none` when the process stops. -/
def append (ctx : WalWriterContext) (size : ℕ) : Option WalWriterContext :=
  match ctx.curLogEntry with
  | none => none
  | some nowRecordSize =>
    if size = 0 then none
    else if nowRecordSize + size > maxWalRecordSize ∨ ctx.groupLen + size > walGroupMaxSize then
      none
    else some ⟨ctx.groupLen + size, some (nowRecordSize + size)⟩

/-- The groups that can be built. -/
inductive Built : WalWriterContext → Prop where
  | begin : Built beginAtomicWal
  | put {ctx ctx' : WalWriterContext} (recordSize storedSize : ℕ) (hctx : Built ctx)
      (hput : ctx.putNewWalRecord recordSize storedSize = some ctx') : Built ctx'
  | append {ctx ctx' : WalWriterContext} (size : ℕ) (hctx : Built ctx)
      (happend : ctx.append size = some ctx') : Built ctx'

lemma putNewWalRecord_eq {ctx : WalWriterContext} {recordSize storedSize : ℕ}
    (hmax : recordSize ≤ maxWalRecordSize) (hmin : walRecordSize ≤ recordSize)
    (hlen : ctx.groupLen + storedSize ≤ walGroupMaxSize) :
    ctx.putNewWalRecord recordSize storedSize =
      some ⟨ctx.groupLen + storedSize, some storedSize⟩ := by
  unfold putNewWalRecord
  rw [if_neg (not_or.mpr ⟨not_lt.mpr hmax, not_lt.mpr hmin⟩)]
  exact if_neg (not_lt.mpr hlen)

/-- A group that could be built is within its limits. -/
lemma Built.groupLen {ctx : WalWriterContext} (h : Built ctx) :
    walGroupHeaderSize ≤ ctx.groupLen ∧ ctx.groupLen ≤ walGroupMaxSize := by
  induction h with
  | begin => decide
  | put recordSize storedSize _ hput ih =>
    unfold putNewWalRecord at hput
    dsimp only at hput
    split_ifs at hput with hsize hlen
    cases hput
    exact ⟨ih.1.trans (Nat.le_add_right _ _), not_lt.mp hlen⟩
  | append size _ happend ih =>
    unfold WalWriterContext.append at happend
    split at happend
    · cases happend
    · split_ifs at happend with hzero hlimit
      obtain rfl := Option.some.inj happend
      rw [not_or, not_lt, not_lt] at hlimit
      exact ⟨ih.1.trans (Nat.le_add_right _ _), hlimit.2⟩

end WalWriterContext

open WalWriterContext

/-! ## Reserving and waiting -/

/-- `m_bufferSize` of a buffer of `blockCount` blocks. -/
def walBufferSize (blockCount : ℕ) : ℕ := blockCount * walBlckSz

/-- `ReserveInsertByteLocation` at `endBytePos`: the start and the end of what is reserved; `none`
when the process stops. -/
def reserveInsertByteLocation (blockCount endBytePos reserveSize : ℕ) : Option (ℕ × ℕ) :=
  if reserveSize > walBufferSize blockCount - walFileHdrSize then none
  else some (endBytePos, endBytePos + reserveSize)

/-- What `CopyToBuffer` waits for: the end of the block in which the group ends. -/
def reuseEndPlsn (endPlsn : ℕ) : ℕ := endPlsn + walBlckSz - endPlsn % walBlckSz

/-- The test of `WaitUntilCorrespondBufferCanReuse`. -/
def canReuse (maxFlushFinishPlsn blockCount endPlsn : ℕ) : Bool :=
  decide (endPlsn ≤ maxFlushFinishPlsn + walBufferSize blockCount)

/-- `WaitUntilCorrespondBufferCanReuse` returns, when its reads of `m_maxFlushFinishPlsn` give
`polls`. -/
def WaitReturns (polls : ℕ → ℕ) (blockCount endPlsn : ℕ) : Prop :=
  ∃ n, canReuse (polls n) blockCount endPlsn = true

/-- `WalGroupParser::ValidWalGroupLen`. -/
def validWalGroupLen (groupLen : ℕ) : Bool :=
  !(decide (groupLen < walGroupHeaderSize) || decide (walGroupMaxSize ≤ groupLen))

/-- A block can be reused once the flush has come within a lap. -/
lemma canReuse_iff (flushed blockCount endPlsn : ℕ) :
    canReuse flushed blockCount (reuseEndPlsn endPlsn) ↔
      endPlsn / walBlckSz < flushed / walBlckSz + blockCount := by
  unfold canReuse reuseEndPlsn walBufferSize
  rw [decide_eq_true_eq]
  have hflushed := Nat.div_add_mod flushed walBlckSz
  have hend := Nat.div_add_mod endPlsn walBlckSz
  have hmod : flushed % walBlckSz < walBlckSz := Nat.mod_lt _ (by decide)
  have hmod' : endPlsn % walBlckSz < walBlckSz := Nat.mod_lt _ (by decide)
  unfold walBlckSz at *
  omega

/-- The wait returns exactly if the last flush is far enough. -/
lemma waitReturns_iff {polls : ℕ → ℕ} {flushed : ℕ} (hbound : ∀ n, polls n ≤ flushed)
    (hreached : ∃ n, polls n = flushed) (blockCount endPlsn : ℕ) :
    WaitReturns polls blockCount endPlsn ↔ canReuse flushed blockCount endPlsn := by
  constructor
  · rintro ⟨n, hn⟩
    have hle := hbound n
    unfold canReuse at hn ⊢
    rw [decide_eq_true_eq] at hn ⊢
    omega
  · intro h
    obtain ⟨n, hn⟩ := hreached
    exact ⟨n, hn ▸ h⟩

/-- Once all earlier groups are flushed, the wait for a group that was built and reserved returns
and the reader accepts its length exactly if the blocks from the end of the previous group to its
own end fit into the buffer and it is shorter than `WAL_GROUP_MAX_SIZE`. -/
theorem group_logged_iff (walFileSize : ℕ) {blockCount startBytePos endBytePos : ℕ}
    {ctx : WalWriterContext} (hbuilt : ctx.Built)
    (hreserve : reserveInsertByteLocation blockCount startBytePos ctx.groupLen =
      some (startBytePos, endBytePos))
    (polls : ℕ → ℕ) (hbound : ∀ n, polls n ≤ walBytePosToPlsn true walFileSize startBytePos)
    (hflushed : ∃ n, polls n = walBytePosToPlsn true walFileSize startBytePos) :
    WaitReturns polls blockCount (reuseEndPlsn (walBytePosToPlsn true walFileSize endBytePos)) ∧
        validWalGroupLen ctx.groupLen = true ↔
      walBytePosToPlsn true walFileSize (startBytePos + ctx.groupLen) / walBlckSz <
          walBytePosToPlsn true walFileSize startBytePos / walBlckSz + blockCount ∧
        ctx.groupLen < walGroupMaxSize := by
  have hend : endBytePos = startBytePos + ctx.groupLen := by
    unfold reserveInsertByteLocation at hreserve
    split_ifs at hreserve
    exact (Prod.mk.inj (Option.some.inj hreserve)).2.symm
  have hlen : validWalGroupLen ctx.groupLen = true ↔ ctx.groupLen < walGroupMaxSize := by
    have hheader := hbuilt.groupLen.1
    simp only [validWalGroupLen, Bool.not_eq_true', Bool.or_eq_false_iff, decide_eq_false_iff_not]
    omega
  rw [waitReturns_iff hbound hflushed, canReuse_iff, hlen, hend]

/-- A group with one record of a hundred bytes at the start of the log. -/
theorem group_logged_one_record :
    walBytePosToPlsn true 16777216 118 / walBlckSz <
        walBytePosToPlsn true 16777216 0 / walBlckSz + 128 ∧
      WaitReturns (fun _ => 0) 128 (reuseEndPlsn (walBytePosToPlsn true 16777216 118)) ∧
      validWalGroupLen 118 = true := by
  have hbuilt : Built ⟨118, some 100⟩ := .put 100 100 .begin rfl
  have hlogged := (group_logged_iff 16777216 hbuilt
    (show reserveInsertByteLocation 128 0 118 = some (0, 118) by decide)
    (fun _ => 0) (fun _ => Nat.zero_le _) ⟨0, by decide⟩).mpr ⟨by decide, by decide⟩
  exact ⟨by decide, hlogged⟩

lemma built_of_records (n : ℕ) (h : walGroupHeaderSize + n * maxWalRecordSize ≤ walGroupMaxSize) :
    ∃ cur, Built ⟨walGroupHeaderSize + n * maxWalRecordSize, cur⟩ := by
  induction n with
  | zero =>
    rw [Nat.zero_mul, Nat.add_zero]
    exact ⟨none, .begin⟩
  | succ n ih =>
    rw [Nat.add_one_mul, ← Nat.add_assoc] at h ⊢
    obtain ⟨cur, hcur⟩ := ih (by omega)
    exact ⟨_, .put maxWalRecordSize maxWalRecordSize hcur
      (putNewWalRecord_eq le_rfl (by decide) h)⟩

lemma built_of_records_last (n : ℕ) {last : ℕ} (hmax : last ≤ maxWalRecordSize)
    (hmin : walRecordSize ≤ last)
    (h : walGroupHeaderSize + n * maxWalRecordSize + last ≤ walGroupMaxSize) :
    Built ⟨walGroupHeaderSize + n * maxWalRecordSize + last, some last⟩ := by
  obtain ⟨cur, hcur⟩ := built_of_records n (by omega)
  exact .put last last hcur (putNewWalRecord_eq hmax hmin h)

/-- The longest group that a buffer of 128 blocks reserves waits forever at the start of the log,
and a group of the greatest length that can be built is not accepted by the reader. -/
theorem group_not_logged :
    (∃ ctx : WalWriterContext, ctx.Built ∧
      reserveInsertByteLocation 128 0 ctx.groupLen = some (0, 1048536) ∧
      ¬ WaitReturns (fun _ => walBytePosToPlsn true 16777216 0) 128
        (reuseEndPlsn (walBytePosToPlsn true 16777216 1048536))) ∧
      ∃ ctx : WalWriterContext, ctx.Built ∧
        reserveInsertByteLocation 16384 0 ctx.groupLen = some (0, 67490750) ∧
        WaitReturns (fun _ => walBytePosToPlsn true 16777216 0) 16384
          (reuseEndPlsn (walBytePosToPlsn true 16777216 67490750)) ∧
        validWalGroupLen ctx.groupLen = false := by
  constructor
  · refine ⟨_, built_of_records_last 16 (show 118 ≤ _ by decide) (by decide) (by decide),
      by decide, ?_⟩
    rintro ⟨n, hn⟩
    dsimp only at hn
    exact absurd hn (by decide)
  · exact ⟨_, built_of_records_last 1029 (show 65507 ≤ _ by decide) (by decide) (by decide),
      by decide, ⟨0, by decide⟩, by decide⟩

end DStore
