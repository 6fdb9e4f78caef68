import DStore.Lib.ByteMem
import DStore.Wal.Plsn
import DStore.Wal.WalType

/-!
# What recovery leaves of the log

Recovery reads the complete groups of the log in order and redoes their records. When it has reached
the end, the log is cut behind the last group, and all later files are emptied. The end position
travels through `RedoLoopReadAndRedoWalRecord`, `Redo`, `WalRecovery::Recovery` and
`WalStream::Recovery`, together with the status.

The reader is given by the results of `ReadNext`, the redo of one record by what `RedoSingle` meets
at it. A log message of the level `DSTORE_PANIC` ends the process in `ErrFinish`.
-/

namespace DStore

open List Option

/-! ## The log and its reader -/

/-- A complete group of the log: where it starts and how long its records are. `EndAtomicWal`
appends no group without a record. -/
structure WalGroup where
  startPlsn : ℕ
  recordSizes : List ℕ
  recordSizes_ne : recordSizes ≠ []

/-- The end of a group. -/
def WalGroup.endPlsn (walFileSize : ℕ) (group : WalGroup) : ℕ :=
  getRecordPlsn true group.startPlsn (walGroupHeaderSize + group.recordSizes.sum) walFileSize

/-- What `ReadNext` returns: a failure, a null group, together with what `IsHasStopWalReceiving`
then says, or a group. -/
inductive ReadResult where
  | fail
  | null (stopReceiving : Bool)
  | group (group : WalGroup)

/-- The results of reading a log with the complete groups `wal`: the groups in order, and null
groups behind the last one. A standby also reads a null group when the next group has not come
yet. -/
inductive ReadsWal (standby : Bool) : List WalGroup → List ReadResult → Prop where
  | nil (wal : List WalGroup) : ReadsWal standby wal []
  | fail (wal : List WalGroup) (reads : List ReadResult) :
      ReadsWal standby wal (.fail :: reads)
  | group {wal : List WalGroup} {reads : List ReadResult} (group : WalGroup)
      (h : ReadsWal standby wal reads) : ReadsWal standby (group :: wal) (.group group :: reads)
  | last (stopReceiving : Bool) (reads : List ReadResult) (h : standby = true → stopReceiving) :
      ReadsWal standby [] (.null stopReceiving :: reads)
  | wait {wal : List WalGroup} {reads : List ReadResult} (hstandby : standby = true)
      (h : ReadsWal standby wal reads) : ReadsWal standby wal (.null false :: reads)

/-- The end of the last of these groups, or `startPlsn` if there is none. -/
def lastEndPlsn (walFileSize startPlsn : ℕ) (wal : List WalGroup) : ℕ :=
  (wal.getLast?.map (WalGroup.endPlsn walFileSize)).getD startPlsn

/-! ## Redo -/

/-- `ErrLog` at the level `DSTORE_PANIC`: `ErrFinish` calls `Abort`, and no code behind it runs. -/
def errLogPanic : Option Unit := none

/-- What `RedoSingle` meets at a record: its type, or nothing when `m_type` is not below
`WAL_TYPE_BUTTOM`; whether the callees without a status come back; whether the file version makes
the record obsolete; the pdb and its role; whether `RecoveryReadBuffer` gives a buffer; the size
check of `DecompressProc`; and whether `WaitAvailableBufferForRedo` says `NO_NEED_TO_REPLAY`. -/
structure RecordMet where
  type : Option WalType
  calleesReturn : Bool
  versionObsolete : Bool
  pdbFound : Bool
  pdbStandby : Bool
  bufferFound : Bool
  sizesMatch : Bool
  noNeedToReplay : Bool

namespace RecordMet

/-- `DecompressProc`: whether it returns a record. -/
def decompressProc (met : RecordMet) : Option Bool := do
  if met.sizesMatch = false then
    errLogPanic
    return false
  return true

/-- `RedoWalRecordByType`. The redo functions of the types return no status. -/
def redoWalRecordByType (met : RecordMet) : Option RetStatus := do
  if met.type = none then
    errLogPanic
    return .fail
  return .succ

/-- `RedoWalRecord`. -/
def redoWalRecord (met : RecordMet) : Option RetStatus := do
  if met.type = none then
    errLogPanic
    return .fail
  let recordForPage ← if met.type.any WalType.isSupportCompress then met.decompressProc
    else some true
  if recordForPage = false then return .fail
  if met.noNeedToReplay then return .succ
  let status ← met.redoWalRecordByType
  if status = .fail then return .fail
  return .succ

/-- `RedoSingle`; nothing when the process ends in it or it waits for ever. -/
def redoSingle (met : RecordMet) : Option RetStatus :=
  if met.calleesReturn = false then none
  else if met.type.all WalType.isRedoableWalRecord = false then some .succ
  -- neither `RedoSystableRecord` nor `RedoSingleForTbs` is asked for a status
  else if met.type.any fun type => type.isWalRecordWithMultiPagesInfo ||
      type.isWalRecordWithoutPageInfo then some .succ
  else if met.versionObsolete then some .succ
  else if met.pdbFound = false then do
    errLogPanic
    return .fail
  else if met.pdbStandby ∧ met.type = some .barrierCsn then some .succ
  else if met.bufferFound = false then some .succ
  else met.redoWalRecord

/-- A redo that returns has succeeded: every `DSTORE_FAIL` stands behind a panic. -/
lemma redoSingle_eq_succ {met : RecordMet} {status : RetStatus}
    (h : met.redoSingle = some status) : status = .succ := by
  have hdecompress : ∀ found, met.decompressProc = some found → found = true := by
    intro found hfound
    unfold decompressProc errLogPanic at hfound
    split_ifs at hfound <;> simp_all
  have hrecord : met.redoWalRecord = some status → status = .succ := by
    unfold redoWalRecord redoWalRecordByType errLogPanic
    cases htype : met.type with
    | none => simp
    | some type =>
      intro hrun
      cases hfound : met.decompressProc with
      | none =>
        cases hcompress : type.isSupportCompress <;> cases hneed : met.noNeedToReplay <;> simp_all
      | some found =>
        have := hdecompress found hfound
        cases hcompress : type.isSupportCompress <;> cases hneed : met.noNeedToReplay <;> simp_all
  unfold redoSingle errLogPanic at h
  split_ifs at h <;> simp_all

end RecordMet

/-- What recovery depends on: `m_walFileSize`, whether the mode is `PDB_STANDBY_REDO`,
`m_enableParallelRedo`, and what the redo of the record that ends at a plsn meets. -/
structure RecoveryConf where
  walFileSize : ℕ
  standby : Bool
  enableParallelRedo : Bool
  met : ℕ → RecordMet

/-- The end of `RedoLoopReadAndRedoWalRecord`: the process ended, the loop still runs, or it returns
its status with `*lastGroupEndPlsn`. -/
inductive LoopEnd where
  | stopped
  | running
  | returned (status : RetStatus) (lastGroupEndPlsn : ℕ)

namespace RecoveryConf

variable (conf : RecoveryConf)

/-- The loop over the records of a group, from `offset` on: nothing when the process ends, otherwise
`recordEndPlsn` when it is through and nothing when it goes to `END`. In parallel redo the records
go to the dispatch queue. -/
def redoRecords (startPlsn : ℕ) : ℕ → ℕ → List ℕ → Option (Option ℕ)
  | _, recordEndPlsn, [] => some (some recordEndPlsn)
  | offset, _, size :: sizes =>
    let recordEndPlsn := getRecordPlsn true startPlsn (walGroupHeaderSize + (offset + size))
      conf.walFileSize
    if conf.enableParallelRedo then redoRecords startPlsn (offset + size) recordEndPlsn sizes
    else
      match (conf.met recordEndPlsn).redoSingle with
      | none => none
      | some .fail => some none
      | some .succ => redoRecords startPlsn (offset + size) recordEndPlsn sizes

/-- `RedoLoopReadAndRedoWalRecord`. -/
def redoLoopReadAndRedoWalRecord (lastGroupEndPlsn : ℕ) : ℕ → List ReadResult → LoopEnd
  | _, [] => .running
  | _, .fail :: _ =>
    match errLogPanic with
    | none => .stopped
    | some _ => .returned .fail lastGroupEndPlsn
  | recordEndPlsn, .null stopReceiving :: reads =>
    if conf.standby ∧ stopReceiving = false then
      redoLoopReadAndRedoWalRecord lastGroupEndPlsn recordEndPlsn reads
    else .returned .succ recordEndPlsn
  | recordEndPlsn, .group group :: reads =>
    match conf.redoRecords group.startPlsn 0 recordEndPlsn group.recordSizes with
    | none => .stopped
    -- `retStatus` still has the status of `ReadNext`
    | some none => .returned .succ lastGroupEndPlsn
    | some (some recordEndPlsn) => redoLoopReadAndRedoWalRecord lastGroupEndPlsn recordEndPlsn reads

end RecoveryConf

/-- What `Recovery` and `Redo` meet before the loop: whether the memory context is created, whether
the reader is allocated and initialised, whether the buffer for decompression is, and whether the
loader threads start. -/
structure RedoSetup where
  contextCreated : Bool
  readerAllocated : Bool
  readerInit : Bool
  bufferAllocated : Bool
  loadStarted : Bool

/-- What `Redo` returns: its status, `*lastGroupEndPlsn` and how often it deleted its reader. -/
structure RedoResult where
  status : RetStatus
  lastGroupEndPlsn : ℕ
  readerDeleted : ℕ

namespace RecoveryConf

variable (conf : RecoveryConf)

/-- `WalRecovery::Redo`; nothing when it does not return. -/
def redo (setup : RedoSetup) (recoveryStartPlsn lastGroupEndPlsn : ℕ) (reads : List ReadResult) :
    Option RedoResult :=
  if setup.readerAllocated = false then some ⟨.fail, lastGroupEndPlsn, 0⟩
  else if setup.readerInit = false then some ⟨.fail, lastGroupEndPlsn, 1⟩
  else if setup.bufferAllocated = false then some ⟨.fail, lastGroupEndPlsn, 1⟩
  else if conf.enableParallelRedo ∧ setup.loadStarted = false then do
    errLogPanic
    return ⟨.fail, lastGroupEndPlsn, 1⟩
  else
    match conf.redoLoopReadAndRedoWalRecord lastGroupEndPlsn recoveryStartPlsn reads with
    | .stopped => none
    | .running => none
    | .returned status lastGroupEndPlsn =>
      let readerDeleted := if status = .fail then 1 else 0
      -- the status of the loop is overwritten, and the reader deleted again
      some ⟨.succ, lastGroupEndPlsn, readerDeleted + 1⟩

/-- `WalRecovery::Recovery`, with `m_lastGroupEndPlsn`; nothing when it does not return. -/
def recovery (setup : RedoSetup) (recoveryStartPlsn : ℕ) (reads : List ReadResult) :
    Option ℕ := do
  if setup.contextCreated = false then errLogPanic
  let result ← conf.redo setup recoveryStartPlsn recoveryStartPlsn reads
  if result.status = .fail then errLogPanic
  return result.lastGroupEndPlsn

end RecoveryConf

/-- What `WalStream::Recovery` meets besides the redo: the results of `WalRecovery::Init` and
`GetPdb`, the role of the pdb, `BuildDirtyPageSetAndPageWalRecordListHtab`, whether the stream is
used to write log, and `InitPlsn` and `InitWalStreamBgWriter`. -/
structure StreamSetup where
  recoveryInit : Bool
  pdbFound : Bool
  pdbStandby : Bool
  dirtyPageSetBuilt : Bool
  writesWal : Bool
  initPlsn : Bool
  initBgWriter : Bool

/-- What `WalStream::Recovery` did: the position it passed to `Truncate`, if it called it, and its
status, if it returned. -/
structure StreamRecovery where
  truncated : Option ℕ
  status : Option RetStatus

/-- `WalStream::Recovery`; without a status the process ended. -/
def RecoveryConf.streamRecovery (conf : RecoveryConf) (stream : StreamSetup) (setup : RedoSetup)
    (recoveryStartPlsn : ℕ) (reads : List ReadResult) : StreamRecovery :=
  let panic : Option RetStatus := errLogPanic.map fun _ => .fail
  if stream.recoveryInit = false ∨ stream.pdbFound = false then ⟨none, panic⟩
  else if conf.standby = false ∧ stream.pdbStandby = false ∧ stream.dirtyPageSetBuilt = false then
    ⟨none, some .fail⟩
  else
    match conf.recovery setup recoveryStartPlsn reads with
    | none => ⟨none, none⟩
    | some lastGroupEndPlsn =>
      if stream.writesWal = false then ⟨none, some .succ⟩
      else if stream.initPlsn = false then ⟨none, panic⟩
      else if conf.standby = false ∧ stream.initBgWriter = false then
        ⟨some lastGroupEndPlsn, panic⟩
      else ⟨some lastGroupEndPlsn, some .succ⟩

/-! ## Truncation -/

/-- A file of the log: its size and its bytes. -/
structure WalDiskFile where
  size : ℕ
  bytes : ByteMem

/-- `WalFile::Truncate`: up to a thousand calls of the file system, of which `vfs` says whether they
succeed. The process ends when all of them fail. -/
def walFileTruncate (vfs : ℕ → Bool) (file : WalDiskFile) (length : ℕ) : Option WalDiskFile :=
  if (List.range 1000).any vfs then some { file with size := length } else none

/-- The loop of `WalStream::Truncate` over the files behind the first one. It looks at the status of
the first truncation only; `WalFile::Truncate` returns no other one. -/
def truncateLater (vfs : ℕ → ℕ → Bool) : ℕ → List WalDiskFile → Option (List WalDiskFile)
  | _, [] => some []
  | k, file :: files => do
    let file ← walFileTruncate (vfs k) file 0
    let files ← truncateLater vfs (k + 1) files
    return file :: files

/-- `WalStream::Truncate` of a stream whose files start with number `first`, with the files it
leaves; nothing when the process ends. -/
def walStreamTruncate (walFileSize first : ℕ) (vfs : ℕ → ℕ → Bool)
    (files : List WalDiskFile) (plsn : ℕ) : Option (RetStatus × List WalDiskFile) :=
  if plsn / walFileSize < first then some (.fail, files)
  else
    let k := plsn / walFileSize - first
    match files[k]? with
    | none => some (.fail, files)
    | some file => do
      let file ← walFileTruncate (vfs k) file (plsn % walFileSize)
      let later ← truncateLater vfs (k + 1) (files.drop (k + 1))
      return (.succ, files.take k ++ file :: later)

/-- The later files are emptied. -/
lemma truncateLater_size {vfs : ℕ → ℕ → Bool} {k : ℕ} {files files' : List WalDiskFile}
    (h : truncateLater vfs k files = some files') :
    files'.length = files.length ∧ ∀ file ∈ files', file.size = 0 := by
  induction files generalizing k files' with
  | nil =>
    cases h
    exact ⟨rfl, nofun⟩
  | cons file files ih =>
    rw [truncateLater] at h
    obtain ⟨file', hfile, h⟩ := bind_eq_some_iff.mp h
    obtain ⟨rest, hrest, h⟩ := bind_eq_some_iff.mp h
    cases h
    obtain ⟨hlen, hsize⟩ := ih hrest
    refine ⟨by rw [length_cons, length_cons, hlen], fun f hf => ?_⟩
    rcases mem_cons.mp hf with rfl | hf
    · unfold walFileTruncate at hfile
      split_ifs at hfile
      cases hfile
      rfl
    · exact hsize f hf

/-- A successful `Truncate` has emptied every later file. -/
lemma walStreamTruncate_later {walFileSize first plsn : ℕ} {vfs : ℕ → ℕ → Bool}
    {files files' : List WalDiskFile}
    (h : walStreamTruncate walFileSize first vfs files plsn = some (.succ, files')) :
    files'.length = files.length ∧
      ∀ i file, plsn / walFileSize < first + i → files'[i]? = some file → file.size = 0 := by
  unfold walStreamTruncate at h
  have hfirst : ¬plsn / walFileSize < first := by
    intro hlt
    rw [if_pos hlt] at h
    cases h
  rw [if_neg hfirst] at h
  dsimp only at h
  cases hk : files[plsn / walFileSize - first]? with
  | none =>
    rw [hk] at h
    cases h
  | some file =>
    rw [hk] at h
    obtain ⟨file', -, h⟩ := bind_eq_some_iff.mp h
    obtain ⟨later, hlater, h⟩ := bind_eq_some_iff.mp h
    obtain rfl := (Prod.mk.inj (some.inj h)).2
    obtain ⟨hlen, hsize⟩ := truncateLater_size hlater
    have hlt : plsn / walFileSize - first < files.length := (List.getElem?_eq_some_iff.mp hk).1
    constructor
    · rw [List.length_append, List.length_cons, hlen, List.length_take, List.length_drop]
      omega
    · intro i f hi hf
      rw [List.getElem?_append_right (by rw [List.length_take]; omega), List.length_take,
        Nat.min_eq_left hlt.le] at hf
      obtain ⟨j, hj⟩ : ∃ j, i - (plsn / walFileSize - first) = j + 1 :=
        ⟨i - (plsn / walFileSize - first) - 1, by omega⟩
      rw [hj, List.getElem?_cons_succ] at hf
      exact hsize f (List.mem_of_getElem? hf)

/-! ## Where the loop ends -/

/-- The ends of the records of a group, from `offset` on. -/
def recordEnds (walFileSize startPlsn : ℕ) : ℕ → List ℕ → List ℕ
  | _, [] => []
  | offset, size :: sizes =>
    getRecordPlsn true startPlsn (walGroupHeaderSize + (offset + size)) walFileSize ::
      recordEnds walFileSize startPlsn (offset + size) sizes

namespace RecoveryConf

variable (conf : RecoveryConf)

/-- What the reads and the redos that the loop asks for return, in order. -/
def outcomes : List ReadResult → List (Option RetStatus)
  | [] => []
  | .fail :: _ => [some .fail]
  | .null stopReceiving :: reads =>
    some .succ :: if conf.standby ∧ stopReceiving = false then outcomes reads else []
  | .group group :: reads =>
    some .succ :: ((if conf.enableParallelRedo then []
      else (recordEnds conf.walFileSize group.startPlsn 0 group.recordSizes).map
        fun plsn => (conf.met plsn).redoSingle) ++ outcomes reads)

variable {conf}

/-- The records of a group that the loop gets through are all redone, and the last of them ends the
group. It never goes to `END` from here. -/
lemma redoRecords_eq_some {startPlsn offset e : ℕ} {sizes : List ℕ} {found : Option ℕ}
    (h : conf.redoRecords startPlsn offset e sizes = some found) :
    (conf.enableParallelRedo = false → ∀ plsn ∈ recordEnds conf.walFileSize startPlsn offset sizes,
        (conf.met plsn).redoSingle = some .succ) ∧
      found = some (if sizes = [] then e
        else getRecordPlsn true startPlsn (walGroupHeaderSize + (offset + sizes.sum))
          conf.walFileSize) := by
  induction sizes generalizing offset e with
  | nil =>
    cases h
    exact ⟨fun _ => nofun, rfl⟩
  | cons size sizes ih =>
    have hlast : (if sizes = [] then
          getRecordPlsn true startPlsn (walGroupHeaderSize + (offset + size)) conf.walFileSize
        else getRecordPlsn true startPlsn (walGroupHeaderSize + (offset + size + sizes.sum))
          conf.walFileSize) =
        getRecordPlsn true startPlsn (walGroupHeaderSize + (offset + (size :: sizes).sum))
          conf.walFileSize := by
      rw [sum_cons, ← Nat.add_assoc offset]
      split_ifs with hnil
      · rw [hnil, sum_nil, Nat.add_zero]
      · rfl
    rw [if_neg (cons_ne_nil _ _), ← hlast]
    rw [redoRecords] at h
    cases hparallel : conf.enableParallelRedo with
    | true =>
      rw [hparallel, if_pos rfl] at h
      exact ⟨nofun, (ih h).2⟩
    | false =>
      rw [hparallel, if_neg (by decide)] at h
      cases hredo : (conf.met (getRecordPlsn true startPlsn
          (walGroupHeaderSize + (offset + size)) conf.walFileSize)).redoSingle with
      | none =>
        rw [hredo] at h
        cases h
      | some status =>
        obtain rfl := RecordMet.redoSingle_eq_succ hredo
        rw [hredo] at h
        obtain ⟨hrest, hend⟩ := ih h
        exact ⟨fun hseq => forall_mem_cons.mpr ⟨hredo, hrest hparallel⟩, hend⟩

lemma lastEndPlsn_cons (walFileSize e : ℕ) (group : WalGroup) (wal : List WalGroup) :
    lastEndPlsn walFileSize e (group :: wal) =
      lastEndPlsn walFileSize (group.endPlsn walFileSize) wal := by
  unfold lastEndPlsn
  cases wal with
  | nil => rfl
  | cons next wal =>
    rw [getLast?_cons_cons]
    rfl

/-- A loop that returns has met no failure, and returns a success with the end of the last complete
group. -/
lemma redoLoop_returned {last e plsn : ℕ} {status : RetStatus} {wal : List WalGroup}
    {reads : List ReadResult} (hreads : ReadsWal conf.standby wal reads)
    (h : conf.redoLoopReadAndRedoWalRecord last e reads = .returned status plsn) :
    status = .succ ∧ plsn = lastEndPlsn conf.walFileSize e wal ∧
      ∀ outcome ∈ conf.outcomes reads, outcome = some .succ := by
  induction hreads generalizing e with
  | nil wal => cases h
  | fail wal reads => cases h
  | last stopReceiving reads hstop =>
    have hend : ¬(conf.standby = true ∧ stopReceiving = false) := by
      intro hwait
      rw [hstop hwait.1] at hwait
      exact absurd hwait.2 (by decide)
    rw [redoLoopReadAndRedoWalRecord, if_neg hend] at h
    cases h
    rw [outcomes, if_neg hend]
    exact ⟨rfl, rfl, forall_mem_singleton.mpr rfl⟩
  | wait hstandby _ ih =>
    rw [redoLoopReadAndRedoWalRecord, if_pos ⟨hstandby, rfl⟩] at h
    obtain ⟨hstatus, hplsn, hall⟩ := ih h
    rw [outcomes, if_pos ⟨hstandby, rfl⟩]
    exact ⟨hstatus, hplsn, forall_mem_cons.mpr ⟨rfl, hall⟩⟩
  | group group _ ih =>
    rw [redoLoopReadAndRedoWalRecord] at h
    cases hrecords : conf.redoRecords group.startPlsn 0 e group.recordSizes with
    | none =>
      rw [hrecords] at h
      cases h
    | some found =>
      obtain ⟨hredone, rfl⟩ := redoRecords_eq_some hrecords
      -- every group has a record, so the last record ends where the group does
      rw [hrecords, if_neg group.recordSizes_ne, Nat.zero_add] at h
      obtain ⟨hstatus, hplsn, hall⟩ := ih h
      refine ⟨hstatus, ?_, ?_⟩
      · rw [lastEndPlsn_cons, WalGroup.endPlsn, hplsn]
      · rw [outcomes]
        refine forall_mem_cons.mpr ⟨rfl, forall_mem_append.mpr ⟨?_, hall⟩⟩
        cases hparallel : conf.enableParallelRedo with
        | true => exact nofun
        | false => exact forall_mem_map.mpr (hredone hparallel)

/-! ## No log is lost -/

/-- How a `Redo` that returns has ended: with a failure before the loop, or with a success behind a
loop without failures. -/
lemma redo_eq_some {setup : RedoSetup} {start last : ℕ} {wal : List WalGroup}
    {reads : List ReadResult} {result : RedoResult} (hreads : ReadsWal conf.standby wal reads)
    (h : conf.redo setup start last reads = some result) :
    result.readerDeleted = (if setup.readerAllocated then 1 else 0) ∧
      (result.status = .fail ∨
        result.lastGroupEndPlsn = lastEndPlsn conf.walFileSize start wal ∧
          ∀ outcome ∈ conf.outcomes reads, outcome = some .succ) := by
  unfold redo at h
  split_ifs at h with halloc hinit hbuffer hload
  · cases h
    exact ⟨by rw [halloc]; rfl, .inl rfl⟩
  · cases h
    exact ⟨by rw [eq_true_of_ne_false halloc]; rfl, .inl rfl⟩
  · cases h
    exact ⟨by rw [eq_true_of_ne_false halloc]; rfl, .inl rfl⟩
  · cases h
  · cases hloop : conf.redoLoopReadAndRedoWalRecord last start reads with
    | stopped =>
      rw [hloop] at h
      cases h
    | running =>
      rw [hloop] at h
      cases h
    | returned status plsn =>
      obtain ⟨rfl, hplsn, hall⟩ := redoLoop_returned hreads hloop
      rw [hloop] at h
      cases h
      exact ⟨by rw [eq_true_of_ne_false halloc]; rfl, .inr ⟨hplsn, hall⟩⟩

/-- The stream is truncated where recovery says. -/
lemma recovery_of_truncated {stream : StreamSetup} {setup : RedoSetup} {start plsn : ℕ}
    {reads : List ReadResult}
    (h : (conf.streamRecovery stream setup start reads).truncated = some plsn) :
    conf.recovery setup start reads = some plsn := by
  unfold streamRecovery at h
  cases hrecovery : conf.recovery setup start reads with
  | none =>
    rw [hrecovery] at h
    dsimp only at h
    split_ifs at h
  | some last =>
    rw [hrecovery] at h
    dsimp only at h
    split_ifs at h <;> exact h

/-- A recovery that comes to its end behind `Redo` had a successful one. -/
lemma redo_of_recovery {setup : RedoSetup} {start plsn : ℕ} {reads : List ReadResult}
    (h : conf.recovery setup start reads = some plsn) :
    ∃ result, conf.redo setup start start reads = some result ∧ result.status ≠ .fail ∧
      result.lastGroupEndPlsn = plsn := by
  unfold recovery errLogPanic at h
  cases hcontext : setup.contextCreated with
  | false => simp [hcontext] at h
  | true =>
    cases hredo : conf.redo setup start start reads with
    | none => simp [hcontext, hredo] at h
    | some result =>
      refine ⟨result, rfl, ?_⟩
      by_cases hstatus : result.status = .fail
      · simp [hcontext, hredo, hstatus] at h
      · simp [hcontext, hredo, hstatus] at h
        exact ⟨hstatus, h⟩

/-- No log is lost by a redo that fails: a `Redo` that returns has reported any failure of a read or
a record and has deleted its reader once; the log is never cut before the end of its last complete
group; and a truncation that succeeds has emptied all later files. -/
structure NoWalLost (conf : RecoveryConf) (stream : StreamSetup) (setup : RedoSetup) (start : ℕ)
    (wal : List WalGroup) (reads : List ReadResult) : Prop where
  reported : ∀ result, conf.redo setup start start reads = some result →
    (∃ outcome ∈ conf.outcomes reads, outcome ≠ some .succ) → result.status = .fail
  released : ∀ result, conf.redo setup start start reads = some result →
    result.readerDeleted = if setup.readerAllocated then 1 else 0
  kept : ∀ plsn, (conf.streamRecovery stream setup start reads).truncated = some plsn →
    lastEndPlsn conf.walFileSize start wal ≤ plsn
  emptied : ∀ (first plsn : ℕ) (vfs : ℕ → ℕ → Bool) (files files' : List WalDiskFile),
    walStreamTruncate conf.walFileSize first vfs files plsn = some (.succ, files') →
      files'.length = files.length ∧ ∀ i file, plsn / conf.walFileSize < first + i →
        files'[i]? = some file → file.size = 0

/-- A group of one record at plsn 40. -/
def oneGroup : WalGroup := ⟨40, [100], by decide⟩

/-- A sequential recovery whose records are heap inserts on pages that are found; the size check
fails for the record that ends at `damaged`. -/
def insertRecovery (damaged : ℕ) : RecoveryConf :=
  ⟨16384, false, false, fun plsn =>
    ⟨some .heapInsert, true, false, true, false, true, plsn ≠ damaged, false⟩⟩

end RecoveryConf

end DStore
