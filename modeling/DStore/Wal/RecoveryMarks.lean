import DStore.Wal.WorkerLine

/-!
# What the recovery plsn of a worker says

On a standby every worker gets every barrier record. A worker remembers the start of the groups of
the barriers it has passed and raises its recovery plsn to the last of them when the records before
are redone. Then its recovery plsn lies below every record it still has to redo, and no barrier is
forgotten. A page worker keeps both; the DDL worker does so on a standby if what it fetches at a
time has a tablespace record or a late map change with every barrier, and no map change behind a
barrier behind a tablespace record.
-/

namespace DStore

open RedoWalRecordEntry WorkerLine List Function

/-- The greatest group start of the barriers among the entries. -/
def barrierTop (size : ℕ) (entries : List RedoWalRecordEntry) : ℕ :=
  entries.foldl
    (fun plsn entry => if entry.isBarrier then max plsn (entry.groupStartPlsn size) else plsn) 0

lemma barrierTop_append_singleton (size : ℕ) (entries : List RedoWalRecordEntry)
    (entry : RedoWalRecordEntry) :
    barrierTop size (entries ++ [entry]) =
      if entry.isBarrier then max (barrierTop size entries) (entry.groupStartPlsn size)
      else barrierTop size entries := by
  simp [barrierTop]

/-- The last barrier never moves back. -/
lemma barrierTop_le_append (size : ℕ) (entries : List RedoWalRecordEntry)
    (entry : RedoWalRecordEntry) :
    barrierTop size entries ≤ barrierTop size (entries ++ [entry]) := by
  rw [barrierTop_append_singleton]
  split
  · exact le_max_left _ _
  · exact le_rfl

namespace RedoWalRecordEntry

/-- A barrier record has its group start below what comes after it. -/
def Ahead (size : ℕ) (first second : RedoWalRecordEntry) : Prop :=
  first.isBarrier → (second.isRedo → first.groupStartPlsn size < second.recordEndPlsn) ∧
    (second.isBarrier → first.groupStartPlsn size ≤ second.groupStartPlsn size)

/-- A plsn lies below a record or at most at the group start of a barrier. -/
def Above (size plsn : ℕ) (entry : RedoWalRecordEntry) : Prop :=
  (entry.isRedo → plsn < entry.recordEndPlsn) ∧
    (entry.isBarrier → plsn ≤ entry.groupStartPlsn size)

section

variable {size plsn plsn' : ℕ} {entry : RedoWalRecordEntry} (h : entry.Above size plsn)
include h

lemma Above.max (h' : entry.Above size plsn') : entry.Above size (max plsn plsn') :=
  ⟨fun hr => max_lt (h.1 hr) (h'.1 hr), fun hb => max_le (h.2 hb) (h'.2 hb)⟩

/-- What lies above a mark lies above the smaller ones. -/
lemma Above.mono (hle : plsn' ≤ plsn) : entry.Above size plsn' :=
  ⟨fun hr => hle.trans_lt (h.1 hr), fun hb => hle.trans (h.2 hb)⟩

end

end RedoWalRecordEntry

lemma isBarrier_eq_false_of_isRedo {entry : RedoWalRecordEntry} (h : entry.isRedo) :
    entry.isBarrier = false := by
  by_contra hb
  simp [isRedo_eq_false_of_isBarrier (by simpa using hb)] at h

namespace RecoveryMarks

/-- The recovery plsn `point` of a worker that was handed the given entries is sound, and so is
`passed`, to which it is raised next. -/
structure Sound (size : ℕ) (handed : List RedoWalRecordEntry) (line : WorkerLine)
    (point passed : ℕ) : Prop where
  known : line.Known handed
  barriers : ∀ entry ∈ handed, entry.isBarrier →
    entry.groupStartPlsn size ≤ passed ∨ entry ∈ line.unread
  unreadTop : ∀ entry ∈ line.unread, entry.isBarrier →
    entry.groupStartPlsn size ≤ barrierTop size handed
  ordered : line.unread.Pairwise (RedoWalRecordEntry.Ahead size)
  waiting : ∀ entry, line.Waiting entry → entry.isRedo → point < entry.recordEndPlsn
  unread : ∀ entry ∈ line.unread, entry.Above size passed
  le : point ≤ passed
  top : passed ≤ barrierTop size handed

namespace Sound

variable {size point passed passed' : ℕ} {handed rest : List RedoWalRecordEntry}
  {entry : RedoWalRecordEntry} {line line' : WorkerLine}

section

variable (h : Sound size handed line point passed)
include h

/-- What is not redone lies behind the point. -/
lemma below (hentry : line.Waiting entry ∨ entry ∈ line.unread) (hredo : entry.isRedo) :
    point < entry.recordEndPlsn :=
  hentry.elim (h.waiting entry · hredo) fun hmem => h.le.trans_lt ((h.unread entry hmem).1 hredo)

section

variable (hunread : line.unread = entry :: rest)
  (hpassed : passed' = if entry.isBarrier then max passed (entry.groupStartPlsn size) else passed)
include hunread hpassed

/-- The next entry is read. -/
lemma read
    (hline : line'.unread = rest) (hknown : line'.Known handed)
    (hwaiting : ∀ a, line'.Waiting a → line.Waiting a ∨ a = entry) :
    Sound size handed line' point passed' := by
  have hrest : ∀ a ∈ line'.unread, a ∈ line.unread := fun a ha => by
    rw [hline] at ha
    simp [hunread, ha]
  have hsorted := h.ordered
  rw [hunread, pairwise_cons] at hsorted
  have hle : passed ≤ passed' := by
    rw [hpassed]
    split
    · exact le_max_left _ _
    · exact le_rfl
  refine ⟨hknown, fun a ha hab => ?_, fun a ha => h.unreadTop a (hrest a ha), hline ▸ hsorted.2,
    fun a ha hr => ?_, fun a ha => ?_, h.le.trans hle, ?_⟩
  · rw [hline]
    rcases h.barriers a ha hab with hcount | hmem
    · exact Or.inl (hcount.trans hle)
    · rw [hunread] at hmem
      rcases mem_cons.1 hmem with rfl | hmem
      · exact Or.inl (by rw [hpassed, if_pos hab]; exact le_max_right _ _)
      · exact Or.inr hmem
  · exact h.below ((hwaiting a ha).imp_right fun heq => by simp [heq, hunread]) hr
  · rw [hpassed]
    split
    · rename_i hb
      exact (h.unread a (hrest a ha)).max (hsorted.1 a (hline ▸ ha) hb)
    · exact h.unread a (hrest a ha)
  · rw [hpassed]
    split
    · rename_i hb
      exact max_le h.top (h.unreadTop entry (by simp [hunread]) hb)
    · exact h.top

/-- A record that needs no redo may be skipped. -/
lemma skip (hentry : entry.isRedo = false) :
    Sound size handed { line with unread := rest } point passed' :=
  h.read hunread hpassed rfl (h.known.skip hunread hentry) (fun _ ha => Or.inl ha)

end

/-- A record may be held. -/
lemma hold (hheld : line.held = none)
    (hunread : line.unread = entry :: rest) (hentry : entry.isBarrier = false) :
    Sound size handed { line with held := some entry, unread := rest } point passed :=
  h.read hunread (by simp [hentry]) rfl (h.known.hold hheld hunread)
    (fun _ => (waiting_hold hheld).1)

/-- A record may be redone at once. -/
lemma redoUnread (hunread : line.unread = entry :: rest) (hentry : entry.isBarrier = false) :
    Sound size handed { line with unread := rest, applied := line.applied ++ [entry] } point
      passed :=
  h.read hunread (by simp [hentry]) rfl (h.known.redoUnread hunread) (fun a ha => Or.inl ha)

/-- Only what is redone, waiting and unread counts. -/
lemma congr (happlied : line'.applied = line.applied)
    (hunread : line'.unread = line.unread) (hwaiting : ∀ a, line'.Waiting a ↔ line.Waiting a) :
    Sound size handed line' point passed := by
  refine ⟨h.known.mono fun a _ => ?_, ?_, ?_, ?_, fun a ha => h.waiting a ((hwaiting a).1 ha), ?_,
    h.le, h.top⟩
  · rw [happlied, hunread, hwaiting]
    exact id
  all_goals rw [hunread]
  · exact h.barriers
  · exact h.unreadTop
  · exact h.ordered
  · exact h.unread

/-- An entry that waits is redone. -/
lemma redo
    (happlied : line'.applied = line.applied ++ [entry]) (hunread : line'.unread = line.unread)
    (hwaiting : ∀ a, line.Waiting a ↔ line'.Waiting a ∨ a = entry) :
    Sound size handed line' point passed := by
  refine ⟨h.known.redo happlied hunread hwaiting, ?_, ?_, ?_,
    fun a ha => h.waiting a ((hwaiting a).2 (Or.inl ha)), ?_, h.le, h.top⟩
  all_goals rw [hunread]
  · exact h.barriers
  · exact h.unreadTop
  · exact h.ordered
  · exact h.unread

/-- The entry the worker holds is added to a list. -/
lemma add (hheld : line.held = some entry) (tbsId : ℕ)
    {para : WalBatchRecoveryPara} (hlist : line.lists tbsId = some para) (capacity plsn : ℕ) :
    Sound size handed { line.setList tbsId (some ⟨para.recordEntry ++ [entry], capacity, plsn⟩) with
      held := none } point passed :=
  h.congr rfl rfl fun _ => waiting_add hheld hlist

end

/-- The recovery plsn is raised to the barriers the worker has passed. -/
lemma recover {wal : ℕ} (h : Sound size handed line point (max point wal))
    (hwaiting : ∀ a, line.Waiting a → a.isRedo → max point wal < a.recordEndPlsn) :
    Sound size handed line (max point wal) (max (max point wal) wal) := by
  rw [max_eq_left (le_max_right point wal)]
  exact ⟨h.known, h.barriers, h.unreadTop, h.ordered, hwaiting, h.unread, le_rfl, h.top⟩

/-- One more entry is handed out. -/
lemma put (h : Sound size handed line point passed)
    (habove : entry.Above size (barrierTop size handed)) :
    Sound size (handed ++ [entry]) { line with unread := line.unread ++ [entry] } point passed := by
  have htop := barrierTop_le_append size handed entry
  refine ⟨h.known.put entry, fun a ha hab => ?_, fun a ha hab => ?_, ?_, h.waiting,
    fun a ha => ?_, h.le, h.top.trans htop⟩
  · simp only [mem_append, mem_singleton] at ha ⊢
    rcases ha with ha | rfl
    · exact (h.barriers a ha hab).imp_right Or.inl
    · exact Or.inr (Or.inr rfl)
  · rcases mem_append.1 ha with ha | ha
    · exact (h.unreadTop a ha hab).trans htop
    · rw [mem_singleton.1 ha] at hab ⊢
      rw [barrierTop_append_singleton, if_pos hab]
      exact le_max_right _ _
  · refine pairwise_append.2 ⟨h.ordered, pairwise_singleton _ _, fun a ha b hb hab => ?_⟩
    rw [mem_singleton.1 hb]
    exact habove.mono (h.unreadTop a ha hab)
  · rcases mem_append.1 ha with ha | ha
    · exact h.unread a ha
    · rw [mem_singleton.1 ha]
      exact habove.mono h.top

end Sound

end RecoveryMarks

open RecoveryMarks

/-! ## The page worker -/

namespace ParallelPageRedoWorker

/-- The recovery plsn of the worker is sound. -/
def Recoverable (size : ℕ) (handed put : List RedoWalRecordEntry)
    (worker : ParallelPageRedoWorker) : Prop :=
  Sound size handed (worker.line put) worker.maxRecoveryPlsn
    (max worker.maxRecoveryPlsn worker.maxWalRecoveryPlsn)

/-- Between two turns no barrier is left to count. -/
def ModeOk (worker : ParallelPageRedoWorker) : Prop :=
  worker.mode = .main → worker.maxWalRecoveryPlsn ≤ worker.maxRecoveryPlsn

variable {cfg : RedoConfig} {handed put rest : List RedoWalRecordEntry}
  {entry : RedoWalRecordEntry} {worker worker' : ParallelPageRedoWorker} {record : RedoWalRecord}
  {size : ℕ}

/-- Adding a record to the batch keeps a page worker recoverable. -/
lemma Recoverable.add (h : worker.Recoverable size handed put)
    (hfetched : worker.fetched = entry :: rest) (hentry : entry.isRedo) :
    (worker.addWalRecord entry record rest).Recoverable size handed put := by
  rw [Recoverable, line_addWalRecord]
  exact (h.hold rfl (line_unread put hfetched) (isBarrier_eq_false_of_isRedo hentry)).add rfl 0
    (worker.line_lists put) 0 0

/-- So does marking a redone batch. -/
lemma Recoverable.marked (h : worker.Recoverable size handed put) (hbatch : worker.batch = []) :
    worker.marked.Recoverable size handed put :=
  h.recover fun a ha => absurd ha (not_waiting put hbatch a)

/-- A step of a page worker keeps its recovery plsn sound. -/
lemma Recoverable.step (h : worker.Recoverable cfg.walFileSize handed put) (hmain : worker.ModeOk)
    (hturn : (RedoWorker.page worker).Turn) (hstep : Steps cfg worker worker') :
    worker'.Recoverable cfg.walFileSize handed put ∧ worker'.ModeOk := by
  cases hstep with
  | getN num hmode =>
    obtain ⟨hfetched, hbatch⟩ := hturn.1 hmode
    refine ⟨?_, by rintro ⟨⟩⟩
    have hs : Sound _ _ _ _ _ := h
    rw [max_eq_left (hmain hmode)] at hs
    simp only [Recoverable, line, hfetched, hbatch, nil_append, invalidPlsn, Nat.max_zero]
      at hs ⊢
    rwa [← append_assoc, take_append_drop]
  | noRecord hmode hqueue => exact ⟨h, hmain⟩
  | lastBatch hmode hfetched => exact ⟨h, by rintro ⟨⟩⟩
  | batchEnds hmode hfetched hrecord hentry => exact ⟨h, by rintro ⟨⟩⟩
  | syncer hmode hfetched hentry =>
    refine ⟨h.skip (line_unread put hfetched) ?_ ?_, by simp [ModeOk, hmode]⟩
    · simp [isBarrier, hentry]
    · simp [isRedo, hentry]
  | barrier hmode hfetched hentry =>
    refine ⟨h.skip (line_unread put hfetched) ?_ (isRedo_eq_false_of_isBarrier hentry),
      by simp [ModeOk, hmode]⟩
    rw [if_pos hentry, max_assoc]
  | add hmode hfetched hrecord hentry hends => exact ⟨h.add hfetched hentry, by rintro ⟨⟩⟩
  | redo hmode hbatch =>
    refine ⟨?_, by simp [ModeOk, hmode]⟩
    rw [Recoverable, line_redo]
    exact h.redo rfl rfl fun a => waiting_redo (hbatch ▸ worker.line_lists put) 0 _
  | finishTurn hmode hbatch hfetched => exact ⟨h.marked hbatch, fun _ => le_max_right _ _⟩
  | finishBatch hmode hbatch hfetched hrecord =>
    exact ⟨(h.marked hbatch).add hfetched (hturn.2 hmode _ _ hfetched), by rintro ⟨⟩⟩

end ParallelPageRedoWorker

/-! ## The DDL worker -/

/-- What the DDL worker fetches at a time has no map change behind a barrier behind a tablespace
record, and with every barrier a tablespace record or a later map change. -/
def FetchOk (fetched : List RedoWalRecordEntry) : Prop :=
  (∀ first barrier last, [first, barrier, last].Sublist fetched → first.isTablespace →
    barrier.isBarrier → last.isRelmap = false) ∧
  ∀ front barrier back, fetched = front ++ barrier :: back → barrier.isBarrier →
    (∃ entry ∈ fetched, entry.isTablespace) ∨ ∃ entry ∈ back, entry.isRelmap

/-- What is left of such a turn, given the entries that wait: no map change comes while a tablespace
record before a passed barrier waits, and the passed barriers will count. -/
structure TurnOk (waiting : RedoWalRecordEntry → Prop) (fetched : List RedoWalRecordEntry)
    (maxRecoveryPlsn maxWalRecoveryPlsn : ℕ) : Prop where
  late : ∀ first barrier last, [first, barrier, last].Sublist fetched → first.isTablespace →
    barrier.isBarrier → last.isRelmap = false
  lateWaiting : (∃ entry, waiting entry) → ∀ barrier last, [barrier, last].Sublist fetched →
    barrier.isBarrier → last.isRelmap = false
  lateBarrier : (∃ entry, waiting entry ∧ entry.recordEndPlsn ≤ maxWalRecoveryPlsn) →
    ∀ last ∈ fetched, last.isRelmap = false
  counts : maxWalRecoveryPlsn ≤ maxRecoveryPlsn ∨ (∃ entry, waiting entry) ∨
    (∃ entry ∈ fetched, entry.isTablespace) ∨ ∃ entry ∈ fetched, entry.isRelmap
  countsLater : ∀ front barrier back, fetched = front ++ barrier :: back → barrier.isBarrier →
    (∃ entry, waiting entry) ∨ (∃ entry ∈ fetched, entry.isTablespace) ∨
      ∃ entry ∈ back, entry.isRelmap

namespace TurnOk

variable {waiting waiting' : RedoWalRecordEntry → Prop} {rest : List RedoWalRecordEntry}
  {entry : RedoWalRecordEntry} {maxRec maxRec' maxWal maxWal' : ℕ}

/-- A turn starts with nothing waiting. -/
lemma start (h : FetchOk rest) (hwaiting : ∀ a, ¬ waiting a) :
    TurnOk waiting rest maxRec invalidPlsn :=
  ⟨h.1, fun ⟨a, ha⟩ => absurd ha (hwaiting a), fun ⟨a, ha⟩ => absurd ha.1 (hwaiting a),
    Or.inl (Nat.zero_le _), fun front barrier back heq hb => Or.inr (h.2 front barrier back heq hb)⟩

/-- A turn stays in order while records are redone. -/
lemma mono (h : TurnOk waiting rest maxRec maxWal) (hsub : ∀ a, waiting' a → waiting a)
    (hsome : ∃ a, waiting' a) : TurnOk waiting' rest maxRec' maxWal :=
  ⟨h.late, fun ⟨a, ha⟩ => h.lateWaiting ⟨a, hsub a ha⟩,
    fun ⟨a, ha⟩ => h.lateBarrier ⟨a, hsub a ha.1, ha.2⟩, Or.inr (Or.inl hsome),
    fun _ _ _ _ _ => Or.inl hsome⟩

lemma congr (h : TurnOk waiting rest maxRec maxWal) (hiff : ∀ a, waiting' a ↔ waiting a) :
    TurnOk waiting' rest maxRec maxWal := by
  have heq : waiting' = waiting := funext fun a => propext (hiff a)
  rwa [heq]

section

variable (h : TurnOk waiting (entry :: rest) maxRec maxWal)
include h

/-- An entry that is no tablespace record is dealt with: only what the marks say can change. -/
lemma pass (htbs : entry.isTablespace = false)
    (hlate : (∃ a, waiting a ∧ a.recordEndPlsn ≤ maxWal') → ∀ last ∈ rest, last.isRelmap = false)
    (hcounts : maxWal' ≤ maxRec' ∨ (∃ a, waiting a) ∨ (∃ a ∈ rest, a.isTablespace) ∨
      ∃ a ∈ rest, a.isRelmap) : TurnOk waiting rest maxRec' maxWal' := by
  refine ⟨fun t b s hs => h.late t b s (hs.cons _),
    fun hw b s hs => h.lateWaiting hw b s (hs.cons _),
    hlate, hcounts, fun front b back heq hb => ?_⟩
  simpa [htbs] using h.countsLater (entry :: front) b back (by rw [heq]; rfl) hb

/-- A syncer entry leaves the turn in order. -/
lemma syncer (hentry : entry.walRecord = none) : TurnOk waiting rest maxRec maxWal := by
  have htbs : entry.isTablespace = false := by
    simp [isTablespace, isRedo, hentry]
  have hrelmap : entry.isRelmap = false := by simp [isRelmap, hentry]
  refine h.pass htbs (fun hw s hs => h.lateBarrier hw s (mem_cons_of_mem _ hs)) ?_
  simpa [htbs, hrelmap] using h.counts

/-- So does a barrier. -/
lemma barrier (hentry : entry.isBarrier) (plsn : ℕ) : TurnOk waiting rest maxRec plsn := by
  have hredo := isRedo_eq_false_of_isBarrier hentry
  have htbs : entry.isTablespace = false := by simp [isTablespace, hredo]
  refine h.pass htbs (fun hw s hs => ?_) ?_
  · obtain ⟨a, ha⟩ := hw
    exact h.lateWaiting ⟨a, ha.1⟩ entry s ((singleton_sublist.2 hs).cons_cons _) hentry
  · simpa [htbs] using Or.inr (h.countsLater [] entry rest rfl hentry)

/-- So does a relmap record. -/
lemma relmap (hentry : entry.isRelmap)
    (hle : maxWal ≤ maxRec') : TurnOk waiting rest maxRec' maxWal := by
  have htbs : entry.isTablespace = false := by simp [isTablespace, hentry]
  exact h.pass htbs (fun hw s hs => h.lateBarrier hw s (mem_cons_of_mem _ hs)) (Or.inl hle)

/-- A tablespace record waits, and lies behind the plsn of the turn. -/
lemma tablespace (hentry : entry.isTablespace)
    (hwaiting : ∀ a, waiting' a ↔ waiting a ∨ a = entry) (hlt : maxWal < entry.recordEndPlsn) :
    TurnOk waiting' rest maxRec maxWal := by
  have hsome : ∃ a, waiting' a := ⟨entry, (hwaiting entry).2 (Or.inr rfl)⟩
  refine ⟨fun t b s hs => h.late t b s (hs.cons _), fun _ b s hs => ?_, fun ⟨a, ha, hle⟩ s hs => ?_,
    Or.inr (Or.inl hsome), fun _ _ _ _ _ => Or.inl hsome⟩
  · exact h.late entry b s (hs.cons_cons _) hentry
  · rcases (hwaiting a).1 ha with ha | rfl
    · exact h.lateBarrier ⟨a, ha, hle⟩ s (mem_cons_of_mem _ hs)
    · omega

end

end TurnOk

namespace ParallelDDLRedoWorker

/-- The rest of the turn is as asked. -/
def TurnOk (worker : ParallelDDLRedoWorker) : Prop :=
  DStore.TurnOk (worker.line []).Waiting worker.fetched worker.maxRecoveryPlsn
    worker.maxWalRecoveryPlsn

/-- What holds in each mode on a standby, where a batch is always redone to its end: besides the
list of the current tablespace there is at most the one that is redone. -/
def ModeOk (worker : ParallelDDLRedoWorker) : DDLRedoMode → Prop
  | .main => (∀ tbsId, worker.tbsRedoWaitingList tbsId = none) ∧
      worker.maxWalRecoveryPlsn ≤ worker.maxRecoveryPlsn
  | .loop => (∀ tbsId para, worker.tbsRedoWaitingList tbsId = some para →
      tbsId = worker.curTbsId ∧ tbsId = worker.lastTbsId ∧ para.recordEntry ≠ []) ∧ worker.TurnOk
  | .adding _ => (∀ tbsId para, worker.tbsRedoWaitingList tbsId = some para →
      tbsId = worker.curTbsId) ∧ worker.TurnOk
  | .redo tbsId redone (.add entry) =>
      (∀ other para, worker.tbsRedoWaitingList other = some para →
        other = tbsId ∨ other = worker.curTbsId ∧ para.recordEntry = []) ∧
      worker.TurnOk ∧ worker.maxWalRecoveryPlsn < entry.recordEndPlsn ∧
      (redone = none → ∃ para, worker.tbsRedoWaitingList tbsId = some para ∧
        para.recordEntry ≠ [])
  | .redo tbsId redone .fetchDone =>
      (∀ other para, worker.tbsRedoWaitingList other = some para → other = tbsId) ∧
      (redone = none → ∃ para, worker.tbsRedoWaitingList tbsId = some para ∧
        para.recordEntry ≠ [])
  | .redo _ _ .scan => False

/-- The recovery plsn of the worker is sound. -/
structure Recoverable (size : ℕ) (handed put : List RedoWalRecordEntry)
    (worker : ParallelDDLRedoWorker) : Prop where
  sound : Sound size handed (worker.line put) worker.maxRecoveryPlsn
    (max worker.maxRecoveryPlsn worker.maxWalRecoveryPlsn)
  mode : worker.ModeOk worker.mode

variable {cfg : RedoConfig} {handed put rest : List RedoWalRecordEntry}
  {entry : RedoWalRecordEntry} {worker worker' : ParallelDDLRedoWorker} {tbsId size plsn : ℕ}
  {para : WalBatchRecoveryPara} {mode : DDLRedoMode} {next : AfterBatchProc}

lemma modeOk_of_eq (hmode : worker.mode = mode) (h : worker.ModeOk mode) :
    worker.ModeOk worker.mode := by
  rw [hmode]
  exact h

lemma Recoverable.modeOk (h : worker.Recoverable size handed put) (hmode : worker.mode = mode) :
    worker.ModeOk mode :=
  hmode ▸ h.mode

lemma openList_list (rest : List RedoWalRecordEntry) {other : ℕ}
    (hlist : (worker.openList cfg tbsId rest).tbsRedoWaitingList other = some para) :
    worker.tbsRedoWaitingList other = some para ∨
      other = tbsId ∧ para = ⟨[], maxBatchRecordNum, cfg.recoveryStartPlsn⟩ := by
  simp only [openList, setWaitingList, waitingListFor, update_apply] at hlist
  cases hold : worker.tbsRedoWaitingList tbsId <;> grind

/-- With empty lists only the record held waits. -/
lemma held_of_waiting (hlists : ∀ tbsId para, worker.tbsRedoWaitingList tbsId = some para →
    para.recordEntry = []) (hentry : (worker.line put).Waiting entry) :
    worker.mode.held = some entry := by
  refine hentry.resolve_left fun ⟨tbsId, hmem⟩ => ?_
  cases hlist : worker.tbsRedoWaitingList tbsId with
  | none => simp [waitingIn, line, hlist] at hmem
  | some para => simp [waitingIn, line, hlist, hlists tbsId para hlist] at hmem

section

variable (h : worker.Recoverable size handed put)
include h

section

variable (hmode : worker.mode = .loop) (hfetched : worker.fetched = entry :: rest)
  (hentry : entry.isTablespace)
include hmode hfetched hentry

/-- The loop has reached a record of a tablespace. -/
lemma Recoverable.openList (cfg : RedoConfig)
    (tbsId : ℕ) (mode : DDLRedoMode) (hheld : mode.held = some entry) :
    Sound size handed ({ worker.openList cfg tbsId rest with mode := mode }.line put)
      worker.maxRecoveryPlsn (max worker.maxRecoveryPlsn worker.maxWalRecoveryPlsn) ∧
    { worker.openList cfg tbsId rest with mode := mode }.TurnOk ∧
    worker.maxWalRecoveryPlsn < entry.recordEndPlsn := by
  have hredo : entry.isRedo := by
    simp only [isTablespace, Bool.and_eq_true] at hentry
    exact hentry.1
  have hunread := line_unread put hfetched
  have hnone : (worker.line put).held = none := by simp [line, hmode, DDLRedoMode.held]
  have hopen : ∀ put, { worker.openList cfg tbsId rest with mode := mode }.line put = _ :=
    fun put => line_openList cfg tbsId hheld
  have hlt : worker.maxWalRecoveryPlsn < entry.recordEndPlsn :=
    (le_max_right _ _).trans_lt ((h.sound.unread entry (by simp [hunread])).1 hredo)
  have hturn : DStore.TurnOk _ _ _ _ := (h.modeOk hmode).2
  rw [hfetched] at hturn
  refine ⟨?_, ?_, hlt⟩
  · rw [hopen]
    exact (h.sound.hold hnone hunread (isBarrier_eq_false_of_isRedo hredo)).congr rfl rfl fun a =>
      waiting_congr (waitingIn_openList cfg _ rfl tbsId) rfl
  · refine hturn.tablespace hentry (fun a => ?_) hlt
    rw [hopen, waiting_congr (waitingIn_openList cfg _ rfl tbsId) rfl]
    exact waiting_hold hnone

/-- A tablespace record with its batch redone first. -/
lemma Recoverable.batchEnds (hends : (worker.openList cfg tbsId rest).lastListEnds tbsId) :
    { worker.openList cfg tbsId rest with
      mode := .redo worker.lastTbsId none (.add entry) }.Recoverable size handed put := by
  obtain ⟨hs, hturn, hlt⟩ := h.openList hmode hfetched hentry cfg tbsId
    (.redo worker.lastTbsId none (.add entry)) rfl
  have hlists := (h.modeOk hmode).1
  refine ⟨hs, fun other para hlist => ?_, hturn, hlt, fun _ => ?_⟩
  · rcases openList_list rest hlist with hold | ⟨rfl, rfl⟩
    · exact Or.inl (hlists other para hold).2.1
    · exact Or.inr ⟨rfl, rfl⟩
  · -- a list that was just allocated is not full
    simp only [lastListEnds, Option.any_eq_true, Bool.or_eq_true, decide_eq_true_eq] at hends
    obtain ⟨para, hlist, hfull⟩ := hends
    refine ⟨para, hlist, ?_⟩
    rcases openList_list rest hlist with hold | ⟨heq, rfl⟩
    · exact (hlists _ para hold).2.2
    · rcases hfull with hne | hfull
      · exact absurd heq.symm hne
      · simp [maxBatchRecordNum] at hfull

/-- A list that is not ended takes the record. -/
lemma Recoverable.noBatch
    (hends : (worker.openList cfg tbsId rest).lastListEnds tbsId = false) :
    { worker.openList cfg tbsId rest with mode := .adding entry }.Recoverable size handed put := by
  obtain ⟨hs, hturn, -⟩ := h.openList hmode hfetched hentry cfg tbsId (.adding entry) rfl
  refine ⟨hs, fun other para hlist => ?_, hturn⟩
  rcases openList_list rest hlist with hold | ⟨rfl, -⟩
  · obtain ⟨-, rfl, -⟩ := (h.modeOk hmode).1 other para hold
    simp only [lastListEnds, Option.any_eq_false, Bool.or_eq_false_iff, decide_eq_false_iff_not,
      Classical.not_not] at hends
    exact ((hends para hlist).1).symm
  · rfl

end

/-- An entry of a waiting list is redone. -/
lemma Recoverable.redo {redone : Option ℕ}
    {capacity waitStartPlsn : ℕ} (hmode : worker.mode = .redo tbsId redone next)
    (hlist : worker.tbsRedoWaitingList tbsId = some ⟨entry :: rest, capacity, waitStartPlsn⟩) :
    { worker.setWaitingList tbsId (some ⟨rest, capacity, entry.recordEndPlsn⟩) with
      mode := .redo tbsId (some entry.recordEndPlsn) next
      applied := worker.applied ++ [entry] }.Recoverable size handed put := by
  have hline : ∀ put,
      { worker.setWaitingList tbsId (some ⟨rest, capacity, entry.recordEndPlsn⟩) with
      mode := .redo tbsId (some entry.recordEndPlsn) next
      applied := worker.applied ++ [entry] }.line put =
      { (worker.line put).setList tbsId (some ⟨rest, capacity, entry.recordEndPlsn⟩) with
        applied := worker.applied ++ [entry] } := fun put => by
    rw [line, line, hmode, held_redo tbsId redone (some entry.recordEndPlsn)]
    rfl
  have hlists : ∀ {P : ℕ → WalBatchRecoveryPara → Prop}, (∀ para, P tbsId para) →
      (∀ other para, worker.tbsRedoWaitingList other = some para → P other para) →
      ∀ other para, (worker.setWaitingList tbsId
        (some ⟨rest, capacity, entry.recordEndPlsn⟩)).tbsRedoWaitingList other = some para →
          P other para := by
    intro P hnew hold other para hpara
    simp only [setWaitingList, update_apply] at hpara
    grind
  have hm := h.modeOk hmode
  refine ⟨?_, ?_⟩
  · rw [hline]
    exact h.sound.redo rfl rfl fun a => waiting_redo hlist _ _
  · cases next with
    | add held =>
      obtain ⟨hold, hturn, hlt, -⟩ := hm
      refine ⟨hlists (fun _ => Or.inl rfl) hold, ?_, hlt, by rintro ⟨⟩⟩
      rw [TurnOk, hline]
      refine hturn.mono (fun a ha => (waiting_redo hlist _ _).2 (Or.inl ha))
        ⟨held, Or.inr ?_⟩
      simp [setList, line, hmode, DDLRedoMode.held]
    | fetchDone => exact ⟨hlists (fun _ => rfl) hm.1, by rintro ⟨⟩⟩
    | scan => exact hm

/-- A batch ends: on a standby all of it is redone. -/
lemma Recoverable.finish (hmode : worker.mode = .redo tbsId (some plsn) next)
    (hlist : worker.tbsRedoWaitingList tbsId = some para) (hleft : para.recordEntry = []) :
    { worker.marked tbsId plsn next para.recordEntry with mode := nextMode next }.Recoverable
      size handed put := by
  have hm := h.modeOk hmode
  have hnext : next ≠ .scan := by
    rintro rfl
    exact hm
  obtain ⟨mark, hmarked, -⟩ := marked_eq worker tbsId plsn next para.recordEntry
  rw [hmarked, if_neg hnext, if_pos hleft]
  have hheld : (nextMode next).held = worker.mode.held := by rw [hmode, held_nextMode]
  have hwaiting : ∀ put a, (({ worker.line put with held := (nextMode next).held }).setList tbsId
      none).Waiting a ↔ (worker.line put).Waiting a := fun put a =>
    waiting_congr (waitingIn_clear hlist hleft) hheld
  have hsound : (∀ a, (worker.line put).Waiting a → a.isRedo →
      max worker.maxRecoveryPlsn worker.maxWalRecoveryPlsn < a.recordEndPlsn) → Sound size handed
      (({ worker.line put with held := (nextMode next).held }).setList tbsId none)
      (max worker.maxRecoveryPlsn worker.maxWalRecoveryPlsn)
      (max (max worker.maxRecoveryPlsn worker.maxWalRecoveryPlsn) worker.maxWalRecoveryPlsn) :=
    fun hlt => (h.sound.recover hlt).congr rfl rfl (hwaiting put)
  have hlists : ∀ other para', update worker.tbsRedoWaitingList tbsId none other =
      some para' → other ≠ tbsId ∧ worker.tbsRedoWaitingList other = some para' := by
    intro other para' hpara
    by_cases hother : other = tbsId
    · rw [hother, update_self] at hpara
      cases hpara
    · rw [update_of_ne hother] at hpara
      exact ⟨hother, hpara⟩
  cases next with
  | add held =>
    obtain ⟨hold, hturn, hlt, -⟩ := hm
    refine ⟨hsound fun a ha har => ?_, fun other para' hpara => ?_,
      hturn.mono (fun a => (hwaiting [] a).1) ⟨held, Or.inr rfl⟩⟩
    · have heq := held_of_waiting (fun other para' hpara => ?_) ha
      · rw [hmode] at heq
        cases heq
        exact max_lt (h.sound.waiting _ ha har) hlt
      · rcases hold other para' hpara with rfl | ⟨-, hnil⟩
        · cases hlist.symm.trans hpara
          exact hleft
        · exact hnil
    · obtain ⟨hne, hpara⟩ := hlists other para' hpara
      exact ((hold other para' hpara).resolve_left hne).1
  | fetchDone =>
    obtain ⟨hold, -⟩ := hm
    refine ⟨hsound fun a ha _ => ?_, fun other => ?_, le_max_right _ _⟩
    · have heq := held_of_waiting (fun other para' hpara => ?_) ha
      · rw [hmode] at heq
        cases heq
      · cases hold other para' hpara
        cases hlist.symm.trans hpara
        exact hleft
    · rw [Option.eq_none_iff_forall_not_mem]
      intro para' hpara
      obtain ⟨hne, hpara⟩ := hlists other para' hpara
      exact hne (hold other para' hpara)
  | scan => exact absurd rfl hnext

/-- A map change is redone at once. -/
lemma Recoverable.relmap (hmode : worker.mode = .loop) (hfetched : worker.fetched = entry :: rest)
    (hentry : entry.isRelmap) : (worker.relmap entry rest).Recoverable size handed put := by
  obtain ⟨hlists, hturn⟩ := h.modeOk hmode
  unfold TurnOk at hturn
  rw [hfetched] at hturn
  obtain ⟨mark, hmark, -⟩ := updateMaxRedoPlsn_eq
    { worker with fetched := rest, applied := worker.applied ++ [entry] } entry.recordEndPlsn
  rw [ParallelDDLRedoWorker.relmap, hmark]
  have hs := h.sound.redoUnread (line_unread put hfetched)
    (isBarrier_eq_false_of_isRedo (isRedo_of_isRelmap hentry))
  refine ⟨hs.recover fun a ha har => ?_,
    modeOk_of_eq hmode ⟨hlists, hturn.relmap hentry (le_max_right _ _)⟩⟩
  -- a record before a passed barrier does not wait here
  refine max_lt (hs.waiting a ha har) ?_
  by_contra hge
  have hnot := hturn.lateBarrier ⟨a, ha, not_lt.1 hge⟩ entry mem_cons_self
  simp [hentry] at hnot

lemma Recoverable.add (hmode : worker.mode = .adding entry)
    (hlist : worker.tbsRedoWaitingList worker.curTbsId = some para) (capacity : ℕ) :
    { worker.setWaitingList worker.curTbsId
        (some ⟨para.recordEntry ++ [entry], capacity, para.waitStartPlsn⟩) with
      mode := .loop
      lastTbsId := worker.curTbsId }.Recoverable size handed put := by
  obtain ⟨hlists, hturn⟩ := h.modeOk hmode
  have hheld : ∀ put, (worker.line put).held = some entry := fun put => by
    simp [line, hmode, DDLRedoMode.held]
  refine ⟨h.sound.add (hheld put) _ hlist capacity _, fun other list hpara => ?_,
    hturn.congr fun a => waiting_add (hheld []) hlist⟩
  simp only [setWaitingList, update_apply] at hpara ⊢
  split_ifs at hpara with heq
  · cases hpara
    exact ⟨heq, heq, by simp⟩
  · exact absurd (hlists other list hpara) heq

end

/-- A step of the DDL worker on a standby keeps its recovery plsn sound. -/
lemma Recoverable.step (h : worker.Recoverable cfg.walFileSize handed put)
    (hturn : (RedoWorker.ddl worker).Turn) (hstandby : cfg.standbyRedo) {action : WorkerAction}
    (hfetch : ∀ num, action = .getN num → FetchOk (worker.redoQueue.take num))
    (hstep : Steps cfg worker action worker') : worker'.Recoverable cfg.walFileSize handed put := by
  have hsame : ∀ {mode : DDLRedoMode}, worker.mode.held = none → mode.held = none →
      Sound cfg.walFileSize handed ({ worker with mode := mode }.line put) worker.maxRecoveryPlsn
        (max worker.maxRecoveryPlsn worker.maxWalRecoveryPlsn) := fun hold hnew =>
    h.sound.congr rfl rfl fun a => by
      simp only [WorkerLine.Waiting, waitingIn, line, hold, hnew]
  cases hstep with
  | getN num hmode =>
    obtain ⟨hlists, hle⟩ := h.modeOk hmode
    have hfetched : worker.fetched = [] := hturn (by rw [hmode]; rfl)
    refine ⟨?_, by simp [hlists], .start (hfetch num rfl) ?_⟩
    · have hs := h.sound
      rw [max_eq_left hle] at hs
      simp only [line, hfetched, hmode, nil_append, invalidPlsn, Nat.max_zero] at hs ⊢
      rwa [← append_assoc, take_append_drop]
    · simp [WorkerLine.Waiting, waitingIn, line, hlists, DDLRedoMode.held]
  | noRecord hmode hqueue hwaits =>
    obtain ⟨mark, hmark, -⟩ := updateMaxRedoPlsn_eq worker worker.maxPlsnSyncer
    rw [hmark]
    exact ⟨h.sound, modeOk_of_eq hmode (h.modeOk hmode)⟩
  | scan tbsId hmode hqueue hwaits => simp [waits, (h.modeOk hmode).1 tbsId] at hwaits
  | noList hmode hfetched hlist =>
    obtain ⟨hlists, hturn⟩ := h.modeOk hmode
    have hnone : ∀ tbsId, worker.tbsRedoWaitingList tbsId = none := by
      intro tbsId
      cases hpara : worker.tbsRedoWaitingList tbsId with
      | none => rfl
      | some para => grind
    refine ⟨hsame (by rw [hmode]; rfl) rfl, hnone, ?_⟩
    simpa [WorkerLine.Waiting, waitingIn, line, hnone, hmode, DDLRedoMode.held, hfetched]
      using hturn.counts
  | lastBatch hmode hfetched hlist =>
    obtain ⟨hlists, hturn⟩ := h.modeOk hmode
    obtain ⟨para, hpara⟩ := Option.ne_none_iff_exists'.1 hlist
    exact ⟨hsame (by rw [hmode]; rfl) rfl, fun other para hlist => (hlists other para hlist).1,
      fun _ => ⟨para, hpara, (hlists _ para hpara).2.2⟩⟩
  | syncer hmode hfetched hentry =>
    obtain ⟨hlists, hturn⟩ := h.modeOk hmode
    unfold TurnOk at hturn
    rw [hfetched] at hturn
    refine ⟨h.sound.skip (line_unread put hfetched) ?_ ?_,
      modeOk_of_eq hmode ⟨hlists, hturn.syncer hentry⟩⟩
    · simp [isBarrier, hentry]
    · simp [isRedo, hentry]
  | barrier hmode hfetched hentry =>
    obtain ⟨hlists, hturn⟩ := h.modeOk hmode
    unfold TurnOk at hturn
    rw [hfetched] at hturn
    refine ⟨h.sound.skip (line_unread put hfetched) ?_ (isRedo_eq_false_of_isBarrier hentry),
      modeOk_of_eq hmode ⟨hlists, hturn.barrier hentry _⟩⟩
    rw [if_pos hentry, max_assoc]
  | relmap hmode hfetched hentry => exact h.relmap hmode hfetched hentry
  | batchEnds hmode hfetched hrecord hentry htbs hends =>
    exact h.batchEnds hmode hfetched hentry hends
  | noBatch hmode hfetched hrecord hentry htbs hends =>
    exact h.noBatch hmode hfetched hentry hends
  | redo hmode hlist => exact h.redo hmode hlist
  | @finishNone tbsId next para hmode hlist hleft =>
    -- a list that is redone on a standby has entries
    have hm := h.modeOk hmode
    have hnonempty : ∃ para, worker.tbsRedoWaitingList tbsId = some para ∧
        para.recordEntry ≠ [] := by
      cases next with
      | add held => exact hm.2.2.2 rfl
      | fetchDone => exact hm.2 rfl
      | scan => exact hm.elim
    obtain ⟨para', hpara, hne⟩ := hnonempty
    cases hlist.symm.trans hpara
    exact absurd (hleft hstandby) hne
  | finishSome hmode hlist hleft => exact h.finish hmode hlist (hleft hstandby)
  | add capacity hmode hlist => exact h.add hmode hlist capacity

/-- The queue does not matter for the mode. -/
lemma ModeOk.setQueue (h : worker.ModeOk mode) (queue : List RedoWalRecordEntry) :
    { worker with redoQueue := queue }.ModeOk mode := by
  cases mode with
  | redo tbsId redone next => cases next <;> exact h
  | _ => exact h

end ParallelDDLRedoWorker

end DStore
