import DStore.Wal.RecoveryMarks
import DStore.Wal.RedoWatermark

/-!
# The recovery point of a standby

`GetWorkersRecoveryPlsn` takes the least recovery plsn of the workers. It reaches the last barrier
once the workers have drained their queues, and it never lies above a barrier that some worker has
not passed, in runs in which the DDL worker fetches every barrier together with a record that lets
it count.
-/

namespace DStore

open List Option RedoWalRecordEntry

/-! ## Workers of both kinds -/

namespace RedoWorker

/-- What the worker's mode says of its recovery plsn. -/
def ModeOk : RedoWorker → Prop
  | .page worker => worker.ModeOk
  | .ddl worker => worker.ModeOk worker.mode

/-- The recovery plsn of the worker is sound. -/
structure Recoverable (size : ℕ) (handed put : List RedoWalRecordEntry) (worker : RedoWorker) :
    Prop where
  turn : worker.Turn
  sound : RecoveryMarks.Sound size handed (worker.line put) worker.base.maxRecoveryPlsn
    (max worker.base.maxRecoveryPlsn worker.base.maxWalRecoveryPlsn)
  mode : worker.ModeOk

/-- What the worker has not looked at. -/
def unread (worker : RedoWorker) (put : List RedoWalRecordEntry) : List RedoWalRecordEntry :=
  worker.base.fetched ++ (worker.base.redoQueue ++ put)

/-- The worker is at the top of `WorkerMain` with an empty queue. -/
def Drained : RedoWorker → Prop
  | .page worker => worker.mode = .main ∧ worker.redoQueue = []
  | .ddl worker => worker.mode = .main ∧ worker.redoQueue = []

instance decidableDrained (worker : RedoWorker) : Decidable worker.Drained :=
  match worker with
  | .page worker => inferInstanceAs (Decidable (worker.mode = .main ∧ worker.redoQueue = []))
  | .ddl worker => inferInstanceAs (Decidable (worker.mode = .main ∧ worker.redoQueue = []))

variable {cfg : RedoConfig} {action : WorkerAction} {worker worker' : RedoWorker} {size : ℕ}
  {handed put : List RedoWalRecordEntry} {entry : RedoWalRecordEntry}

lemma line_unread (worker : RedoWorker) (put : List RedoWalRecordEntry) :
    (worker.line put).unread = worker.unread put := by
  cases worker <;> rfl

/-- What the recovery plsn says, for either kind of worker. -/
lemma Recoverable.below (h : worker.Recoverable size handed put) :
    (∀ entry ∈ handed, entry.isRedo → entry ∉ worker.base.applied →
      worker.base.maxRecoveryPlsn < entry.recordEndPlsn) ∧
    (∀ entry ∈ worker.unread put, entry.isBarrier →
      worker.base.maxRecoveryPlsn ≤ entry.groupStartPlsn size) ∧
    worker.base.maxRecoveryPlsn ≤ barrierTop size handed := by
  rw [← line_applied worker put, ← line_unread]
  exact ⟨fun a ha hr hnot => h.sound.below ((h.sound.known a ha hr).resolve_left hnot) hr,
    fun a ha hb => h.sound.le.trans ((h.sound.unread a ha).2 hb), h.sound.le.trans h.sound.top⟩

/-- A worker with nothing left has passed every barrier it was handed. -/
lemma Recoverable.drained (h : worker.Recoverable size handed []) (hdrained : worker.Drained)
    (hentry : entry ∈ handed) (hbarrier : entry.isBarrier) :
    entry.groupStartPlsn size ≤ worker.base.maxRecoveryPlsn := by
  have hnil : worker.unread [] = [] ∧
      worker.base.maxWalRecoveryPlsn ≤ worker.base.maxRecoveryPlsn := by
    cases worker with
    | page worker =>
      exact ⟨by simp [unread, base, (h.turn.1 hdrained.1).1, hdrained.2], h.mode hdrained.1⟩
    | ddl worker =>
      have hturn : worker.fetched = [] := h.turn (by rw [hdrained.1]; rfl)
      have hm : worker.ModeOk worker.mode := h.mode
      rw [hdrained.1] at hm
      exact ⟨by simp [unread, base, hturn, hdrained.2], hm.2⟩
  have hcount := h.sound.barriers entry hentry hbarrier
  rw [line_unread, hnil.1, max_eq_left hnil.2] at hcount
  exact hcount.resolve_right nofun

/-- A new worker is recoverable. -/
lemma Recoverable.init (ddl : Prop) [Decidable ddl] :
    (if ddl then .ddl .init else .page .init : RedoWorker).Recoverable size [] [] := by
  have hsound : ∀ line : WorkerLine, line.unread = [] → (∀ a, ¬ line.Waiting a) →
      RecoveryMarks.Sound size [] line 0 0 := fun line hunread hwaiting => by
    constructor <;> simp [WorkerLine.Known, hunread, hwaiting]
  split
  · refine ⟨fun _ => rfl, hsound _ rfl ?_, fun _ => rfl, le_rfl⟩
    simp [WorkerLine.Waiting, WorkerLine.waitingIn, line, ParallelDDLRedoWorker.line,
      ParallelDDLRedoWorker.init, DDLRedoMode.held]
  · exact ⟨⟨fun _ => ⟨rfl, rfl⟩, by rintro ⟨⟩⟩,
      hsound _ rfl (ParallelPageRedoWorker.not_waiting [] rfl), fun _ => le_rfl⟩

/-- Every step keeps a worker recoverable. -/
lemma Recoverable.step (h : worker.Recoverable cfg.walFileSize handed put)
    (hstandby : cfg.standbyRedo)
    (hfetch : ∀ ddl num, worker = .ddl ddl → action = .getN num →
      FetchOk (ddl.redoQueue.take num)) (hstep : worker.step cfg action = some worker') :
    worker'.Recoverable cfg.walFileSize handed put := by
  have hturn := h.turn.step hstep
  obtain ⟨old, new, rfl, rfl, hsteps⟩ | ⟨old, new, rfl, rfl, hsteps⟩ := step_cases hstep
  · obtain ⟨hsound, hmode⟩ := ParallelPageRedoWorker.Recoverable.step h.sound h.mode h.turn hsteps
    exact ⟨hturn, hsound, hmode⟩
  · obtain ⟨hsound, hmode⟩ := ParallelDDLRedoWorker.Recoverable.step ⟨h.sound, h.mode⟩ h.turn
      hstandby (fun num => hfetch old num rfl) hsteps
    exact ⟨hturn, hsound, hmode⟩

/-- So does appending the batch. -/
lemma Recoverable.append (h : worker.Recoverable size handed put) :
    (worker.appendWalRecord put).Recoverable size handed [] := by
  have hline := worker.line_append put
  cases worker with
  | page worker => exact ⟨h.turn, by rw [hline]; exact h.sound, h.mode⟩
  | ddl worker =>
    exact ⟨h.turn, by rw [hline]; exact h.sound, ParallelDDLRedoWorker.ModeOk.setQueue h.mode _⟩

/-- So does handing out a record behind the last barrier. -/
lemma Recoverable.handOut (h : worker.Recoverable size handed put)
    (habove : entry.Above size (barrierTop size handed)) :
    worker.Recoverable size (handed ++ [entry]) (put ++ [entry]) :=
  ⟨h.turn, by rw [line_put]; exact h.sound.put habove, h.mode⟩

end RedoWorker

/-! ## The whole system -/

namespace RedoSystem

/-- What is asked of the steps of a run: the DDL worker never fetches a barrier without a tablespace
record or a later map change, nor a map change behind a barrier behind a tablespace record. -/
def RecoveryOk (system : RedoSystem) : RedoEvent → Prop
  | .work workerId (.getN num) =>
    ∀ worker, system.worker workerId = .ddl worker → FetchOk (worker.redoQueue.take num)
  | _ => True

/-- The worker has passed a barrier, with all earlier records redone. -/
def Passed (system : RedoSystem) (i : ℕ) (barrier : RedoWalRecordEntry) : Prop :=
  barrier ∈ system.handed i ∧ barrier ∉ (system.worker i).unread (system.batchPut i) ∧
    ∀ entry ∈ system.handed i, entry.isRedo → entry.recordEndPlsn < barrier.recordEndPlsn →
      system.Done i entry

/-- The dispatcher has nothing left to hand out, and every worker has drained its queue. -/
def Drained (cfg : RedoConfig) (system : RedoSystem) : Prop :=
  system.Idle ∧ ∀ i < cfg.redoWorkerNum, system.batchPut i = [] ∧ (system.worker i).Drained

instance decidableSystemDrained (cfg : RedoConfig) (system : RedoSystem) :
    Decidable (system.Drained cfg) :=
  inferInstanceAs (Decidable (_ ∧ ∀ i < cfg.redoWorkerNum, _))

/-- What holds along every such run. -/
structure RecoveryInv (cfg : RedoConfig) (system : RedoSystem) : Prop where
  recoverable : ∀ i, (system.worker i).Recoverable cfg.walFileSize (system.handed i)
    (system.batchPut i)
  order : ∀ i, ∀ entry ∈ system.handed i, ∀ barrier ∈ system.handed i, entry.isRedo →
    barrier.isBarrier → entry.recordEndPlsn < barrier.recordEndPlsn →
      entry.recordEndPlsn ≤ barrier.groupStartPlsn cfg.walFileSize
  plsn : ∀ i, ∀ entry ∈ system.handed i, entry.recordEndPlsn ≤ system.lastPlsn
  top : ∀ i, barrierTop cfg.walFileSize (system.handed i) ≤ system.lastPlsn ∧
    barrierTop cfg.walFileSize (system.handed i) < uint64Max
  todoPlsn : ∀ target ∈ system.todo, target.entry.recordEndPlsn = system.lastPlsn ∧
    (target.entry.isBarrier → target.entry.groupStartPlsn cfg.walFileSize < system.lastPlsn) ∧
    system.lastPlsn ≤ uint64Max
  todoAbove : ∀ target ∈ system.todo, ∀ i,
    target.entry.Above cfg.walFileSize (barrierTop cfg.walFileSize (system.handed i))
  todoBarrier : ∀ target ∈ system.todo, target.entry.isBarrier →
    (∀ other ∈ system.todo, other.entry = target.entry) ∧
    ∀ i, ∀ entry ∈ system.handed i, entry.isRedo →
      entry.recordEndPlsn ≤ target.entry.groupStartPlsn cfg.walFileSize
  everywhere : ∀ barrier, barrier.isBarrier → ((∃ j, barrier ∈ system.handed j) ∨
    ∃ target ∈ system.todo, target.entry = barrier) → ∀ i < cfg.redoWorkerNum,
      barrier ∈ system.handed i ∨ ∃ target ∈ system.todo, target.workerId = i ∧
        target.entry = barrier

variable {cfg : RedoConfig} {system system' : RedoSystem} {i plsn : ℕ}
  {entry : RedoWalRecordEntry}

/-- The invariant holds at the start. -/
lemma RecoveryInv.init (cfg : RedoConfig) : (init cfg).RecoveryInv cfg := by
  constructor
  · exact fun i => RedoWorker.Recoverable.init _
  all_goals simp [RedoSystem.init, barrierTop, uint64Max]

/-- A barrier goes to every worker. -/
lemma barrier_target (hbarrier : entry.isBarrier) (hsome : cfg.dispatchEntry entry ≠ [])
    (hi : i < cfg.redoWorkerNum) :
    ∃ target ∈ cfg.dispatchEntry entry, target.workerId = i ∧ target.entry = entry := by
  obtain ⟨record, hrecord, htype⟩ := any_eq_true _ _ |>.1 hbarrier
  replace htype : record.type = .barrierCsn := of_decide_eq_true htype
  simp only [RedoConfig.dispatchEntry, hrecord, if_pos htype] at hsome ⊢
  split_ifs at hsome ⊢ with hstandby
  · exact ⟨⟨i, entry, false⟩, mem_map.2 ⟨i, mem_range.2 hi, rfl⟩, rfl, rfl⟩
  · exact absurd rfl hsome

section

variable (h : system.RecoveryInv cfg)
include h

/-- The dispatcher takes the next entry of the log. -/
lemma RecoveryInv.dispatch (hidle : system.Idle) (hfollows : cfg.Follows system.lastPlsn entry) :
    { system with todo := cfg.dispatchEntry entry, lastPlsn := entry.recordEndPlsn }.RecoveryInv
      cfg := by
  obtain ⟨hle, hmax, hlt, hgroup⟩ := hfollows
  have hbarrier : ∀ target ∈ cfg.dispatchEntry entry, target.entry.isBarrier →
      target.entry = entry := by
    intro target htarget hb
    refine cfg.dispatchEntry_eq_of_not_isRedo htarget ?_
    by_contra hr
    have hredo := cfg.dispatchEntry_isRedo htarget (by simpa using hr)
    rw [isRedo_eq_false_of_isBarrier hb] at hredo
    cases hredo
  have hredo : ∀ target ∈ cfg.dispatchEntry entry, target.entry.isRedo →
      system.lastPlsn < entry.recordEndPlsn := by
    intro target htarget hr
    refine hlt fun hnone => ?_
    have hsyncer : entry.isRedo = false := by simp [isRedo, hnone]
    rw [cfg.dispatchEntry_eq_of_not_isRedo htarget hsyncer, hsyncer] at hr
    cases hr
  constructor
  · exact h.recoverable
  · exact h.order
  · exact fun i a ha => (h.plsn i a ha).trans hle
  · exact fun i => ⟨(h.top i).1.trans hle, (h.top i).2⟩
  · intro target htarget
    refine ⟨cfg.dispatchEntry_plsn htarget, fun hb => ?_, hmax⟩
    have heq := hbarrier target htarget hb
    rw [heq] at hb ⊢
    exact (hgroup hb).2
  · refine fun target htarget i => ⟨fun hr => ?_, fun hb => ?_⟩
    · rw [cfg.dispatchEntry_plsn htarget]
      exact (h.top i).1.trans_lt (hredo target htarget hr)
    · have heq := hbarrier target htarget hb
      rw [heq] at hb ⊢
      exact (h.top i).1.trans (hgroup hb).1
  · intro target htarget hb
    have heq := hbarrier target htarget hb
    rw [heq] at hb ⊢
    refine ⟨fun other hother => ?_, fun i a ha _ => (h.plsn i a ha).trans (hgroup hb).1⟩
    exact cfg.dispatchEntry_eq_of_not_isRedo hother
      (isRedo_eq_false_of_isBarrier hb)
  · intro barrier hb hsome i hi
    rcases hsome with hsome | ⟨target, htarget, rfl⟩
    · refine Or.inl ((h.everywhere barrier hb (Or.inl hsome) i hi).resolve_right ?_)
      rw [hidle.1]
      simp
    · have heq := hbarrier target htarget hb
      rw [heq] at hb ⊢
      exact Or.inr (barrier_target hb (ne_nil_of_mem htarget) hi)

/-- An entry is handed to a worker. -/
lemma RecoveryInv.put {target : DispatchTarget}
    {rest : List DispatchTarget} (htodo : system.todo = target :: rest) (note : Option (ℕ × ℕ)) :
    { system.put target.workerId target.entry with todo := rest, note := note }.RecoveryInv
      cfg := by
  have hmem : target ∈ system.todo := by simp [htodo]
  have hrest : ∀ t ∈ rest, t ∈ system.todo := fun t ht => by simp [htodo, ht]
  obtain ⟨hplsn, hgroup, hmax⟩ := h.todoPlsn target hmem
  constructor
  · exact forall_put h.recoverable
      ((h.recoverable target.workerId).handOut (h.todoAbove target hmem _))
  · intro j a ha b hb har hbb hlt
    rcases mem_put_handed.1 ha with ha | ⟨rfl, rfl⟩
    · rcases mem_put_handed.1 hb with hb | ⟨rfl, rfl⟩
      · exact h.order j a ha b hb har hbb hlt
      · exact (h.todoBarrier target hmem hbb).2 _ a ha har
    · rcases mem_put_handed.1 hb with hb | ⟨-, rfl⟩
      · have := h.plsn _ b hb
        omega
      · omega
  · intro j a ha
    rcases mem_put_handed.1 ha with ha | ⟨-, rfl⟩
    · exact h.plsn j a ha
    · exact hplsn.le
  · refine forall_put (P := fun handed _ _ => barrierTop cfg.walFileSize handed ≤ system.lastPlsn ∧
      barrierTop cfg.walFileSize handed < uint64Max) h.top ?_
    rw [barrierTop_append_singleton]
    split
    · rename_i hb
      have := hgroup hb
      exact ⟨max_le (h.top _).1 this.le, max_lt (h.top _).2 (this.trans_le hmax)⟩
    · exact h.top _
  · exact fun t ht => h.todoPlsn t (hrest t ht)
  · intro t ht
    refine forall_put (P := fun handed _ _ => t.entry.Above cfg.walFileSize
      (barrierTop cfg.walFileSize handed)) (h.todoAbove t (hrest t ht)) ?_
    rw [barrierTop_append_singleton]
    split
    · rename_i hb
      -- the other workers get the same barrier
      rw [(h.todoBarrier target hmem hb).1 t (hrest t ht)]
      refine (h.todoAbove target hmem _).max ⟨fun hr => ?_, fun _ => le_rfl⟩
      rw [isRedo_eq_false_of_isBarrier hb] at hr
      cases hr
    · exact h.todoAbove t (hrest t ht) _
  · intro t ht hb
    obtain ⟨hsame, hle⟩ := h.todoBarrier t (hrest t ht) hb
    refine ⟨fun o ho => hsame o (hrest o ho), fun j a ha har => ?_⟩
    rcases mem_put_handed.1 ha with ha | ⟨-, rfl⟩
    · exact hle j a ha har
    · rw [hsame target hmem, isRedo_eq_false_of_isBarrier hb] at har
      cases har
  · intro barrier hb hsome j hj
    have hold : (∃ j, barrier ∈ system.handed j) ∨ ∃ t ∈ system.todo, t.entry = barrier := by
      rcases hsome with ⟨k, hk⟩ | ⟨t, ht, heq⟩
      · rcases mem_put_handed.1 hk with hk | ⟨-, heq⟩
        · exact Or.inl ⟨k, hk⟩
        · exact Or.inr ⟨target, hmem, heq.symm⟩
      · exact Or.inr ⟨t, hrest t ht, heq⟩
    rcases h.everywhere barrier hb hold j hj with hmemj | ⟨t, ht, hworker, heq⟩
    · exact Or.inl (mem_put_handed.2 (Or.inl hmemj))
    · rw [htodo] at ht
      rcases mem_cons.1 ht with rfl | ht
      · exact Or.inl (mem_put_handed.2 (Or.inr ⟨hworker.symm, heq.symm⟩))
      · exact Or.inr ⟨t, ht, hworker, heq⟩

/-- Steps of workers keep the invariant. -/
lemma RecoveryInv.setWorkers (hhanded : system'.handed = system.handed)
    (htodo : system'.todo = system.todo) (hlast : system'.lastPlsn = system.lastPlsn)
    (hrecoverable : ∀ i, (system'.worker i).Recoverable cfg.walFileSize (system.handed i)
      (system'.batchPut i)) : system'.RecoveryInv cfg := by
  constructor
  · rw [hhanded]
    exact hrecoverable
  · rw [hhanded]
    exact h.order
  · rw [hhanded, hlast]
    exact h.plsn
  · rw [hhanded, hlast]
    exact h.top
  · rw [htodo, hlast]
    exact h.todoPlsn
  · rw [htodo, hhanded]
    exact h.todoAbove
  · rw [htodo, hhanded]
    exact h.todoBarrier
  · rw [htodo, hhanded]
    exact h.everywhere

/-- Appending a batch keeps it. -/
lemma RecoveryInv.append (i : ℕ) : (system.append i).RecoveryInv cfg :=
  h.setWorkers rfl rfl rfl (forall_append h.recoverable (h.recoverable i).append)

/-- Every step that is as asked keeps the invariant. -/
lemma RecoveryInv.step (hstandby : cfg.standbyRedo)
    {event : RedoEvent} (hok : system.RecoveryOk event)
    (hstep : system.step cfg event = some system') : system'.RecoveryInv cfg := by
  cases event with
  | dispatch entry =>
    simp only [RedoSystem.step, ite_none_right_eq_some, some.injEq] at hstep
    obtain ⟨⟨hidle, hfollows⟩, rfl⟩ := hstep
    exact h.dispatch hidle hfollows
  | dispatchOp =>
    simp only [RedoSystem.step, dispatchOp] at hstep
    split at hstep
    · cases hstep
      exact h.setWorkers rfl rfl rfl h.recoverable
    · split at hstep
      · cases hstep
      · rename_i htodo
        split_ifs at hstep <;> cases hstep
        · exact (h.put htodo _).append _
        · exact h.put htodo _
  | append workerId =>
    simp only [RedoSystem.step, ite_none_right_eq_some, some.injEq] at hstep
    obtain ⟨-, rfl⟩ := hstep
    exact h.append workerId
  | work workerId action =>
    obtain ⟨worker, hworker, rfl⟩ := map_eq_some_iff.1 hstep
    have hfetch : ∀ ddl num, system.worker workerId = .ddl ddl → action = .getN num →
        FetchOk (ddl.redoQueue.take num) := by
      rintro ddl num hddl rfl
      exact hok ddl hddl
    exact h.setWorkers rfl rfl rfl (forall_update_worker h.recoverable
      ((h.recoverable workerId).step hstandby hfetch hworker))
  | startRead | readRedone | readDispatched | endRead | checkpoint plsn =>
    obtain ⟨_, _, rfl⟩ := step_observes rfl hstep
    exact h.setWorkers rfl rfl rfl h.recoverable

end

/-- It holds in every reachable state. -/
lemma Reachable.recoveryInv (hstandby : cfg.standbyRedo) (h : Reachable cfg RecoveryOk system) :
    system.RecoveryInv cfg := by
  induction h with
  | init => exact RecoveryInv.init cfg
  | step _ hok hstep ih => exact ih.step hstandby hok hstep

lemma le_foldl_min_iff {f : ℕ → ℕ} {ids : List ℕ} {start bound : ℕ} :
    bound ≤ ids.foldl (fun plsn id => min plsn (f id)) start ↔
      bound ≤ start ∧ ∀ id ∈ ids, bound ≤ f id := by
  induction ids generalizing start with
  | nil => simp
  | cons first ids ih => rw [foldl_cons, ih, le_min_iff, forall_mem_cons, and_assoc]

/-- The point of the workers is at most that of each. -/
lemma getWorkersRecoveryPlsn_le (cfg : RedoConfig) (system : RedoSystem)
    (hi : i < cfg.redoWorkerNum) :
    system.getWorkersRecoveryPlsn cfg ≤ (system.worker i).base.maxRecoveryPlsn := by
  unfold getWorkersRecoveryPlsn
  dsimp only
  split
  · exact Nat.zero_le _
  · exact (le_foldl_min_iff.1 le_rfl).2 i (mem_range.2 hi)

/-- It is the least of theirs. -/
lemma RecoveryInv.le_getWorkersRecoveryPlsn (h : system.RecoveryInv cfg)
    (hi : i < cfg.redoWorkerNum)
    (hplsn : ∀ j < cfg.redoWorkerNum, plsn ≤ (system.worker j).base.maxRecoveryPlsn) :
    plsn ≤ system.getWorkersRecoveryPlsn cfg := by
  have hmax : ∀ j, (system.worker j).base.maxRecoveryPlsn < uint64Max := fun j =>
    (h.recoverable j).below.2.2.trans_lt (h.top j).2
  unfold getWorkersRecoveryPlsn
  dsimp only
  rw [if_neg (((le_foldl_min_iff.1 le_rfl).2 i (mem_range.2 hi)).trans_lt (hmax i)).ne]
  exact le_foldl_min_iff.2
    ⟨(hplsn i hi).trans (hmax i).le, fun j hj => hplsn j (mem_range.1 hj)⟩

/-- In every run as asked on a standby: once the workers have drained their queues, the recovery
point is at least the group start of every barrier handed out, and it is never above the group
start of a barrier that some worker has not passed with all earlier records redone. -/
theorem Reachable.getWorkersRecoveryPlsn_barrier (hstandby : cfg.standbyRedo)
    (h : Reachable cfg RecoveryOk system) {barrier : RedoWalRecordEntry}
    (hbarrier : barrier.isBarrier)
    (hhanded : ∃ j < cfg.redoWorkerNum, barrier ∈ system.handed j) :
    (system.Drained cfg →
      barrier.groupStartPlsn cfg.walFileSize ≤ system.getWorkersRecoveryPlsn cfg) ∧
    ∀ i < cfg.redoWorkerNum, ¬ system.Passed i barrier →
      system.getWorkersRecoveryPlsn cfg ≤ barrier.groupStartPlsn cfg.walFileSize := by
  have hinv := h.recoveryInv hstandby
  obtain ⟨j, hj, hmem⟩ := hhanded
  have heverywhere := hinv.everywhere barrier hbarrier (Or.inl ⟨j, hmem⟩)
  refine ⟨fun ⟨hidle, hdrained⟩ => ?_, fun i hi hnot => ?_⟩
  · refine hinv.le_getWorkersRecoveryPlsn hj fun i hi => ?_
    obtain ⟨hput, hworker⟩ := hdrained i hi
    have hmemi : barrier ∈ system.handed i := by
      refine (heverywhere i hi).resolve_right ?_
      rw [hidle.1]
      simp
    have hrecoverable := hinv.recoverable i
    rw [hput] at hrecoverable
    exact hrecoverable.drained hworker hmemi hbarrier
  · obtain ⟨hrecords, hbarriers, htop⟩ := (hinv.recoverable i).below
    refine (getWorkersRecoveryPlsn_le cfg system hi).trans ?_
    rcases heverywhere i hi with hmemi | ⟨target, htarget, -, rfl⟩
    · by_cases hunread : barrier ∈ (system.worker i).unread (system.batchPut i)
      · exact hbarriers barrier hunread hbarrier
      · -- an earlier record is not redone
        simp only [Passed, hmemi, hunread, not_false_eq_true, true_and, not_forall,
          exists_prop] at hnot
        obtain ⟨entry, hentry, hredo, hlt, hdone⟩ := hnot
        exact (hrecords entry hentry hredo hdone).le.trans
          (hinv.order i entry hentry barrier hmemi hredo hbarrier hlt)
    · exact htop.trans ((hinv.todoAbove target htarget i).2 hbarrier)

/-- A check of the steps of a run: the DDL worker fetches tablespace records and no map change. -/
def recoveryCheck (system : RedoSystem) : RedoEvent → Bool
  | .work workerId (.getN num) =>
    match system.worker workerId with
    | .ddl worker => (worker.redoQueue.take num).all (!·.isRelmap) &&
        (worker.redoQueue.take num).any (·.isTablespace)
    | .page _ => true
  | _ => true

lemma recoveryOk_of_check {event : RedoEvent} (hcheck : system.recoveryCheck event) :
    system.RecoveryOk event := by
  cases event with
  | work workerId action =>
    cases action with
    | getN num =>
      intro worker hworker
      simp only [recoveryCheck, hworker, Bool.and_eq_true, List.all_eq_true, Bool.not_eq_true',
        List.any_eq_true] at hcheck
      obtain ⟨hrelmap, htbs⟩ := hcheck
      refine ⟨fun first barrier last hsub _ _ => hrelmap last (hsub.subset (by simp)),
        fun _ _ _ _ _ => Or.inl htbs⟩
    | _ => trivial
  | _ => trivial

/-- A standby with two workers. -/
def standbyTwoWorkers : RedoConfig := ⟨2, 16384, 0, true, true, fun _ => 0⟩

/-- A barrier record whose group starts at plsn 82. -/
def barrierEntry : RedoWalRecordEntry := ⟨200, some ⟨.barrierCsn, 100, ⟨0, 0⟩, 0, 0, 0⟩⟩

/-- A page worker takes and passes one barrier. -/
def pageWorkerPasses : List RedoEvent :=
  [.work 1 (.getN 1), .work 1 .take, .work 1 .take, .work 1 .finish]

/-- A tablespace record and a barrier are handed out and all queues drained. -/
def tablespaceBarrierRun : List RedoEvent :=
  [.dispatch ⟨50, some ⟨.tbsCreateTablespace, 30, ⟨0, 0⟩, 0, 0, 3⟩⟩, .dispatchOp, .dispatchOp,
    .dispatch barrierEntry, .dispatchOp, .dispatchOp, .dispatchOp, .dispatchOp, .append 0,
    .append 1, .work 0 (.getN 2), .work 0 .take, .work 0 .add, .work 0 .take, .work 0 .take,
    .work 0 .redo, .work 0 .finish] ++ pageWorkerPasses

/-- With a tablespace record before it the barrier counts. -/
theorem getWorkersRecoveryPlsn_barrier_tablespace :
    ∃ system, run standbyTwoWorkers recoveryCheck tablespaceBarrierRun (init standbyTwoWorkers) =
        some system ∧ system.Drained standbyTwoWorkers ∧
      82 ≤ system.getWorkersRecoveryPlsn standbyTwoWorkers := by
  have hcheck : (run standbyTwoWorkers recoveryCheck tablespaceBarrierRun
      (init standbyTwoWorkers)).any (fun system =>
        system.Drained standbyTwoWorkers ∧ barrierEntry ∈ system.handed 0) := by
    decide +kernel
  obtain ⟨system, hrun, hsystem⟩ := (Option.any_eq_true _ _).1 hcheck
  obtain ⟨hdrained, hhanded⟩ := of_decide_eq_true hsystem
  have hreach : Reachable standbyTwoWorkers RecoveryOk system :=
    Reachable.init.run (fun _ _ => recoveryOk_of_check) hrun
  exact ⟨system, hrun, hdrained, (hreach.getWorkersRecoveryPlsn_barrier rfl rfl
    ⟨0, by decide, hhanded⟩).1 hdrained⟩

/-- A barrier alone is handed out and all queues drained. -/
def barrierRun : List RedoEvent :=
  [.dispatch barrierEntry, .dispatchOp, .dispatchOp, .dispatchOp, .dispatchOp, .append 0,
    .append 1, .work 0 (.getN 1), .work 0 .take, .work 0 .take] ++ pageWorkerPasses

/-- Without a DDL record the recovery point stays at zero. -/
theorem getWorkersRecoveryPlsn_barrier_lost :
    ∃ system, Reachable standbyTwoWorkers (fun _ _ => True) system ∧
      system.Drained standbyTwoWorkers ∧ barrierEntry.isBarrier ∧
      barrierEntry ∈ system.handed 0 ∧ barrierEntry ∈ system.handed 1 ∧
      barrierEntry.groupStartPlsn standbyTwoWorkers.walFileSize = 82 ∧
      system.getWorkersRecoveryPlsn standbyTwoWorkers = 0 := by
  have hcheck : (run standbyTwoWorkers (fun _ _ => true) barrierRun
      (init standbyTwoWorkers)).any (fun system =>
        system.Drained standbyTwoWorkers ∧ barrierEntry ∈ system.handed 0 ∧
        barrierEntry ∈ system.handed 1 ∧ system.getWorkersRecoveryPlsn standbyTwoWorkers = 0) := by
    decide +kernel
  obtain ⟨system, hrun, hsystem⟩ := (Option.any_eq_true _ _).1 hcheck
  obtain ⟨hdrained, hzero, hone, hplsn⟩ := of_decide_eq_true hsystem
  have hreach : Reachable standbyTwoWorkers (fun _ _ => True) system :=
    Reachable.init.run (fun _ _ _ => trivial) hrun
  exact ⟨system, hreach, hdrained, rfl, hzero, hone, by decide, hplsn⟩

end RedoSystem

end DStore
