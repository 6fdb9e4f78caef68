import DStore.Wal.RedoWorker

/-!
# The dispatcher and its workers as one system

The dispatcher thread, the redo workers and a caller of `GetWorkersRedoFinishedPlsn` run side by
side. A step is one access to what they share: the dispatcher puts an entry into a batch, appends a
batch to a queue or notes a plsn; a worker makes one step of its machine; the caller reads one of
the two numbers of a worker. `handed` is a history variable.
-/

namespace DStore

open Function

/-- `UINT64_MAX`. -/
def uint64Max : ℕ := 2 ^ 64 - 1

/-- A redo worker of either kind. -/
inductive RedoWorker where
  | page (worker : ParallelPageRedoWorker)
  | ddl (worker : ParallelDDLRedoWorker)

namespace RedoWorker

/-- What both kinds of workers keep. -/
def base : RedoWorker → ParallelRedoWorker
  | .page worker => worker.toParallelRedoWorker
  | .ddl worker => worker.toParallelRedoWorker

/-- One step of a worker. -/
def step (cfg : RedoConfig) (action : WorkerAction) : RedoWorker → Option RedoWorker
  | .page worker => (worker.step cfg action).map .page
  | .ddl worker => (worker.step cfg action).map .ddl

/-- `AppendWalRecord`. -/
def appendWalRecord (entries : List RedoWalRecordEntry) : RedoWorker → RedoWorker
  | .page worker => .page { worker with redoQueue := worker.redoQueue ++ entries }
  | .ddl worker => .ddl { worker with redoQueue := worker.redoQueue ++ entries }

end RedoWorker

/-- A call of `GetWorkersRedoFinishedPlsn` that has dealt with the workers before `next`; `redone`
is set between the two reads of that worker. -/
structure RedoFinishedRead where
  next : ℕ
  redone : Option ℕ
  workersMinRedonePlsn : ℕ
  workersMaxRedonePlsn : ℕ
deriving DecidableEq, Repr

/-- The shared state. `todo` is what the dispatcher still has to hand out of the entry it has taken,
`note` the worker and the plsn it has to note next, and `lastPlsn` the end plsn of the entry. -/
structure RedoSystem where
  worker : ℕ → RedoWorker
  batchPut : ℕ → List RedoWalRecordEntry
  maxDispatchedPlsn : ℕ → ℕ
  todo : List DispatchTarget
  note : Option (ℕ × ℕ)
  lastPlsn : ℕ
  diskRecoveryPlsn : ℕ
  read : Option RedoFinishedRead
  handed : ℕ → List RedoWalRecordEntry

/-- A step of the system. -/
inductive RedoEvent where
  | dispatch (entry : RedoWalRecordEntry)
  | dispatchOp
  | append (workerId : ℕ)
  | work (workerId : ℕ) (action : WorkerAction)
  | startRead
  | readRedone
  | readDispatched
  | endRead
  | checkpoint (plsn : ℕ)

/-- The events that only read the marks or write the checkpoint. -/
def RedoEvent.observes : RedoEvent → Bool
  | startRead | readRedone | readDispatched | endRead | checkpoint _ => true
  | _ => false

/-- The entry is the next one of the log: it ends behind what came before, a syncer may end at the
same place, and the group of a barrier record starts behind what came before. -/
def RedoConfig.Follows (cfg : RedoConfig) (lastPlsn : ℕ) (entry : RedoWalRecordEntry) : Prop :=
  lastPlsn ≤ entry.recordEndPlsn ∧ entry.recordEndPlsn ≤ uint64Max ∧
    (entry.walRecord ≠ none → lastPlsn < entry.recordEndPlsn) ∧
    (entry.isBarrier → lastPlsn ≤ entry.groupStartPlsn cfg.walFileSize ∧
      entry.groupStartPlsn cfg.walFileSize < entry.recordEndPlsn)

instance decidableFollows (cfg : RedoConfig) (lastPlsn : ℕ) (entry : RedoWalRecordEntry) :
    Decidable (cfg.Follows lastPlsn entry) :=
  inferInstanceAs (Decidable (_ ∧ _ ∧ (_ → _) ∧ (_ → _)))

namespace RedoFinishedRead

/-- The start of `GetWorkersRedoFinishedPlsn`. -/
def start : RedoFinishedRead := ⟨0, none, uint64Max, 0⟩

/-- The second read for a worker, and the end of the turn. -/
def turn (read : RedoFinishedRead) (redone dispatched : ℕ) : RedoFinishedRead where
  next := read.next + 1
  redone := none
  workersMinRedonePlsn :=
    if dispatched > redone then min read.workersMinRedonePlsn redone
    else read.workersMinRedonePlsn
  workersMaxRedonePlsn := max read.workersMaxRedonePlsn redone

/-- What `GetWorkersRedoFinishedPlsn` returns after its loop. -/
def result (cfg : RedoConfig) (diskRecoveryPlsn : ℕ) (read : RedoFinishedRead) : ℕ :=
  let redoPlsn :=
    if read.workersMinRedonePlsn ≠ uint64Max then read.workersMinRedonePlsn
    else read.workersMaxRedonePlsn
  if redoPlsn ≠ 0 then redoPlsn
  else if cfg.standby then max redoPlsn diskRecoveryPlsn
  else redoPlsn

end RedoFinishedRead

namespace RedoSystem

/-- The system before the first entry: worker 0 redoes DDL records, the others pages. -/
def init (cfg : RedoConfig) : RedoSystem where
  worker i := if i < ddlRedoWorkerNum then .ddl .init else .page .init
  batchPut _ := []
  maxDispatchedPlsn _ := 0
  todo := []
  note := none
  lastPlsn := cfg.recoveryStartPlsn
  diskRecoveryPlsn := cfg.recoveryStartPlsn
  read := none
  handed _ := []

/-- The batch of a worker goes to its queue. -/
def append (system : RedoSystem) (workerId : ℕ) : RedoSystem :=
  { system with
    worker := update system.worker workerId
      ((system.worker workerId).appendWalRecord (system.batchPut workerId))
    batchPut := update system.batchPut workerId [] }

/-- An entry goes into the batch of a worker. -/
def put (system : RedoSystem) (workerId : ℕ) (entry : RedoWalRecordEntry) : RedoSystem :=
  { system with
    batchPut := update system.batchPut workerId (system.batchPut workerId ++ [entry])
    handed := update system.handed workerId (system.handed workerId ++ [entry]) }

section Workers

variable {system : RedoSystem} {i : ℕ}
  {P : List RedoWalRecordEntry → List RedoWalRecordEntry → RedoWorker → Prop}
  (h : ∀ j, P (system.handed j) (system.batchPut j) (system.worker j))
include h

/-- What holds for each worker with its entries holds after a step of one of them. -/
lemma forall_update_worker {worker : RedoWorker}
    (hself : P (system.handed i) (system.batchPut i) worker) (j : ℕ) :
    P (system.handed j) (system.batchPut j) (update system.worker i worker j) := by
  by_cases hj : j = i
  · subst hj
    rwa [update_self]
  · rw [update_of_ne hj]
    exact h j

/-- Appending a batch concerns one worker. -/
lemma forall_append (hself : P (system.handed i) []
    ((system.worker i).appendWalRecord (system.batchPut i))) (j : ℕ) :
    P (system.handed j) ((system.append i).batchPut j) ((system.append i).worker j) := by
  by_cases hj : j = i
  · subst hj
    simpa [append] using hself
  · simpa [append, update_of_ne hj] using h j

/-- Putting a record concerns one worker. -/
lemma forall_put {entry : RedoWalRecordEntry} (hself : P (system.handed i ++ [entry])
    (system.batchPut i ++ [entry]) (system.worker i)) (j : ℕ) :
    P ((system.put i entry).handed j) ((system.put i entry).batchPut j) (system.worker j) := by
  by_cases hj : j = i
  · subst hj
    simpa [put] using hself
  · simpa [put, update_of_ne hj] using h j

end Workers

lemma put_handed_of_ne (system : RedoSystem) {i j : ℕ} (hj : j ≠ i) (entry : RedoWalRecordEntry) :
    (system.put i entry).handed j = system.handed j := by
  simp [put, update_of_ne hj]

/-- What is handed out after a put. -/
lemma mem_put_handed {system : RedoSystem} {i j : ℕ} {entry a : RedoWalRecordEntry} :
    a ∈ (system.put i entry).handed j ↔ a ∈ system.handed j ∨ j = i ∧ a = entry := by
  by_cases hj : j = i
  · subst hj
    simp [put]
  · simp [put_handed_of_ne system hj, hj]

/-- One step of the dispatcher for the entry it has taken: it notes the plsn of what it has handed
out last, or hands out the next. -/
def dispatchOp (system : RedoSystem) : Option RedoSystem :=
  match system.note with
  | some (workerId, plsn) =>
    some { system with
      note := none
      maxDispatchedPlsn := update system.maxDispatchedPlsn workerId plsn }
  | none =>
    match system.todo with
    | [] => none
    | target :: rest =>
      let system := { system.put target.workerId target.entry with
        todo := rest
        note := some (target.workerId, target.entry.recordEndPlsn) }
      if target.appendNow ∨ maxRedoQueBatchNum ≤ (system.batchPut target.workerId).length then
        some (system.append target.workerId)
      else some system

/-- The dispatcher is between two entries. -/
def Idle (system : RedoSystem) : Prop := system.todo = [] ∧ system.note = none

instance decidableIdle (system : RedoSystem) : Decidable system.Idle :=
  inferInstanceAs (Decidable (_ ∧ _))

/-- The first read for a worker. -/
def readRedone (cfg : RedoConfig) (system : RedoSystem) : Option RedoSystem :=
  match system.read with
  | some read =>
    if read.next < cfg.redoWorkerNum ∧ read.redone = none then
      let redone := (system.worker read.next).base.maxRedoPlsn
      some { system with read := some { read with redone := some redone } }
    else none
  | none => none

/-- The second read for a worker. -/
def readDispatched (system : RedoSystem) : Option RedoSystem :=
  match system.read with
  | some read =>
    match read.redone with
    | some redone =>
      some { system with read := some (read.turn redone (system.maxDispatchedPlsn read.next)) }
    | none => none
  | none => none

/-- One step of the system. -/
def step (cfg : RedoConfig) (event : RedoEvent) (system : RedoSystem) : Option RedoSystem :=
  match event with
  | .dispatch entry =>
    if system.Idle ∧ cfg.Follows system.lastPlsn entry then
      some { system with todo := cfg.dispatchEntry entry, lastPlsn := entry.recordEndPlsn }
    else none
  | .dispatchOp => system.dispatchOp
  | .append workerId => if system.Idle then some (system.append workerId) else none
  | .work workerId action =>
    ((system.worker workerId).step cfg action).map fun worker =>
      { system with worker := update system.worker workerId worker }
  | .startRead =>
    if system.read = none then some { system with read := some .start } else none
  | .readRedone => system.readRedone cfg
  | .readDispatched => system.readDispatched
  | .endRead => some { system with read := none }
  | .checkpoint plsn => some { system with diskRecoveryPlsn := plsn }

/-- A step that reads the marks or writes the checkpoint leaves all else. -/
lemma step_observes {cfg : RedoConfig} {event : RedoEvent} {system system' : RedoSystem}
    (hevent : event.observes) (hstep : system.step cfg event = some system') :
    ∃ read plsn, system' = { system with read := read, diskRecoveryPlsn := plsn } := by
  cases event with
  | dispatch | dispatchOp | append | work => cases hevent
  | startRead =>
    obtain ⟨-, hstep⟩ := Option.ite_none_right_eq_some.1 hstep
    cases hstep
    exact ⟨_, _, rfl⟩
  | readRedone =>
    simp only [step, readRedone] at hstep
    split at hstep
    · split_ifs at hstep
      cases hstep
      exact ⟨_, _, rfl⟩
    · cases hstep
  | readDispatched =>
    simp only [step, readDispatched] at hstep
    split at hstep
    · split at hstep
      · cases hstep
        exact ⟨_, _, rfl⟩
      · cases hstep
    · cases hstep
  | endRead | checkpoint =>
    cases hstep
    exact ⟨_, _, rfl⟩

/-- The system is reached by steps that all meet a condition on the step and the state before. -/
inductive Reachable (cfg : RedoConfig) (Ok : RedoSystem → RedoEvent → Prop) : RedoSystem → Prop
  | init : Reachable cfg Ok (init cfg)
  | step {system system' : RedoSystem} {event : RedoEvent} (h : Reachable cfg Ok system)
      (hok : Ok system event) (hstep : system.step cfg event = some system') :
      Reachable cfg Ok system'

/-- A run of the system whose steps pass a check. -/
def run (cfg : RedoConfig) (ok : RedoSystem → RedoEvent → Bool) :
    List RedoEvent → RedoSystem → Option RedoSystem
  | [], system => some system
  | event :: events, system =>
    if ok system event then (system.step cfg event).bind (run cfg ok events) else none

lemma Reachable.run {cfg : RedoConfig} {Ok : RedoSystem → RedoEvent → Prop}
    {ok : RedoSystem → RedoEvent → Bool} (hok : ∀ system event, ok system event → Ok system event)
    {events : List RedoEvent} {system system' : RedoSystem} (h : Reachable cfg Ok system)
    (hrun : run cfg ok events system = some system') : Reachable cfg Ok system' := by
  induction events generalizing system with
  | nil =>
    cases hrun
    exact h
  | cons event events ih =>
    simp only [RedoSystem.run, Option.ite_none_right_eq_some, Option.bind_eq_some_iff] at hrun
    obtain ⟨hcheck, middle, hstep, hrest⟩ := hrun
    exact ih (h.step (hok system event hcheck) hstep) hrest

/-- A record that was handed to a worker has been redone there, or found not to need it. -/
def Done (system : RedoSystem) (workerId : ℕ) (entry : RedoWalRecordEntry) : Prop :=
  entry ∈ (system.worker workerId).base.applied

/-- `GetWorkersRecoveryPlsn`. -/
def getWorkersRecoveryPlsn (cfg : RedoConfig) (system : RedoSystem) : ℕ :=
  let workersMinRecoveryPlsn := (List.range cfg.redoWorkerNum).foldl
    (fun plsn workerId => min plsn (system.worker workerId).base.maxRecoveryPlsn) uint64Max
  if workersMinRecoveryPlsn = uint64Max then 0 else workersMinRecoveryPlsn

end RedoSystem

end DStore
