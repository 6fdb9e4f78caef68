import DStore.Wal.RedoLanes

/-!
# Parallel redo refines serial redo

While the dispatcher and the workers run, each record that a worker redoes changes the data. The
workers keep the order of every lane, and all entries of a lane go to one worker, so the records are
redone in an order that follows the log in each lane. Such an order ends in the same data as serial
redo, and it is never blocked before the end.
-/

namespace DStore

open LaneOrder List Function Option

/-! ## Workers of both kinds -/

namespace RedoWorker

variable {cfg : RedoConfig} {action : WorkerAction} {worker worker' : RedoWorker} {l : RedoLane}
  {handed put : List RedoWalRecordEntry} {entry : RedoWalRecordEntry}

/-- The worker is at the top of `WorkerMain` and has nothing left to redo. -/
def Finished : RedoWorker → Prop
  | .page worker => worker.mode = .main ∧ worker.redoQueue = []
  | .ddl worker => worker.mode = .main ∧ worker.redoQueue = [] ∧
      ∀ tbsId ≤ maxTablespaceId, worker.waitingIn tbsId = []

instance decidableFinished (worker : RedoWorker) : Decidable worker.Finished :=
  match worker with
  | .page worker => inferInstanceAs (Decidable (worker.mode = .main ∧ worker.redoQueue = []))
  | .ddl worker => inferInstanceAs (Decidable (worker.mode = .main ∧ worker.redoQueue = [] ∧
      ∀ tbsId ≤ maxTablespaceId, worker.waitingIn tbsId = []))

/-- A worker that has finished has redone all of each lane in order. -/
lemma Ordered.finished (h : worker.Ordered handed []) (hfinished : worker.Finished)
    (l : RedoLane) : laneOf l handed = inLane (·.lane) l worker.base.applied := by
  have hrest : (worker.line []).taken (worker.slot l) = [] ∧ (worker.line []).unread = [] := by
    cases worker with
    | page worker =>
      obtain ⟨hfetched, hbatch⟩ := h.turn.1 hfinished.1
      simp [WorkerLine.taken, WorkerLine.waitingIn, slot, RedoWorker.line,
        ParallelPageRedoWorker.line, hbatch, hfetched, hfinished.2]
    | ddl worker =>
      obtain ⟨hmode, hqueue, hlists⟩ := hfinished
      have hfetched : worker.fetched = [] := h.turn (by rw [hmode]; rfl)
      refine ⟨?_, by simp [RedoWorker.line, ParallelDDLRedoWorker.line, hfetched, hqueue]⟩
      have hheld : ((ddl worker).line []).held = none :=
        congrArg DDLRedoMode.held hmode
      rw [WorkerLine.taken, hheld]
      cases l with
      | tablespace tbsId =>
        simp only [slot, ddlSlot]
        split_ifs with htbs
        · exact (append_nil _).trans (hlists tbsId htbs)
        · rfl
      | page _ | relmap => rfl
  rw [h.line.order l, hrest.1, hrest.2, line_applied]
  exact append_nil _

end RedoWorker

open RedoWorker

/-! ## The worker of a lane -/

/-- The worker that gets the entries of a lane. -/
def RedoConfig.laneOwner (cfg : RedoConfig) : RedoLane → ℕ
  | .page pageId => cfg.getDispatchPageRedoWorkerId pageId
  | .tablespace _ | .relmap => getDispatchDDLRedoWorkerId

/-- All entries of a lane go to one worker. -/
lemma RedoConfig.dispatchEntry_laneOwner (cfg : RedoConfig) {entry : RedoWalRecordEntry}
    {target : DispatchTarget} (htarget : target ∈ cfg.dispatchEntry entry)
    (hredo : target.entry.isRedo) : cfg.laneOwner target.entry.lane = target.workerId := by
  rcases cfg.dispatchEntry_spec htarget with ⟨heq, howner⟩ | ⟨-, record, i, heq, howner⟩
  · rw [heq] at hredo ⊢
    obtain ⟨record, hrecord, hbarrier⟩ := (Option.any_eq_true _ _).1 hredo
    rw [RedoEnv.lane_of_record hrecord, howner record hrecord (of_decide_eq_true hbarrier),
      RedoWalRecord.lane]
    by_cases hrelmap : record.type = .systableWriteBuiltinRelmap
    · rw [if_pos hrelmap, hrelmap]
      rfl
    · rw [if_neg hrelmap]
      split_ifs <;> rfl
  · have hlane : (splitRecord record i).lane = .page (splitRecord record i).pageId := by
      simp only [RedoWalRecord.lane, splitRecord, splitTypeAndSize]
      split <;> rfl
    rw [heq, howner]
    exact congrArg cfg.laneOwner hlane

lemma RedoConfig.laneOwner_lt {cfg : RedoConfig} (h : 1 < cfg.redoWorkerNum) (l : RedoLane) :
    cfg.laneOwner l < cfg.redoWorkerNum := by
  have hpos : 0 < cfg.redoWorkerNum - ddlRedoWorkerNum := Nat.sub_pos_of_lt h
  cases l with
  | page pageId =>
    have hmod := Nat.mod_lt (cfg.tagHash pageId) hpos
    simp only [laneOwner, getDispatchPageRedoWorkerId]
    omega
  | tablespace tbsId => exact Nat.zero_lt_of_lt h
  | relmap => exact Nat.zero_lt_of_lt h

/-! ## The whole system -/

/-- The entry of the log that the dispatcher takes in a step. -/
def RedoEvent.taken : RedoEvent → List RedoWalRecordEntry
  | .dispatch entry => [entry]
  | _ => []

namespace RedoSystem

/-- The entries that a step redoes. -/
def redone (system : RedoSystem) (event : RedoEvent) (system' : RedoSystem) :
    List RedoWalRecordEntry :=
  match event with
  | .work i _ => (system'.worker i).base.applied.drop (system.worker i).base.applied.length
  | _ => []

/-- The dispatcher has nothing left to hand out, and the workers have redone everything. -/
def Finished (cfg : RedoConfig) (system : RedoSystem) : Prop :=
  system.Idle ∧ ∀ i < cfg.redoWorkerNum, system.batchPut i = [] ∧ (system.worker i).Finished

instance decidableSystemFinished (cfg : RedoConfig) (system : RedoSystem) :
    Decidable (system.Finished cfg) :=
  inferInstanceAs (Decidable (_ ∧ ∀ i < cfg.redoWorkerNum, _))

variable {Body Relmap : Type}

/-- A run of the system together with the data that the workers change: what a step redoes is
applied to the data, and a record that has to wait cannot be redone. `log` has the entries taken
from the log, `order` the entries redone. -/
inductive Redoes (cfg : RedoConfig) (env : RedoEnv Body Relmap) (start : RedoData Body Relmap) :
    RedoSystem → List RedoWalRecordEntry → List RedoWalRecordEntry → RedoData Body Relmap → Prop
  | init : Redoes cfg env start (init cfg) [] [] start
  | step {system system' : RedoSystem} {log order : List RedoWalRecordEntry}
      {data data' : RedoData Body Relmap} {event : RedoEvent}
      (h : Redoes cfg env start system log order data)
      (hstep : system.step cfg event = some system')
      (hredo : (system.redone event system').foldlM env.redoEntry data = some data') :
      Redoes cfg env start system' (log ++ event.taken) (order ++ system.redone event system') data'

/-- What holds along every run. -/
structure LaneInv (cfg : RedoConfig) (system : RedoSystem)
    (log order : List RedoWalRecordEntry) : Prop where
  ordered : ∀ i, (system.worker i).Ordered (system.handed i) (system.batchPut i)
  kind : ∀ i worker, system.worker i = .ddl worker → i < ddlRedoWorkerNum
  owner : ∀ i, ∀ entry ∈ system.handed i, entry.isRedo → cfg.laneOwner entry.lane = i
  todo : ∀ target ∈ system.todo, target.entry.isRedo →
    cfg.laneOwner target.entry.lane = target.workerId
  log : ∀ l, inLane (·.lane) l (redoEntries log) =
    laneOf l (system.handed (cfg.laneOwner l)) ++ laneOf l (system.todo.map (·.entry))
  order : ∀ l, inLane (·.lane) l order =
    inLane (·.lane) l (system.worker (cfg.laneOwner l)).base.applied

variable {cfg : RedoConfig} {system system' : RedoSystem} {log order : List RedoWalRecordEntry}
  {entry : RedoWalRecordEntry} {i : ℕ}

/-- The invariant holds at the start. -/
lemma LaneInv.init (cfg : RedoConfig) : (init cfg).LaneInv cfg [] [] := by
  constructor
  · exact fun i => Ordered.init _
  · intro i worker hworker
    by_contra hi
    simp [RedoSystem.init, hi] at hworker
  · rintro _ _ ⟨⟩
  · rintro _ ⟨⟩
  · exact fun _ => rfl
  · intro l
    simp only [RedoSystem.init]
    split <;> rfl

/-- Taking a record from the log keeps it. -/
lemma LaneInv.dispatch (h : system.LaneInv cfg log order) (hidle : system.Idle) (plsn : ℕ) :
    { system with todo := cfg.dispatchEntry entry, lastPlsn := plsn }.LaneInv cfg (log ++ [entry])
      order := by
  refine ⟨h.ordered, h.kind, h.owner, fun target htarget => ?_, fun l => ?_, h.order⟩
  · exact cfg.dispatchEntry_laneOwner htarget
  · have hlog := h.log l
    rw [hidle.1] at hlog
    rw [redoEntries, flatMap_append, inLane_append]
    change inLane _ l (redoEntries log) ++ _ = _
    rw [hlog, flatMap_singleton, ← cfg.dispatchEntry_redoEntries, map_nil]
    exact congrArg (· ++ _) (append_nil _)

/-- It does not depend on the marks. -/
lemma LaneInv.of_eq (h : system.LaneInv cfg log order) (hworker : system'.worker = system.worker)
    (hput : system'.batchPut = system.batchPut) (hhanded : system'.handed = system.handed)
    (htodo : system'.todo = system.todo) : system'.LaneInv cfg log order := by
  refine ⟨?_, ?_, ?_, ?_, ?_, ?_⟩
  · rw [hworker, hput, hhanded]
    exact h.ordered
  · rw [hworker]
    exact h.kind
  · rw [hhanded]
    exact h.owner
  · rw [htodo]
    exact h.todo
  · rw [hhanded, htodo]
    exact h.log
  · rw [hworker]
    exact h.order

/-- Appending a batch keeps it. -/
lemma LaneInv.append (h : system.LaneInv cfg log order) (i : ℕ) :
    (system.append i).LaneInv cfg log order := by
  refine ⟨forall_append h.ordered (h.ordered i).append, fun j worker hworker => ?_, h.owner, h.todo,
    h.log, fun l => ?_⟩
  · by_cases hj : j = i
    · subst hj
      cases hold : system.worker j with
      | page old => simp [RedoSystem.append, hold, appendWalRecord] at hworker
      | ddl old => exact h.kind j old hold
    · exact h.kind j worker (by simpa [RedoSystem.append, update_of_ne hj] using hworker)
  · rw [h.order]
    by_cases hj : cfg.laneOwner l = i
    · simp [RedoSystem.append, hj, appendWalRecord_applied]
    · simp [RedoSystem.append, update_of_ne hj]

lemma laneOf_singleton {l : RedoLane} :
    laneOf l [entry] = if entry.isRedo ∧ entry.lane = l then [entry] else [] := by
  cases hredo : entry.isRedo with
  | false =>
    rw [laneOf_cons_of_not_isRedo hredo]
    rfl
  | true =>
    rw [laneOf_cons hredo]
    split_ifs with hlane
    · exact (append_nil _).trans (inLane_singleton hlane.2)
    · rw [inLane_singleton_of_ne fun heq => hlane ⟨rfl, heq⟩]
      rfl

section

variable (h : system.LaneInv cfg log order)
include h

/-- An entry is handed to a worker. -/
lemma LaneInv.put {target : DispatchTarget}
    {rest : List DispatchTarget} (htodo : system.todo = target :: rest) (note : Option (ℕ × ℕ)) :
    { system.put target.workerId target.entry with todo := rest, note := note }.LaneInv cfg log
      order := by
  have howner := h.todo target (by rw [htodo]; exact mem_cons_self)
  have htakes : (system.worker target.workerId).Takes target.entry := by
    cases hworker : system.worker target.workerId with
    | page worker => trivial
    | ddl worker =>
      intro hredo pageId hlane
      have hlt := h.kind _ worker hworker
      have hle : ddlRedoWorkerNum ≤ cfg.laneOwner (.page pageId) := Nat.le_add_left _ _
      rw [← hlane, howner hredo] at hle
      exact absurd hle (not_le.2 hlt)
  refine ⟨forall_put h.ordered ((h.ordered target.workerId).handOut htakes), h.kind,
    fun j entry hentry hredo => ?_, fun other hother => ?_, fun l => ?_, h.order⟩
  · rcases mem_put_handed.1 hentry with hentry | ⟨rfl, rfl⟩
    · exact h.owner j entry hentry hredo
    · exact howner hredo
  · exact h.todo other (by rw [htodo]; exact mem_cons_of_mem _ hother)
  · rw [h.log l, htodo, map_cons, ← singleton_append, laneOf_append, ← append_assoc]
    congr 1
    by_cases hj : cfg.laneOwner l = target.workerId
    · simp only [RedoSystem.put, hj, update_self, laneOf_append]
    · -- an entry for another worker is of another lane
      have hother : ¬(target.entry.isRedo ∧ target.entry.lane = l) := fun hlane =>
        hj (hlane.2 ▸ howner hlane.1)
      simp only [RedoSystem.put, update_of_ne hj, laneOf_singleton, if_neg hother,
        append_nil]

/-- A worker makes a step. -/
lemma LaneInv.work {action : WorkerAction} {worker : RedoWorker} {new : List RedoWalRecordEntry}
    (hstep : (system.worker i).step cfg action = some worker)
    (happlied : worker.base.applied = (system.worker i).base.applied ++ new)
    (hnew : ∀ entry ∈ new, entry ∈ system.handed i ∧ entry.isRedo) :
    { system with worker := update system.worker i worker }.LaneInv cfg log (order ++ new) := by
  refine ⟨forall_update_worker h.ordered ((h.ordered i).step hstep), fun j old hworker => ?_,
    h.owner, h.todo, h.log, fun l => ?_⟩
  · by_cases hj : j = i
    · subst hj
      simp only [update_self] at hworker
      rcases step_cases hstep with ⟨_, _, -, rfl, -⟩ | ⟨before, _, hbefore, -, -⟩
      · cases hworker
      · exact h.kind j before hbefore
    · exact h.kind j old (by simpa [update_of_ne hj] using hworker)
  · rw [inLane_append, h.order l]
    by_cases hj : cfg.laneOwner l = i
    · simp only [hj, update_self, happlied, inLane_append]
    · -- what another worker redoes is of another lane
      have hnil : inLane (·.lane) l new = [] := inLane_eq_nil fun entry hentry hlane => by
        obtain ⟨hhanded, hredo⟩ := hnew entry hentry
        exact hj (hlane ▸ h.owner i entry hhanded hredo)
      simp only [hnil, append_nil, update_of_ne hj]

/-- Handing out a record keeps it. -/
lemma LaneInv.dispatchOp
    (hstep : system.dispatchOp = some system') : system'.LaneInv cfg log order := by
  unfold RedoSystem.dispatchOp at hstep
  split at hstep
  · cases hstep
    exact h.of_eq rfl rfl rfl rfl
  · split at hstep
    · cases hstep
    · rename_i target rest htodo
      dsimp only at hstep
      have hput := h.put htodo (some (target.workerId, target.entry.recordEndPlsn))
      split_ifs at hstep <;> cases hstep
      · exact hput.append _
      · exact hput

/-- Every step keeps it. -/
lemma LaneInv.step {event : RedoEvent} (hstep : system.step cfg event = some system') :
    system'.LaneInv cfg (log ++ event.taken) (order ++ system.redone event system') := by
  cases event with
  | dispatch entry =>
    simp only [RedoSystem.step, ite_none_right_eq_some, some.injEq] at hstep
    obtain ⟨⟨hidle, -⟩, rfl⟩ := hstep
    exact (append_nil order).symm ▸ h.dispatch hidle _
  | work i action =>
    obtain ⟨worker, hworker, rfl⟩ := map_eq_some_iff.1 hstep
    obtain ⟨new, happlied, hnew⟩ := (h.ordered i).redone hworker
    have hredone : system.redone (.work i action)
        { system with worker := update system.worker i worker } = new := by
      simp only [redone, update_self, happlied, drop_left]
    rw [hredone]
    exact (append_nil log).symm ▸ h.work hworker happlied hnew
  | dispatchOp =>
    simp only [RedoEvent.taken, redone, append_nil]
    exact h.dispatchOp hstep
  | append i =>
    simp only [RedoSystem.step, ite_none_right_eq_some, some.injEq] at hstep
    obtain ⟨-, rfl⟩ := hstep
    simp only [RedoEvent.taken, redone, append_nil]
    exact h.append i
  | startRead | readRedone | readDispatched | endRead | checkpoint plsn =>
    obtain ⟨_, _, rfl⟩ := step_observes rfl hstep
    simp only [RedoEvent.taken, redone, append_nil]
    exact h.of_eq rfl rfl rfl rfl

end

variable {env : RedoEnv Body Relmap} {start data final : RedoData Body Relmap}

/-- It holds along every run. -/
lemma Redoes.laneInv (h : Redoes cfg env start system log order data) :
    system.LaneInv cfg log order := by
  induction h with
  | init => exact .init cfg
  | step _ hstep _ ih => exact ih.step hstep

/-- The data are those after redo in the order of the run. -/
lemma Redoes.foldlM (h : Redoes cfg env start system log order data) :
    order.foldlM env.redoEntry start = some data := by
  induction h with
  | init => rfl
  | step _ _ hredo ih =>
    rw [foldlM_append, ih]
    exact hredo

/-- That order agrees with the log in each lane. -/
lemma LaneInv.follows (h : system.LaneInv cfg log order) :
    Follows (·.lane) order (redoEntries log) := by
  intro l
  rw [h.order, h.log, (h.ordered _).line.order, line_applied, append_assoc]
  exact prefix_append _ _

/-- At the end each lane is done. -/
lemma LaneInv.finished (h : system.LaneInv cfg log order) (hworkers : 1 < cfg.redoWorkerNum)
    (hfinished : system.Finished cfg) (l : RedoLane) :
    inLane (·.lane) l order = inLane (·.lane) l (redoEntries log) := by
  obtain ⟨hput, hworker⟩ := hfinished.2 _ (RedoConfig.laneOwner_lt hworkers l)
  have hordered := h.ordered (cfg.laneOwner l)
  rw [hput] at hordered
  rw [h.order, h.log, hordered.finished hworker, hfinished.1.1]
  exact (append_nil _).symm

lemma walRecord_ne_none_of_mem (hentry : entry ∈ redoEntries log) : entry.walRecord ≠ none := by
  obtain ⟨other, -, hmem⟩ := mem_flatMap.1 hentry
  unfold RedoWalRecordEntry.redoEntries at hmem
  split at hmem
  · cases hmem
  · rename_i record hrecord
    split_ifs at hmem
    · cases hmem
    · obtain ⟨i, -, rfl⟩ := mem_map.1 hmem
      exact nofun
    · rw [mem_singleton.1 hmem, hrecord]
      exact nofun

/-- Parallel redo of a log that serial redo can redo: at the end the data are the same, before the
end some record that is next in its lane is not blocked, and serial redo reads no page for a record
of which no page worker gets anything. -/
theorem Redoes.refines {reads : List (RedoWalRecordEntry × List PageId)}
    (hworkers : 1 < cfg.redoWorkerNum) (hlog : env.WrittenLog log)
    (hserial : env.SerialRun cfg.standby start log reads final)
    (hrun : Redoes cfg env start system log order data) :
    (system.Finished cfg → data = final) ∧
    ((∃ l, inLane (·.lane) l order ≠ inLane (·.lane) l (redoEntries log)) →
      ∃ entry ∈ redoEntries log, Follows (·.lane) (order ++ [entry]) (redoEntries log) ∧
        (env.redoEntry data entry).isSome) ∧
    ∀ read ∈ reads, RedoEnv.WithoutPage read.1 → read.2 = [] := by
  have hinv := hrun.laneInv
  have hfold := hserial.redoEntries hlog.split
  obtain ⟨epoch, hepoch⟩ := hlog.versions
  have hdiamond := RedoEnv.pairwise_diamond (fun _ => walRecord_ne_none_of_mem) hepoch
  refine ⟨fun hfinished => ?_, fun hleft => ?_, ?_⟩
  · exact foldlM_eq hdiamond (hinv.finished hworkers hfinished) hfold hrun.foldlM
  · exact exists_ready hdiamond hinv.follows hfold hrun.foldlM hleft
  · exact hserial.withoutPage

/-- A run of the system with the data, along given steps. -/
def redoRun (cfg : RedoConfig) (env : RedoEnv Body Relmap) :
    List RedoEvent → RedoSystem → RedoData Body Relmap → Option (RedoSystem × RedoData Body Relmap)
  | [], system, data => some (system, data)
  | event :: events, system, data => do
    let system' ← system.step cfg event
    let data' ← (system.redone event system').foldlM env.redoEntry data
    redoRun cfg env events system' data'

lemma Redoes.run {data' : RedoData Body Relmap} {events : List RedoEvent}
    (h : Redoes cfg env start system log order data)
    (hrun : redoRun cfg env events system data = some (system', data')) :
    ∃ order', Redoes cfg env start system' (log ++ events.flatMap (·.taken)) order' data' := by
  induction events generalizing system log order data with
  | nil =>
    cases hrun
    exact ⟨order, (append_nil log).symm ▸ h⟩
  | cons event events ih =>
    simp only [redoRun, bind_eq_bind, bind_eq_some_iff] at hrun
    obtain ⟨middle, hstep, data1, hredo, hrest⟩ := hrun
    rw [flatMap_cons, ← append_assoc]
    exact ih (h.step hstep hredo) hrest

/-- A primary with two workers. -/
def primaryTwoWorkers : RedoConfig := ⟨2, 16384, 0, false, false, fun _ => 0⟩

/-- A stream whose records are all for file 7 of tablespace 3; a page counts its records. -/
def countEnv : RedoEnv ℕ Unit where
  walId := 1
  recordBody _ := ⟨⟨1, 0, 0⟩, 7, 0, 0, .invalidPageType, ⟨⟨0, 0⟩, 0⟩, ⟨0, 0⟩, fun _ => ⟨1, 0, 0⟩,
    7, 0, 0, 0, 0, 0, 0, 0⟩
  zeroPage := ⟨⟨1, 0, 0⟩, 0⟩
  initDataPage _ _ _ body := body
  initBitmapPage _ _ body := body
  redoPageRecord entry page := ⟨⟨1, entry.recordEndPlsn, 0⟩, page.body + 1⟩
  redoSystableRecord _ relmap := relmap

/-- No file is there. -/
def noFiles : RedoData ℕ Unit :=
  ⟨fun _ => ⟨⟨false, 0, 0, 0, 0, 0⟩, none, fun _ => ⟨⟨1, 0, 0⟩, 0⟩⟩,
    fun _ => ⟨false, 0, 0, 0, 0, fun _ => 0⟩,
    ()⟩

/-- A file is created and a page of it changed. -/
def createFileLog : List RedoWalRecordEntry :=
  [⟨100, some ⟨.tbsCreateDataFile, 30, ⟨0, 0⟩, 0, 0, 3⟩⟩,
    ⟨200, some ⟨.heapInsert, 60, ⟨7, 5⟩, 1, 0, 0⟩⟩]

/-- Both records are handed out; the DDL worker redoes the first, then the page worker the second.
-/
def createFileRun : List RedoEvent :=
  createFileLog.flatMap (fun entry => [.dispatch entry, .dispatchOp, .dispatchOp]) ++
    [.append 1, .work 0 (.getN 1), .work 0 .take, .work 0 .add, .work 0 .take, .work 0 .redo,
      .work 0 .finish, .work 1 (.getN 1), .work 1 .take, .work 1 .finish, .work 1 .take,
      .work 1 .redo, .work 1 .finish]

lemma countEnv_writtenLog : countEnv.WrittenLog createFileLog := by
  refine ⟨⟨fun _ => ⟨0, false⟩, by decide +kernel⟩, ?_⟩
  have hsingle : ∀ entry ∈ createFileLog, ∀ record ∈ entry.walRecord,
      record.type.isWalRecordWithMultiPagesInfo = false := by
    decide
  intro entry hentry record hrecord hmulti
  rw [hsingle entry hentry record hrecord] at hmulti
  cases hmulti

/-- The serial run writes the page once. -/
lemma countEnv_serialRun : ∃ reads final,
    countEnv.SerialRun false noFiles createFileLog reads final ∧
      ((final.file 7).page 5).body = 1 := by
  refine ⟨_, _, .cons ⟨?_, ?_⟩ rfl (.cons ⟨?_, ?_⟩ rfl (.nil _)), rfl⟩
  all_goals
    rintro record ⟨⟩ htype
    cases htype

/-- The page worker redoes the change after the DDL worker has created the file. -/
theorem redoes_refines_createFile : ∃ system order data reads final,
    Redoes primaryTwoWorkers countEnv noFiles system createFileLog order data ∧
      countEnv.SerialRun false noFiles createFileLog reads final ∧
      system.Finished primaryTwoWorkers ∧ data = final ∧
      ((final.file 7).page 5).body = 1 := by
  have hcheck : (redoRun primaryTwoWorkers countEnv createFileRun (init primaryTwoWorkers)
      noFiles).any (fun result => result.1.Finished primaryTwoWorkers) := by
    decide +kernel
  obtain ⟨⟨system, data⟩, hrun, hfinished⟩ := (Option.any_eq_true _ _).1 hcheck
  obtain ⟨order, hredoes⟩ := Redoes.init.run hrun
  obtain ⟨reads, final, hserial, hbody⟩ := countEnv_serialRun
  have hsame := (Redoes.refines (by decide) countEnv_writtenLog hserial hredoes).1
    (of_decide_eq_true hfinished)
  exact ⟨system, order, data, reads, final, hredoes, hserial, of_decide_eq_true hfinished, hsame,
    hbody⟩

/-- A barrier whose bytes, read as those of a page record, are of page 5 of file 7. -/
def barrierOfPage (filePreVersion : UInt64) : RedoWalRecordEntry :=
  ⟨200, some ⟨.barrierCsn, 100, ⟨7, 5⟩, filePreVersion, 0, 0⟩⟩

/-- File 7 was created. -/
def oneFile : RedoData ℕ Unit :=
  { noFiles with
    file := fun _ => ⟨⟨true, 0, 0, 0, 0, 3⟩, some 16384, fun _ => ⟨⟨1, 0, 0⟩, 0⟩⟩ }

/-- On a primary a barrier goes to no worker and parallel redo is done with it at once. Serial redo
reads a page for it, or waits for a file version that never comes. -/
theorem redoSingle_barrier_reads_page :
    primaryTwoWorkers.dispatchEntry (barrierOfPage 0) = [] ∧
    RedoEnv.WithoutPage (barrierOfPage 0) ∧
    (∃ data, countEnv.redoSingle false oneFile (barrierOfPage 0) = some (data, [⟨7, 5⟩])) ∧
    (∃ system, Redoes primaryTwoWorkers countEnv oneFile system [barrierOfPage 9] [] oneFile ∧
      system.Finished primaryTwoWorkers) ∧
    countEnv.redoSingle false oneFile (barrierOfPage 9) = none := by
  refine ⟨by decide, nofun, ⟨oneFile, rfl⟩, ?_, rfl⟩
  have hstep : (init primaryTwoWorkers).step primaryTwoWorkers (.dispatch (barrierOfPage 9)) =
      some { init primaryTwoWorkers with lastPlsn := 200 } := rfl
  exact ⟨_, Redoes.init.step hstep rfl, by decide +kernel⟩

end RedoSystem

end DStore
