import DStore.Wal.RedoMarks

/-!
# The redo-finished plsn of all workers

`GetWorkersRedoFinishedPlsn` goes through the workers and takes the least mark of those that are
behind what was handed to them, or the greatest mark if none is. The result covers every record
handed out as long as the pages of each record of many pages go to different workers and nothing is
handed out while the function reads.
-/

namespace DStore

open Function Option RedoFinishedRead

namespace RedoWorker

lemma appendWalRecord_applied (worker : RedoWorker) (entries : List RedoWalRecordEntry) :
    (worker.appendWalRecord entries).base.applied = worker.base.applied := by
  cases worker <;> rfl

end RedoWorker

/-! ## The whole system -/

namespace RedoSystem

/-- What is asked of the steps of a run: the pages of a record of many pages go to different
workers, nothing is handed out during a call of `GetWorkersRedoFinishedPlsn`, which starts between
two entries, and the recovery plsn of a checkpoint has nothing left to redo before it. -/
def WatermarkOk (cfg : RedoConfig) (system : RedoSystem) : RedoEvent → Prop
  | .dispatch entry => system.read = none ∧ cfg.PagesApart entry
  | .dispatchOp => system.read = none
  | .startRead => system.Idle
  | .checkpoint plsn =>
    plsn ≤ system.lastPlsn ∧ (¬ system.Idle → plsn < system.lastPlsn) ∧
      ∀ i, ∀ entry ∈ system.handed i, entry.isRedo → entry.recordEndPlsn ≤ plsn →
        system.Done i entry
  | _ => True

/-- The records handed to a worker up to a plsn are redone. -/
def DoneUpTo (system : RedoSystem) (i plsn : ℕ) : Prop :=
  ∀ entry ∈ system.handed i, entry.isRedo → entry.recordEndPlsn ≤ plsn → system.Done i entry

/-- A call of `GetWorkersRedoFinishedPlsn` has seen nothing that is not redone. -/
structure ReadSound (system : RedoSystem) (read : RedoFinishedRead) : Prop where
  idle : system.Idle
  seen : ∀ i < read.next, system.DoneUpTo i read.workersMinRedonePlsn
  redone : ∀ plsn ∈ read.redone, system.DoneUpTo read.next plsn

/-- What holds along every such run. -/
structure WatermarkInv (cfg : RedoConfig) (system : RedoSystem) : Prop where
  marked : ∀ i, (system.worker i).Marked cfg.recoveryStartPlsn (system.handed i) (system.batchPut i)
  noted : ∀ i, ∀ entry ∈ system.handed i, entry.recordEndPlsn ≤ system.maxDispatchedPlsn i ∨
    system.note = some (i, system.lastPlsn)
  top : ∀ i, topPlsn cfg.recoveryStartPlsn (system.handed i) ≤ system.lastPlsn
  todo : ∀ target ∈ system.todo, target.entry.recordEndPlsn = system.lastPlsn ∧
    (target.entry.isRedo → topPlsn cfg.recoveryStartPlsn (system.handed target.workerId) <
      system.lastPlsn ∧ system.diskRecoveryPlsn < system.lastPlsn)
  apart : (system.todo.map (·.workerId)).Nodup
  note : ∀ i plsn, system.note = some (i, plsn) → plsn = system.lastPlsn
  plsnMax : ¬ system.Idle → system.lastPlsn ≤ uint64Max
  dispatchedMax : ∀ i, system.maxDispatchedPlsn i ≤ uint64Max
  disk : ∀ i, system.DoneUpTo i system.diskRecoveryPlsn
  diskTop : system.diskRecoveryPlsn ≤ system.lastPlsn
  read : ∀ read, system.read = some read → system.ReadSound read

variable {cfg : RedoConfig} {system system' : RedoSystem} {i plsn : ℕ}
  {entry : RedoWalRecordEntry}

/-- The invariant holds at the start. -/
lemma WatermarkInv.init (cfg : RedoConfig) : (init cfg).WatermarkInv cfg := by
  constructor
  · exact fun i => RedoWorker.Marked.init _
  all_goals simp [RedoSystem.init, topPlsn, Idle, DoneUpTo]

/-- What is done stays done. -/
lemma DoneUpTo.of_applied (h : system.DoneUpTo i plsn)
    (hhanded : system'.handed i = system.handed i)
    (happlied : (system.worker i).base.applied ⊆ (system'.worker i).base.applied) :
    system'.DoneUpTo i plsn := by
  intro entry hentry hredo hle
  rw [hhanded] at hentry
  exact happlied (h entry hentry hredo hle)

/-- A sound read stays so while the workers go on. -/
lemma ReadSound.of_applied {read : RedoFinishedRead} (h : system.ReadSound read)
    (hidle : system'.Idle) (hhanded : system'.handed = system.handed)
    (happlied : ∀ i, (system.worker i).base.applied ⊆ (system'.worker i).base.applied) :
    system'.ReadSound read :=
  ⟨hidle, fun i hi => (h.seen i hi).of_applied (congrFun hhanded i) (happlied i),
    fun plsn hplsn => (h.redone plsn hplsn).of_applied (congrFun hhanded _) (happlied _)⟩

section

variable (h : system.WatermarkInv cfg)
include h

/-- The dispatcher takes the next entry of the log. -/
lemma WatermarkInv.dispatch (hidle : system.Idle)
    (hread : system.read = none) (hfollows : cfg.Follows system.lastPlsn entry)
    (hapart : cfg.PagesApart entry) :
    { system with todo := cfg.dispatchEntry entry, lastPlsn := entry.recordEndPlsn }.WatermarkInv
      cfg := by
  obtain ⟨hle, hmax, hlt, -⟩ := hfollows
  constructor
  · exact h.marked
  · intro i a ha
    refine Or.inl ((h.noted i a ha).resolve_right ?_)
    rw [hidle.2]
    simp
  · exact fun i => (h.top i).trans hle
  · intro target htarget
    refine ⟨cfg.dispatchEntry_plsn htarget, fun hredo => ?_⟩
    have hrecord : entry.walRecord ≠ none := by
      intro hnone
      have hsyncer : entry.isRedo = false := by simp [RedoWalRecordEntry.isRedo, hnone]
      rw [cfg.dispatchEntry_eq_of_not_isRedo htarget hsyncer, hsyncer] at hredo
      cases hredo
    exact ⟨(h.top _).trans_lt (hlt hrecord), h.diskTop.trans_lt (hlt hrecord)⟩
  · exact cfg.dispatchEntry_nodup hapart
  · intro i plsn hnote
    cases hidle.2.symm.trans hnote
  · exact fun _ => hmax
  · exact h.dispatchedMax
  · exact h.disk
  · exact h.diskTop.trans hle
  · intro read hsome
    cases hread.symm.trans hsome

/-- Noting the plsn that was dispatched keeps the invariant. -/
lemma WatermarkInv.noteDispatched (hread : system.read = none)
    (hnote : system.note = some (i, plsn)) :
    { system with
      note := none
      maxDispatchedPlsn := update system.maxDispatchedPlsn i plsn }.WatermarkInv cfg := by
  have hplsn := h.note i plsn hnote
  have hbusy : ¬ system.Idle := fun hidle => by cases hidle.2.symm.trans hnote
  constructor
  · exact h.marked
  · intro j a ha
    refine Or.inl ?_
    by_cases hj : j = i
    · subst hj
      simp only [update_self, hplsn]
      exact (le_topPlsn_of_mem ha).trans (h.top j)
    · simp only [update_of_ne hj]
      refine (h.noted j a ha).resolve_right fun hother => hj ?_
      cases hnote.symm.trans hother
      rfl
  · exact h.top
  · exact h.todo
  · exact h.apart
  · rintro _ _ ⟨⟩
  · exact fun _ => h.plsnMax hbusy
  · intro j
    by_cases hj : j = i
    · subst hj
      simpa [hplsn] using h.plsnMax hbusy
    · simpa [update_of_ne hj] using h.dispatchedMax j
  · exact h.disk
  · exact h.diskTop
  · intro read hsome
    cases hread.symm.trans hsome

/-- The workers go on: nothing they applied is lost, and their marks stay sound. -/
lemma WatermarkInv.setWorkers {workers : ℕ → RedoWorker} {batchPut : ℕ → List RedoWalRecordEntry}
    (hmarked : ∀ j, (workers j).Marked cfg.recoveryStartPlsn (system.handed j) (batchPut j))
    (happlied : ∀ j, (system.worker j).base.applied ⊆ (workers j).base.applied) :
    { system with worker := workers, batchPut := batchPut }.WatermarkInv cfg :=
  ⟨hmarked, h.noted, h.top, h.todo, h.apart, h.note, h.plsnMax, h.dispatchedMax,
    fun j => (h.disk j).of_applied rfl (happlied j), h.diskTop, fun read hread =>
      (h.read read hread).of_applied (h.read read hread).idle rfl happlied⟩

/-- So does appending a batch. -/
lemma WatermarkInv.append (i : ℕ) : (system.append i).WatermarkInv cfg := by
  refine h.setWorkers (forall_append h.marked (h.marked i).append) fun j => ?_
  by_cases hj : j = i
  · subst hj
    simp [RedoWorker.appendWalRecord_applied]
  · simp [update_of_ne hj]

/-- An entry is handed to a worker. -/
lemma WatermarkInv.put (hread : system.read = none)
    (hnote : system.note = none) {target : DispatchTarget} {rest : List DispatchTarget}
    (htodo : system.todo = target :: rest) :
    { system.put target.workerId target.entry with
      todo := rest
      note := some (target.workerId, target.entry.recordEndPlsn) }.WatermarkInv cfg := by
  have hbusy : ¬ system.Idle := fun hidle => by cases hidle.1.symm.trans htodo
  obtain ⟨hplsn, hredo⟩ := h.todo target (by simp [htodo])
  have hapart := h.apart
  rw [htodo, List.map_cons, List.nodup_cons] at hapart
  constructor
  · exact forall_put h.marked ((h.marked target.workerId).handOut
      (hplsn ▸ h.top target.workerId) fun hr => hplsn ▸ (hredo hr).1)
  · intro j a ha
    rcases mem_put_handed.1 ha with ha | ⟨rfl, -⟩
    · exact Or.inl ((h.noted j a ha).resolve_right (by simp [hnote]))
    · exact Or.inr (by simp [hplsn, RedoSystem.put])
  · refine forall_put (P := fun handed _ _ => topPlsn _ handed ≤ system.lastPlsn) h.top ?_
    rw [topPlsn_append_singleton]
    exact max_le (h.top _) hplsn.le
  · intro other hother
    have hne : other.workerId ≠ target.workerId := fun heq =>
      hapart.1 (List.mem_map.2 ⟨other, hother, heq⟩)
    dsimp only
    rw [system.put_handed_of_ne hne]
    exact h.todo other (by simp [htodo, hother])
  · exact hapart.2
  · rintro _ _ ⟨⟩
    exact hplsn
  · exact fun _ => h.plsnMax hbusy
  · exact h.dispatchedMax
  · intro j a ha hr hle
    rcases mem_put_handed.1 ha with ha | ⟨-, rfl⟩
    · exact h.disk j a ha hr hle
    · -- the entry lies behind the recovery plsn of the last checkpoint
      rw [hplsn] at hle
      exact absurd hle (not_le.2 (hredo hr).2)
  · exact h.diskTop
  · intro read hsome
    cases hread.symm.trans hsome

/-- So does a step of a worker. -/
lemma WatermarkInv.work {action : WorkerAction} {worker : RedoWorker}
    (hstep : (system.worker i).step cfg action = some worker) :
    { system with worker := update system.worker i worker }.WatermarkInv cfg := by
  refine h.setWorkers (forall_update_worker h.marked ((h.marked i).step hstep)) fun j => ?_
  by_cases hj : j = i
  · subst hj
    obtain ⟨new, hnew, -⟩ := RedoWorker.step_applied hstep []
    simp [hnew]
  · simp [update_of_ne hj]

/-- So does a sound read. -/
lemma WatermarkInv.setRead {read : Option RedoFinishedRead}
    (hread : ∀ new, read = some new → system.ReadSound new) :
    { system with read := read }.WatermarkInv cfg :=
  ⟨h.marked, h.noted, h.top, h.todo, h.apart, h.note, h.plsnMax, h.dispatchedMax, h.disk,
    h.diskTop, fun new hnew => ⟨(hread new hnew).idle, (hread new hnew).seen,
      (hread new hnew).redone⟩⟩

/-- Reading the next worker keeps the read sound. -/
lemma WatermarkInv.readSound_turn {read : RedoFinishedRead}
    (hsound : system.ReadSound read) {redone : ℕ} (hredone : read.redone = some redone) :
    system.ReadSound (read.turn redone (system.maxDispatchedPlsn read.next)) := by
  have hdone := hsound.redone redone hredone
  refine ⟨hsound.idle, fun j hj entry hentry hr hle => ?_, by simp [turn]⟩
  simp only [turn] at hj hle
  rcases Nat.lt_succ_iff_lt_or_eq.1 hj with hlt | rfl
  · refine hsound.seen j hlt entry hentry hr (hle.trans ?_)
    split_ifs
    · exact min_le_left _ _
    · exact le_rfl
  · split_ifs at hle with hbehind
    · exact hdone entry hentry hr (hle.trans (min_le_right _ _))
    · have hnoted := (h.noted _ entry hentry).resolve_right (by simp [hsound.idle.2])
      exact hdone entry hentry hr (hnoted.trans (not_lt.1 hbehind))

/-- Every step that is as asked keeps the invariant. -/
lemma WatermarkInv.step {event : RedoEvent}
    (hok : system.WatermarkOk cfg event) (hstep : system.step cfg event = some system') :
    system'.WatermarkInv cfg := by
  cases event with
  | dispatch entry =>
    simp only [RedoSystem.step, ite_none_right_eq_some, some.injEq] at hstep
    obtain ⟨⟨hidle, hfollows⟩, rfl⟩ := hstep
    exact h.dispatch hidle hok.1 hfollows hok.2
  | dispatchOp =>
    simp only [RedoSystem.step, dispatchOp] at hstep
    split at hstep
    · cases hstep
      exact h.noteDispatched hok (by assumption)
    · split at hstep
      · cases hstep
      · have hput := h.put hok (by assumption) (by assumption)
        split_ifs at hstep <;> cases hstep
        · exact hput.append _
        · exact hput
  | append workerId =>
    simp only [RedoSystem.step, ite_none_right_eq_some, some.injEq] at hstep
    obtain ⟨-, rfl⟩ := hstep
    exact h.append workerId
  | work workerId action =>
    obtain ⟨worker, hworker, rfl⟩ := map_eq_some_iff.1 hstep
    exact h.work hworker
  | startRead =>
    simp only [RedoSystem.step, ite_none_right_eq_some, some.injEq] at hstep
    obtain ⟨-, rfl⟩ := hstep
    refine h.setRead ?_
    rintro _ ⟨⟩
    exact ⟨hok, by simp [start], by simp [start]⟩
  | readRedone =>
    simp only [RedoSystem.step, readRedone] at hstep
    split at hstep
    · rename_i read hread
      split_ifs at hstep
      cases hstep
      refine h.setRead ?_
      rintro _ ⟨⟩
      refine ⟨(h.read read hread).idle, (h.read read hread).seen, ?_⟩
      rintro _ ⟨⟩
      exact fun _ => (h.marked read.next).done
    · cases hstep
  | readDispatched =>
    simp only [RedoSystem.step, readDispatched] at hstep
    split at hstep
    · rename_i read hread
      split at hstep
      · cases hstep
        refine h.setRead ?_
        rintro _ ⟨⟩
        exact h.readSound_turn (h.read read hread) (by assumption)
      · cases hstep
    · cases hstep
  | endRead =>
    cases hstep
    exact h.setRead (by simp)
  | checkpoint plsn =>
    cases hstep
    -- what is still to be handed out lies behind the checkpoint
    obtain ⟨hle, hlt, hdone⟩ := hok
    refine ⟨h.marked, h.noted, h.top, fun target htarget => ?_, h.apart, h.note, h.plsnMax,
      h.dispatchedMax, hdone, hle, fun read hread => ?_⟩
    · obtain ⟨hplsn, hredo⟩ := h.todo target htarget
      refine ⟨hplsn, fun hr => ⟨(hredo hr).1, hlt fun hidle => ?_⟩⟩
      rw [hidle.1] at htarget
      cases htarget
    · exact (h.read read hread).of_applied (h.read read hread).idle rfl
        fun _ => List.Subset.refl _

end

/-- It holds in every reachable state. -/
lemma Reachable.watermarkInv (h : Reachable cfg (WatermarkOk cfg) system) :
    system.WatermarkInv cfg := by
  induction h with
  | init => exact WatermarkInv.init cfg
  | step _ hok hstep ih => exact ih.step hok hstep

/-- In every run as asked, when `GetWorkersRedoFinishedPlsn` returns, every record handed to a
worker that ends at or before the result has been redone there or found not to need it. -/
theorem Reachable.getWorkersRedoFinishedPlsn_sound
    (h : Reachable cfg (WatermarkOk cfg) system) {read : RedoFinishedRead}
    (hread : system.read = some read) (hend : read.next = cfg.redoWorkerNum)
    (hi : i < cfg.redoWorkerNum) (hentry : entry ∈ system.handed i) (hredo : entry.isRedo)
    (hle : entry.recordEndPlsn ≤ read.result cfg system.diskRecoveryPlsn) :
    system.Done i entry := by
  have hinv := h.watermarkInv
  have hsound := hinv.read read hread
  have hseen := hsound.seen i (hend ▸ hi) entry hentry hredo
  have hnoted := (hinv.noted i entry hentry).resolve_right (by simp [hsound.idle.2])
  have hmax := hnoted.trans (hinv.dispatchedMax i)
  by_cases hmin : read.workersMinRedonePlsn = uint64Max
  · -- no worker was behind when it was read
    exact hseen (hmin ▸ hmax)
  · simp only [result, ne_eq, hmin, not_false_eq_true, if_true] at hle
    split_ifs at hle with hzero hstandby
    · rcases le_max_iff.1 hle with hle | hle
      · exact hseen hle
      · exact hinv.disk i entry hentry hredo hle
    · exact hseen hle
    · exact hseen hle

/-- A check of the steps of a run without records of many pages and checkpoints. -/
def watermarkCheck (system : RedoSystem) : RedoEvent → Bool
  | .dispatch entry =>
    system.read.isNone && !entry.walRecord.any (·.type.isWalRecordWithMultiPagesInfo)
  | .dispatchOp => system.read.isNone
  | .startRead => system.Idle
  | .checkpoint _ => false
  | _ => true

lemma watermarkOk_of_check {event : RedoEvent} (hcheck : system.watermarkCheck event) :
    system.WatermarkOk cfg event := by
  cases event with
  | dispatch entry =>
    simp only [watermarkCheck, Bool.and_eq_true, isNone_iff_eq_none,
      Bool.not_eq_true'] at hcheck
    refine ⟨hcheck.1, fun record hrecord hmulti => ?_⟩
    have hnot := hcheck.2
    rw [hrecord] at hnot
    exact absurd hmulti (by simpa using hnot)
  | dispatchOp => simpa [watermarkCheck, WatermarkOk] using hcheck
  | startRead => simpa [watermarkCheck, WatermarkOk] using hcheck
  | checkpoint plsn => cases hcheck
  | _ => trivial

/-- Two workers, one of them for all pages. -/
def twoWorkers : RedoConfig := ⟨2, 16384, 0, false, false, fun _ => 0⟩

/-- The steps of a whole call of `GetWorkersRedoFinishedPlsn` with two workers. -/
def readTwoWorkers : List RedoEvent :=
  [.startRead, .readRedone, .readDispatched, .readRedone, .readDispatched]

/-- A page record is handed out and redone before the call. -/
def onePageRun : List RedoEvent :=
  [.dispatch ⟨10, some ⟨.heapInsert, 60, ⟨1, 5⟩, 0, 1, 0⟩⟩, .dispatchOp, .dispatchOp, .append 1,
    .work 1 (.getN 1), .work 1 .take, .work 1 .finish, .work 1 .take, .work 1 .redo,
    .work 1 .finish] ++ readTwoWorkers

/-- The redone record of one page is covered by the result. -/
theorem getWorkersRedoFinishedPlsn_sound_one_page :
    ∃ system read, run twoWorkers watermarkCheck onePageRun (init twoWorkers) = some system ∧
      system.read = some read ∧ read.result twoWorkers system.diskRecoveryPlsn = 10 ∧
      system.handed 1 = [⟨10, some ⟨.heapInsert, 60, ⟨1, 5⟩, 0, 1, 0⟩⟩] ∧
      system.Done 1 ⟨10, some ⟨.heapInsert, 60, ⟨1, 5⟩, 0, 1, 0⟩⟩ := by
  have hcheck : (run twoWorkers watermarkCheck onePageRun (init twoWorkers)).any (fun system =>
      system.read = some ⟨2, none, uint64Max, 10⟩ ∧
      system.handed 1 = [⟨10, some ⟨.heapInsert, 60, ⟨1, 5⟩, 0, 1, 0⟩⟩]) := by
    decide +kernel
  obtain ⟨system, hrun, hsystem⟩ := (Option.any_eq_true _ _).1 hcheck
  obtain ⟨hread, hhanded⟩ := of_decide_eq_true hsystem
  have hreach : Reachable twoWorkers (WatermarkOk twoWorkers) system :=
    Reachable.init.run (fun _ _ => watermarkOk_of_check) hrun
  refine ⟨system, _, hrun, hread, rfl, hhanded, ?_⟩
  exact hreach.getWorkersRedoFinishedPlsn_sound hread rfl (by decide)
    (hhanded ▸ List.mem_singleton_self _) rfl (le_refl 10)

/-- A record of two pages of one worker is handed out, and the call comes after the first page. -/
def twoPagesRun : List RedoEvent :=
  [.dispatch ⟨10, some ⟨.tbsInitMultipleDataPages, 60, ⟨1, 5⟩, 0, 2, 0⟩⟩, .dispatchOp,
    .dispatchOp, .dispatchOp, .dispatchOp, .append 1, .work 1 (.getN 2), .work 1 .take,
    .work 1 .finish, .work 1 .take, .work 1 .redo, .work 1 .finish] ++ readTwoWorkers

/-- The entry for the second page of the record. -/
def secondPage : RedoWalRecordEntry :=
  ⟨10, some (splitRecord ⟨.tbsInitMultipleDataPages, 60, ⟨1, 5⟩, 0, 2, 0⟩ 1)⟩

/-- The result is the end of the record although its second page is not redone. -/
theorem getWorkersRedoFinishedPlsn_second_page_not_done :
    ∃ system read, Reachable twoWorkers (fun _ _ => True) system ∧ system.read = some read ∧
      read.next = 2 ∧ read.result twoWorkers system.diskRecoveryPlsn = 10 ∧
      secondPage ∈ system.handed 1 ∧ secondPage.isRedo ∧ secondPage.recordEndPlsn = 10 ∧
      ¬ system.Done 1 secondPage := by
  have hcheck : (run twoWorkers (fun _ _ => true) twoPagesRun (init twoWorkers)).any
      (fun system => system.read = some ⟨2, none, uint64Max, 10⟩ ∧
        secondPage ∈ system.handed 1 ∧ secondPage ∉ (system.worker 1).base.applied) := by
    decide +kernel
  obtain ⟨system, hrun, hsystem⟩ := (Option.any_eq_true _ _).1 hcheck
  obtain ⟨hread, hhanded, hdone⟩ := of_decide_eq_true hsystem
  have hreach : Reachable twoWorkers (fun _ _ => True) system :=
    Reachable.init.run (fun _ _ _ => trivial) hrun
  exact ⟨system, _, hreach, hread, rfl, rfl, hhanded, rfl, rfl, hdone⟩

end RedoSystem

end DStore
