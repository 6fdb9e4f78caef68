import DStore.Wal.RedoSystem

/-!
# The entries a redo worker has

Seen from outside, a worker has entries it has not looked at, an entry it holds, entries that wait
in lists, and entries it has redone. The batch of a page worker is a waiting list like those of the
DDL worker, so that both kinds of workers move entries along one line. No entry is lost on the way.
-/

namespace DStore

open DDLRedoMode List Function

/-- The entries of a worker: those in its waiting lists, the one it holds, those it has not looked
at and those it has redone. -/
structure WorkerLine where
  lists : ℕ → Option WalBatchRecoveryPara
  held : Option RedoWalRecordEntry
  unread : List RedoWalRecordEntry
  applied : List RedoWalRecordEntry

namespace WorkerLine

/-- The entries that wait in the list of a tablespace. -/
def waitingIn (line : WorkerLine) (tbsId : ℕ) : List RedoWalRecordEntry :=
  (line.lists tbsId).elim [] (·.recordEntry)

/-- The worker has taken the entry and not redone it. -/
def Waiting (line : WorkerLine) (entry : RedoWalRecordEntry) : Prop :=
  (∃ tbsId, entry ∈ line.waitingIn tbsId) ∨ line.held = some entry

/-- What the worker reaches after its waiting lists. -/
def later (line : WorkerLine) : List RedoWalRecordEntry := line.held.toList ++ line.unread

/-- Every record handed to the worker is redone or still there. -/
def Known (handed : List RedoWalRecordEntry) (line : WorkerLine) : Prop :=
  ∀ entry ∈ handed, entry.isRedo →
    entry ∈ line.applied ∨ line.Waiting entry ∨ entry ∈ line.unread

/-- One waiting list is replaced. -/
def setList (line : WorkerLine) (tbsId : ℕ) (para : Option WalBatchRecoveryPara) : WorkerLine :=
  { line with lists := update line.lists tbsId para }

variable {line line' : WorkerLine} {handed rest : List RedoWalRecordEntry}
  {entry a : RedoWalRecordEntry} {tbsId capacity plsn : ℕ} {para : WalBatchRecoveryPara}

lemma waitingIn_setList (new : Option WalBatchRecoveryPara) (other : ℕ) :
    (line.setList tbsId new).waitingIn other =
      if other = tbsId then new.elim [] (·.recordEntry) else line.waitingIn other := by
  simp only [waitingIn, setList, update_apply]
  split <;> rfl

lemma waitingIn_of_list (hlist : line.lists tbsId = some para) :
    line.waitingIn tbsId = para.recordEntry := by
  rw [waitingIn, hlist]
  rfl

/-- Setting one waiting list leaves the others. -/
lemma forall_lists_setList {P : ℕ → WalBatchRecoveryPara → Prop}
    {new : Option WalBatchRecoveryPara} (hnew : ∀ para, new = some para → P tbsId para)
    (hold : ∀ other para, line.lists other = some para → P other para) :
    ∀ other para, (line.setList tbsId new).lists other = some para → P other para := by
  intro other para hlist
  simp only [setList, update_apply] at hlist
  grind

/-- Taking a record from the queue makes it wait. -/
lemma waiting_hold (hheld : line.held = none) :
    { line with held := some entry, unread := rest }.Waiting a ↔ line.Waiting a ∨ a = entry := by
  simp [Waiting, waitingIn, hheld, eq_comm]

/-- Only the lists and the record held count. -/
lemma waiting_congr (hlists : ∀ tbsId, line'.waitingIn tbsId = line.waitingIn tbsId)
    (hheld : line'.held = line.held) : line'.Waiting a ↔ line.Waiting a := by
  simp only [Waiting, hlists, hheld]

lemma waitingIn_clear (hlist : line.lists tbsId = some para) (hempty : para.recordEntry = [])
    (other : ℕ) : (line.setList tbsId none).waitingIn other = line.waitingIn other := by
  rw [waitingIn_setList]
  split_ifs with heq
  · rw [heq, waitingIn_of_list hlist, hempty]
    rfl
  · rfl

/-- Moving the record held to its list leaves it waiting. -/
lemma waiting_add (hheld : line.held = some entry) (hlist : line.lists tbsId = some para) :
    { line.setList tbsId (some ⟨para.recordEntry ++ [entry], capacity, plsn⟩) with
      held := none }.Waiting a ↔ line.Waiting a := by
  have hlists : (∃ other, a ∈ (line.setList tbsId
      (some ⟨para.recordEntry ++ [entry], capacity, plsn⟩)).waitingIn other) ↔
      (∃ other, a ∈ line.waitingIn other) ∨ a = entry := by
    simp only [waitingIn_setList]
    have := waitingIn_of_list hlist
    grind
  rw [Waiting, Waiting, hheld, Option.some.injEq, eq_comm (a := entry), ← hlists]
  exact or_iff_left nofun

/-- Redoing the first record of a list takes it from those waiting. -/
lemma waiting_redo (hlist : line.lists tbsId = some ⟨entry :: rest, capacity, plsn⟩)
    (plsn' : ℕ) (applied : List RedoWalRecordEntry) :
    line.Waiting a ↔ { line.setList tbsId (some ⟨rest, capacity, plsn'⟩) with
      applied := applied }.Waiting a ∨ a = entry := by
  have hlists : (∃ other, a ∈ line.waitingIn other) ↔ (∃ other, a ∈ (line.setList tbsId
      (some ⟨rest, capacity, plsn'⟩)).waitingIn other) ∨ a = entry := by
    simp only [waitingIn_setList]
    have := waitingIn_of_list hlist
    grind
  rw [Waiting, hlists, or_right_comm]
  rfl

section

variable (h : line.Known handed)
include h

/-- A record stays known as long as it is only moved. -/
lemma Known.mono (hmove : ∀ a, a.isRedo →
    a ∈ line.applied ∨ line.Waiting a ∨ a ∈ line.unread →
      a ∈ line'.applied ∨ line'.Waiting a ∨ a ∈ line'.unread) : line'.Known handed :=
  fun a ha hr => hmove a hr (h a ha hr)

/-- A record that needs no redo may be skipped. -/
lemma Known.skip (hunread : line.unread = entry :: rest)
    (hentry : entry.isRedo = false) : { line with unread := rest }.Known handed := by
  refine h.mono fun a ha hmem => ?_
  have hne : a ≠ entry := fun heq => by simp [heq, hentry] at ha
  have hkept : a ∈ line.applied ∨ line.Waiting a ∨ a ∈ rest := by simpa [hunread, hne] using hmem
  exact hkept

/-- A record may be held. -/
lemma Known.hold (hheld : line.held = none) (hunread : line.unread = entry :: rest) :
    { line with held := some entry, unread := rest }.Known handed := by
  refine h.mono fun a _ hmem => ?_
  rw [waiting_hold hheld]
  simpa [hunread, or_assoc] using hmem

lemma Known.redoUnread (hunread : line.unread = entry :: rest) :
    { line with unread := rest, applied := line.applied ++ [entry] }.Known handed := by
  refine h.mono fun a _ hmem => ?_
  simp only [hunread, mem_cons] at hmem
  simp only [mem_append, mem_singleton]
  exact or_assoc.2 (hmem.imp_right or_left_comm.1)

/-- A record that waits may be redone. -/
lemma Known.redo (happlied : line'.applied = line.applied ++ [entry])
    (hunread : line'.unread = line.unread)
    (hwaiting : ∀ a, line.Waiting a ↔ line'.Waiting a ∨ a = entry) : line'.Known handed := by
  refine h.mono fun a _ hmem => ?_
  rw [hwaiting] at hmem
  rw [happlied, hunread, mem_append, mem_singleton]
  tauto

/-- A record that is handed out is known. -/
lemma Known.put (entry : RedoWalRecordEntry) :
    { line with unread := line.unread ++ [entry] }.Known (handed ++ [entry]) := by
  intro a ha hr
  simp only [mem_append, mem_singleton] at ha ⊢
  rcases ha with ha | rfl
  · exact (h a ha hr).imp_right (Or.imp_right Or.inl)
  · exact Or.inr (Or.inr (Or.inr rfl))

end

end WorkerLine

open WorkerLine

/-! ## The workers -/

/-- The line of a page worker; `put` is what the dispatcher has not appended yet. -/
def ParallelPageRedoWorker.line (worker : ParallelPageRedoWorker) (put : List RedoWalRecordEntry) :
    WorkerLine where
  lists := update (fun _ => none) 0 (some ⟨worker.batch, 0, 0⟩)
  held := none
  unread := worker.fetched ++ (worker.redoQueue ++ put)
  applied := worker.applied

namespace ParallelPageRedoWorker

variable {worker : ParallelPageRedoWorker} {entry : RedoWalRecordEntry}
  {rest : List RedoWalRecordEntry}

section

variable (put : List RedoWalRecordEntry)
include put

lemma line_unread (hfetched : worker.fetched = entry :: rest) :
    (worker.line put).unread = entry :: (rest ++ (worker.redoQueue ++ put)) := by
  simp [line, hfetched]

lemma line_lists (worker : ParallelPageRedoWorker) :
    (worker.line put).lists 0 = some ⟨worker.batch, 0, 0⟩ := by
  simp [line]

lemma line_addWalRecord (record : RedoWalRecord) :
    (worker.addWalRecord entry record rest).line put =
      { { worker.line put with
          held := some entry
          unread := rest ++ (worker.redoQueue ++ put) }.setList 0
            (some ⟨worker.batch ++ [entry], 0, 0⟩) with held := none } := by
  simp [line, addWalRecord, setList]

lemma line_redo (redone : Option ℕ) :
    { worker with
      batch := rest, redone := redone, applied := worker.applied ++ [entry] }.line put =
      { (worker.line put).setList 0 (some ⟨rest, 0, 0⟩) with
        applied := worker.applied ++ [entry] } := by
  simp [line, setList]

lemma not_waiting (hbatch : worker.batch = [])
    (entry : RedoWalRecordEntry) : ¬ (worker.line put).Waiting entry := by
  rintro (⟨tbsId, hmem⟩ | hheld)
  · simp only [waitingIn, line, update_apply, hbatch] at hmem
    split at hmem <;> simp at hmem
  · cases hheld

end

end ParallelPageRedoWorker

/-- The entry for which a batch is redone, or that is added next. -/
def DDLRedoMode.held : DDLRedoMode → Option RedoWalRecordEntry
  | .adding entry | .redo _ _ (.add entry) => some entry
  | _ => none

/-- The end of the last entry that was redone of a batch. -/
def DDLRedoMode.redone : DDLRedoMode → Option ℕ
  | .redo _ redone _ => redone
  | _ => none

/-- The loop over the fetched entries is over. -/
def DDLRedoMode.turnOver : DDLRedoMode → Bool
  | .main | .redo _ _ .fetchDone | .redo _ _ .scan => true
  | _ => false

/-- The line of the DDL worker. -/
def ParallelDDLRedoWorker.line (worker : ParallelDDLRedoWorker) (put : List RedoWalRecordEntry) :
    WorkerLine where
  lists := worker.tbsRedoWaitingList
  held := worker.mode.held
  unread := worker.fetched ++ (worker.redoQueue ++ put)
  applied := worker.applied

section Ddl

variable {worker : ParallelDDLRedoWorker} {entry : RedoWalRecordEntry}
  {rest put : List RedoWalRecordEntry}

open ParallelDDLRedoWorker

lemma ParallelDDLRedoWorker.line_unread (put : List RedoWalRecordEntry)
    (hfetched : worker.fetched = entry :: rest) :
    (worker.line put).unread = entry :: (rest ++ (worker.redoQueue ++ put)) := by
  simp [line, hfetched]

lemma held_redo (tbsId : ℕ) (redone redone' : Option ℕ) (next : AfterBatchProc) :
    (redo tbsId redone next).held = (redo tbsId redone' next).held := by
  cases next <;> rfl

@[simp] lemma held_nextMode (tbsId : ℕ) (redone : Option ℕ) (next : AfterBatchProc) :
    (nextMode next).held = (redo tbsId redone next).held := by
  cases next <;> rfl

@[simp] lemma redone_nextMode (next : AfterBatchProc) : (nextMode next).redone = none := by
  cases next <;> rfl

lemma turnOver_nextMode (tbsId : ℕ) (redone : Option ℕ) (next : AfterBatchProc) :
    (nextMode next).turnOver = (redo tbsId redone next).turnOver := by
  cases next <;> rfl

lemma turnOver_redo (tbsId : ℕ) (redone redone' : Option ℕ) (next : AfterBatchProc) :
    (redo tbsId redone next).turnOver = (redo tbsId redone' next).turnOver := by
  cases next <;> rfl

/-- The loop has reached a record of a tablespace, which it holds. -/
lemma line_openList (cfg : RedoConfig) (tbsId : ℕ) {mode : DDLRedoMode}
    (hheld : mode.held = some entry) :
    { worker.openList cfg tbsId rest with mode := mode }.line put =
      { worker.line put with
        held := some entry
        unread := rest ++ (worker.redoQueue ++ put) }.setList tbsId
          (some (worker.waitingListFor cfg tbsId)) := by
  rw [← hheld]
  rfl

/-- Opening a list changes nothing that waits. -/
lemma waitingIn_openList (cfg : RedoConfig) (line : WorkerLine)
    (hlists : line.lists = worker.tbsRedoWaitingList) (tbsId other : ℕ) :
    (line.setList tbsId (some (worker.waitingListFor cfg tbsId))).waitingIn other =
      line.waitingIn other := by
  rw [waitingIn_setList]
  split_ifs with heq
  · rw [heq, waitingIn, hlists]
    cases hold : worker.tbsRedoWaitingList tbsId <;> simp [waitingListFor, hold]
  · rfl

/-- The update changes the mark only. -/
lemma updateMaxRedoPlsn_eq (worker : ParallelDDLRedoWorker) (plsn : ℕ) :
    ∃ mark, worker.updateMaxRedoPlsn plsn = { worker with maxRedoPlsn := mark } ∧
      (mark = worker.maxRedoPlsn ∨ mark = max worker.maxRedoPlsn (worker.clampToWaiting plsn)) := by
  unfold updateMaxRedoPlsn
  split
  · exact ⟨_, rfl, Or.inr rfl⟩
  · exact ⟨worker.maxRedoPlsn, rfl, Or.inl rfl⟩

/-- What `BatchProc` leaves of the worker. -/
lemma marked_eq (worker : ParallelDDLRedoWorker) (tbsId plsn : ℕ) (next : AfterBatchProc)
    (left : List RedoWalRecordEntry) :
    ∃ mark, worker.marked tbsId plsn next left = { worker with
        maxRedoPlsn := mark
        maxRecoveryPlsn := if next = .scan then worker.maxRecoveryPlsn
          else max worker.maxRecoveryPlsn worker.maxWalRecoveryPlsn
        tbsRedoWaitingList := if left = [] then
          update worker.tbsRedoWaitingList tbsId none else worker.tbsRedoWaitingList } ∧
      (mark = worker.maxRedoPlsn ∨ mark = max worker.maxRedoPlsn (worker.clampToWaiting plsn)) := by
  obtain ⟨mark, hmark, hmax⟩ := updateMaxRedoPlsn_eq worker plsn
  refine ⟨mark, ?_, hmax⟩
  rw [marked, hmark]
  split_ifs <;> rfl

end Ddl

namespace RedoWorker

/-- The line of a worker. -/
def line (put : List RedoWalRecordEntry) : RedoWorker → WorkerLine
  | .page worker => worker.line put
  | .ddl worker => worker.line put

/-- Between two turns nothing is left of what was fetched, and the entry for which a page worker
redoes its batch is a record. -/
def Turn : RedoWorker → Prop
  | .page worker => (worker.mode = .main → worker.fetched = [] ∧ worker.batch = []) ∧
      (worker.mode = .redo → ∀ entry rest, worker.fetched = entry :: rest → entry.isRedo)
  | .ddl worker => worker.mode.turnOver → worker.fetched = []

variable {cfg : RedoConfig} {action : WorkerAction} {worker worker' : RedoWorker}
  {put : List RedoWalRecordEntry}

section

variable (hstep : worker.step cfg action = some worker')
include hstep

/-- A step is one of a page worker or one of a DDL worker. -/
lemma step_cases :
    (∃ old new, worker = .page old ∧ worker' = .page new ∧
      ParallelPageRedoWorker.Steps cfg old new) ∨
    ∃ old new, worker = .ddl old ∧ worker' = .ddl new ∧
      ParallelDDLRedoWorker.Steps cfg old action new := by
  cases worker with
  | page old =>
    obtain ⟨new, hnew, rfl⟩ := Option.map_eq_some_iff.1 hstep
    exact Or.inl ⟨old, new, rfl, rfl, ParallelPageRedoWorker.steps_of_step hnew⟩
  | ddl old =>
    obtain ⟨new, hnew, rfl⟩ := Option.map_eq_some_iff.1 hstep
    exact Or.inr ⟨old, new, rfl, rfl, ParallelDDLRedoWorker.steps_of_step hnew⟩

/-- Every step keeps the turn. -/
lemma Turn.step (h : worker.Turn) :
    worker'.Turn := by
  obtain ⟨old, new, rfl, rfl, hsteps⟩ | ⟨old, new, rfl, rfl, hsteps⟩ := step_cases hstep
  · cases hsteps with
    | batchEnds hmode hfetched hrecord hentry =>
      refine ⟨nofun, fun _ entry rest heq => ?_⟩
      cases hfetched.symm.trans heq
      exact hentry
    | finishTurn hmode hbatch hfetched => exact ⟨fun _ => ⟨hfetched, hbatch⟩, nofun⟩
    | _ => simp_all [Turn, ParallelPageRedoWorker.addWalRecord,
        ParallelPageRedoWorker.updateMaxRedoPlsn]
  · cases hsteps with
    | noRecord hmode hqueue hwaits =>
      obtain ⟨mark, hmark, -⟩ := updateMaxRedoPlsn_eq old old.maxPlsnSyncer
      rw [hmark]
      exact h
    | relmap hmode hfetched hentry =>
      obtain ⟨mark, hmark, -⟩ := updateMaxRedoPlsn_eq
        { old with fetched := _, applied := old.applied ++ [_] } _
      rw [ParallelDDLRedoWorker.relmap, hmark]
      exact fun hover => absurd (hmode ▸ hover) nofun
    | redo hmode hlist =>
      exact fun hover => h (by rw [hmode, turnOver_redo]; exact hover)
    | finishNone hmode hlist hleft =>
      exact fun hover => h (by rw [hmode, ← turnOver_nextMode]; exact hover)
    | @finishSome tbsId plsn next para hmode hlist hleft =>
      obtain ⟨mark, hmark, -⟩ := marked_eq old tbsId plsn next para.recordEntry
      rw [hmark]
      exact fun hover => h (by rw [hmode, ← turnOver_nextMode]; exact hover)
    | _ => simp_all [Turn, turnOver]

/-- What a step redoes was waiting, or is a change of the map that the worker has just read. -/
lemma step_applied (put : List RedoWalRecordEntry) :
    ∃ new, worker'.base.applied = worker.base.applied ++ new ∧ ∀ entry ∈ new,
      (worker.line put).Waiting entry ∨ entry ∈ (worker.line put).unread ∧ entry.isRelmap := by
  obtain ⟨old, new, rfl, rfl, hsteps⟩ | ⟨old, new, rfl, rfl, hsteps⟩ := step_cases hstep
  · show ∃ added, new.applied = old.applied ++ added ∧ _
    cases hsteps with
    | redo hmode hbatch =>
      refine ⟨_, rfl, fun entry hentry => Or.inl (Or.inl ⟨0, ?_⟩)⟩
      simp_all [line, ParallelPageRedoWorker.line, waitingIn]
    | _ => exact ⟨[], (append_nil _).symm, nofun⟩
  · show ∃ added, new.applied = old.applied ++ added ∧ _
    cases hsteps with
    | @redo entry rest tbsId redone next capacity wait hmode hlist =>
      refine ⟨_, rfl, fun other hother => Or.inl (Or.inl ⟨tbsId, ?_⟩)⟩
      rw [waitingIn_of_list hlist, mem_singleton.1 hother]
      exact mem_cons_self
    | @relmap entry rest hmode hfetched hentry =>
      obtain ⟨mark, hmark, -⟩ := updateMaxRedoPlsn_eq
        { old with fetched := rest, applied := old.applied ++ [entry] } entry.recordEndPlsn
      rw [ParallelDDLRedoWorker.relmap, hmark]
      refine ⟨_, rfl, fun other hother => Or.inr ?_⟩
      simp_all [line, ParallelDDLRedoWorker.line]
    | noRecord hmode hqueue hwaits =>
      obtain ⟨mark, hmark, -⟩ := updateMaxRedoPlsn_eq old old.maxPlsnSyncer
      rw [hmark]
      exact ⟨[], (append_nil _).symm, nofun⟩
    | @finishSome tbsId plsn next para hmode hlist hleft =>
      obtain ⟨mark, hmark, -⟩ := marked_eq old tbsId plsn next para.recordEntry
      rw [hmark]
      exact ⟨[], (append_nil _).symm, nofun⟩
    | _ => exact ⟨[], (append_nil _).symm, by simp⟩

end

/-- Appending the batch moves no record. -/
lemma line_append (worker : RedoWorker) (put : List RedoWalRecordEntry) :
    (worker.appendWalRecord put).line [] = worker.line put := by
  cases worker <;>
    simp [line, appendWalRecord, ParallelPageRedoWorker.line, ParallelDDLRedoWorker.line]

/-- Putting a record adds it at the end. -/
lemma line_put (worker : RedoWorker) (put : List RedoWalRecordEntry)
    (entry : RedoWalRecordEntry) : worker.line (put ++ [entry]) =
      { worker.line put with unread := (worker.line put).unread ++ [entry] } := by
  cases worker <;> simp [line, ParallelPageRedoWorker.line, ParallelDDLRedoWorker.line]

end RedoWorker

end DStore
