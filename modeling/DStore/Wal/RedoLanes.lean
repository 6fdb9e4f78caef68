import DStore.Wal.RecoveryPoint
import DStore.Wal.RedoSerial

/-!
# The order in which the workers redo

The entries of a lane wait in one list or in none: in the batch of a page worker, in the list of
their tablespace for the DDL worker, which redoes changes of the map at once. So each worker redoes
the entries of a lane in the order in which they were handed to it.
-/

namespace DStore

open RedoWalRecordEntry ParallelDDLRedoWorker List Option

open LaneOrder

/-- The entries of a lane that change something. -/
def laneOf (l : RedoLane) (entries : List RedoWalRecordEntry) : List RedoWalRecordEntry :=
  inLane (·.lane) l (entries.filter (·.isRedo))

variable {l : RedoLane} {entry : RedoWalRecordEntry} {rest handed : List RedoWalRecordEntry}

lemma laneOf_append (front back : List RedoWalRecordEntry) :
    laneOf l (front ++ back) = laneOf l front ++ laneOf l back := by
  rw [laneOf, filter_append, inLane_append]
  rfl

lemma laneOf_cons_of_not_isRedo (h : entry.isRedo = false) :
    laneOf l (entry :: rest) = laneOf l rest := by
  rw [laneOf, filter_cons_of_neg (by simp [h])]
  rfl

lemma laneOf_cons (h : entry.isRedo) :
    laneOf l (entry :: rest) = inLane (·.lane) l [entry] ++ laneOf l rest := by
  rw [laneOf, filter_cons_of_pos h, ← singleton_append, inLane_append]
  rfl

lemma mem_laneOf : entry ∈ laneOf l handed ↔ (entry ∈ handed ∧ entry.isRedo) ∧ entry.lane = l := by
  rw [laneOf, mem_inLane, mem_filter]

lemma inLane_singleton_of_ne (h : entry.lane ≠ l) : inLane (·.lane) l [entry] = [] := by
  simp [inLane, h]

lemma inLane_singleton (h : entry.lane = l) : inLane (·.lane) l [entry] = [entry] := by
  simp [inLane, h]

lemma isRedo_eq_false_of_none (h : entry.walRecord = none) : entry.isRedo = false := by
  simp [isRedo, h]

/-! ## Lists for lanes -/

namespace WorkerLine

variable {line line' : WorkerLine} {slot : RedoLane → Option ℕ} {tbsId : ℕ}
  {para : WalBatchRecoveryPara}

/-- What waits in the list of a lane, with the entry that is held. -/
def taken (line : WorkerLine) (list : Option ℕ) : List RedoWalRecordEntry :=
  list.elim [] line.waitingIn ++ line.held.toList

/-- The worker keeps the order of each lane, whose entries wait in the list that `slot` names. -/
structure Ordered (slot : RedoLane → Option ℕ) (handed : List RedoWalRecordEntry)
    (line : WorkerLine) : Prop where
  order : ∀ l, laneOf l handed = inLane (·.lane) l line.applied ++
    (inLane (·.lane) l (line.taken (slot l)) ++ laneOf l line.unread)
  lists : ∀ tbsId, ∀ entry ∈ line.waitingIn tbsId, slot entry.lane = some tbsId

namespace Ordered

section

variable (h : line.Ordered slot handed)
include h

/-- What waits or is unread was handed out. -/
lemma mem (hentry : line.Waiting entry ∨ entry ∈ line.unread ∧ entry.isRedo) :
    entry ∈ handed ∧ entry.isRedo := by
  have hmem : entry ∈ laneOf entry.lane handed := by
    rw [h.order]
    simp only [mem_append, mem_inLane, mem_laneOf, and_true, taken, mem_toList]
    rcases hentry with (⟨tbsId, hlist⟩ | hheld) | hunread
    · rw [h.lists tbsId entry hlist]
      exact Or.inr (Or.inl (Or.inl hlist))
    · exact Or.inr (Or.inl (Or.inr hheld))
    · exact Or.inr (Or.inr hunread)
  exact (mem_laneOf.1 hmem).1

/-- Only the order within the lanes counts. -/
lemma congr (happlied : line'.applied = line.applied)
    (hlists : ∀ tbsId, line'.waitingIn tbsId = line.waitingIn tbsId)
    (hheld : line'.held = line.held) (hunread : ∀ l, laneOf l line'.unread = laneOf l line.unread) :
    line'.Ordered slot handed := by
  have heq : line'.waitingIn = line.waitingIn := funext hlists
  refine ⟨fun l => ?_, ?_⟩
  · rw [h.order, happlied, hunread, taken, taken, heq, hheld]
  · rw [heq]
    exact h.lists

/-- A record that needs no redo may be skipped. -/
lemma skip (hunread : line.unread = entry :: rest)
    (hentry : entry.isRedo = false) : { line with unread := rest }.Ordered slot handed :=
  h.congr rfl (fun _ => rfl) rfl fun l => by rw [hunread, laneOf_cons_of_not_isRedo hentry]

/-- A record may be held. -/
lemma hold (hheld : line.held = none)
    (hunread : line.unread = entry :: rest) (hentry : entry.isRedo) :
    { line with held := some entry, unread := rest }.Ordered slot handed := by
  refine ⟨fun l => ?_, h.lists⟩
  rw [h.order, hunread, laneOf_cons hentry]
  simp [taken, hheld]
  rfl

/-- The entry the worker holds is added to the list of its lane. -/
lemma add (hheld : line.held = some entry) (tbsId : ℕ)
    (hslot : slot entry.lane = some tbsId) (hlist : line.lists tbsId = some para)
    (capacity plsn : ℕ) :
    { line.setList tbsId (some ⟨para.recordEntry ++ [entry], capacity, plsn⟩) with
      held := none }.Ordered slot handed := by
  have hnew : ∀ other,
      { line.setList tbsId (some ⟨para.recordEntry ++ [entry], capacity, plsn⟩) with
      held := none }.waitingIn other =
        if other = tbsId then line.waitingIn tbsId ++ [entry] else line.waitingIn other := by
    rw [waitingIn_of_list hlist]
    exact waitingIn_setList _
  refine ⟨fun l => ?_, fun other a ha => ?_⟩
  · rw [h.order]
    congr 2
    by_cases hl : entry.lane = l
    · subst hl
      simp [taken, hslot, hnew, hheld]
    · simp only [taken, hheld, inLane_append, toList_some, inLane_singleton_of_ne hl,
        append_nil, toList_none]
      cases slot l with
      | none => rfl
      | some other =>
        simp only [elim_some, hnew]
        split_ifs with heq
        · simp [heq, inLane_singleton_of_ne hl]
        · rfl
  · rw [hnew] at ha
    split_ifs at ha with heq
    · subst heq
      rcases mem_append.1 ha with ha | ha
      · exact h.lists other a ha
      · rw [mem_singleton.1 ha, hslot]
    · exact h.lists other a ha

/-- The first entry of a list is redone. -/
lemma redo {capacity plsn : ℕ}
    (hlist : line.lists tbsId = some ⟨entry :: rest, capacity, plsn⟩) (plsn' : ℕ) :
    { line.setList tbsId (some ⟨rest, capacity, plsn'⟩) with
      applied := line.applied ++ [entry] }.Ordered slot handed := by
  have hold : line.waitingIn tbsId = entry :: rest := waitingIn_of_list hlist
  have hslot : slot entry.lane = some tbsId := h.lists tbsId entry (by simp [hold])
  have hnew : ∀ other, { line.setList tbsId (some ⟨rest, capacity, plsn'⟩) with
      applied := line.applied ++ [entry] }.waitingIn other =
        if other = tbsId then rest else line.waitingIn other := fun other =>
    waitingIn_setList _ other
  refine ⟨fun l => ?_, fun other a ha => ?_⟩
  · rw [h.order]
    simp only [inLane_append, append_assoc]
    congr 1
    rw [← append_assoc]
    congr 1
    by_cases hl : entry.lane = l
    · subst hl
      simp only [taken, hslot, hold, hnew, elim_some, if_true, cons_append]
      simp [inLane, setList]
    · rw [inLane_singleton_of_ne hl, nil_append]
      simp only [taken, inLane_append]
      cases slot l with
      | none => rfl
      | some other =>
        simp only [elim_some, hnew]
        split_ifs with heq
        · rw [heq, hold, inLane_cons, if_neg hl]
          rfl
        · rfl
  · rw [hnew] at ha
    split_ifs at ha with heq
    · exact h.lists other a (by rw [heq, hold]; exact mem_cons_of_mem _ ha)
    · exact h.lists other a ha

/-- An entry whose lane has no list is redone at once. -/
lemma redoUnread (hheld : line.held = none)
    (hunread : line.unread = entry :: rest) (hentry : entry.isRedo)
    (hslot : slot entry.lane = none) :
    { line with unread := rest, applied := line.applied ++ [entry] }.Ordered slot handed := by
  refine ⟨fun l => ?_, h.lists⟩
  rw [h.order, hunread, laneOf_cons hentry]
  by_cases hl : entry.lane = l
  · subst hl
    simp [taken, hslot, hheld]
  · simp [taken, inLane_singleton_of_ne hl]
    rfl

/-- A record may be put at the end. -/
lemma put (entry : RedoWalRecordEntry) :
    { line with unread := line.unread ++ [entry] }.Ordered slot (handed ++ [entry]) := by
  refine ⟨fun l => ?_, h.lists⟩
  rw [laneOf_append, h.order, laneOf_append]
  simp only [append_assoc]
  rfl

end

end Ordered

end WorkerLine

/-! ## The workers -/

variable {put : List RedoWalRecordEntry}

/-- The entries that wait in the list of a tablespace. -/
def ParallelDDLRedoWorker.waitingIn (worker : ParallelDDLRedoWorker) (tbsId : ℕ) :
    List RedoWalRecordEntry :=
  (worker.tbsRedoWaitingList tbsId).elim [] (·.recordEntry)

/-- The list of the DDL worker in which the entries of a lane wait. -/
def ddlSlot : RedoLane → Option ℕ
  | .tablespace tbsId => if tbsId ≤ maxTablespaceId then some tbsId else none
  | _ => none

/-- A tablespace record of a DDL worker is in the lane of its tablespace. -/
lemma lane_of_tablespace {record : RedoWalRecord}
    (hddl : entry.isRedo → ∀ pageId, entry.lane ≠ .page pageId)
    (hrecord : entry.walRecord = some record) (hentry : entry.isTablespace) :
    entry.lane = .tablespace record.tablespaceId := by
  simp only [isTablespace, Bool.and_eq_true, Bool.not_eq_true'] at hentry
  have hnot := hddl hentry.1 record.pageId
  have hrelmap : record.type ≠ .systableWriteBuiltinRelmap := by
    simpa [isRelmap, hrecord] using hentry.2
  rw [RedoEnv.lane_of_record hrecord] at hnot ⊢
  unfold RedoWalRecord.lane at hnot ⊢
  rw [if_neg hrelmap] at hnot ⊢
  split_ifs at hnot ⊢ with hddl
  · rfl
  · exact absurd rfl hnot

/-- A relmap record is in the lane of the relmap. -/
lemma lane_of_isRelmap (hentry : entry.isRelmap) : entry.lane = .relmap := by
  obtain ⟨record, hrecord, htype⟩ := (any_eq_true _ _).1 hentry
  rw [RedoEnv.lane_of_record hrecord, RedoWalRecord.lane, if_pos (of_decide_eq_true htype)]

namespace ParallelPageRedoWorker

variable {cfg : RedoConfig} {worker worker' : ParallelPageRedoWorker}

/-- Adding a record to the batch keeps the order. -/
lemma ordered_add (h : (worker.line put).Ordered (fun _ => some 0) handed)
    (hfetched : worker.fetched = entry :: rest) (hentry : entry.isRedo) {record : RedoWalRecord} :
    ((worker.addWalRecord entry record rest).line put).Ordered (fun _ => some 0) handed := by
  rw [line_addWalRecord]
  exact (h.hold rfl (line_unread put hfetched) hentry).add rfl 0 rfl (worker.line_lists put) 0 0

/-- Every step of a page worker keeps the order. -/
lemma ordered_step (h : (worker.line put).Ordered (fun _ => some 0) handed)
    (hturn : (RedoWorker.page worker).Turn) (hstep : Steps cfg worker worker') :
    (worker'.line put).Ordered (fun _ => some 0) handed := by
  cases hstep with
  | getN num hmode =>
    obtain ⟨hfetched, hbatch⟩ := hturn.1 hmode
    simp only [line, hfetched, hbatch, nil_append] at h ⊢
    rwa [← append_assoc, take_append_drop]
  | noRecord hmode hqueue => exact h
  | lastBatch hmode hfetched => exact h
  | batchEnds hmode hfetched hrecord hentry => exact h
  | syncer hmode hfetched hentry =>
    exact h.skip (line_unread put hfetched) (isRedo_eq_false_of_none hentry)
  | barrier hmode hfetched hentry =>
    exact h.skip (line_unread put hfetched) (isRedo_eq_false_of_isBarrier hentry)
  | add hmode hfetched hrecord hentry hends => exact ordered_add h hfetched hentry
  | redo hmode hbatch =>
    rw [line_redo]
    exact h.redo (hbatch ▸ worker.line_lists put) 0
  | finishTurn hmode hbatch hfetched => exact h
  | finishBatch hmode hbatch hfetched hrecord =>
    have hmarked : (worker.marked.line put).Ordered (fun _ => some 0) handed := h
    exact ordered_add hmarked hfetched (hturn.2 hmode _ _ hfetched)

end ParallelPageRedoWorker

namespace ParallelDDLRedoWorker

variable {cfg : RedoConfig} {worker worker' : ParallelDDLRedoWorker} {tbsId : ℕ}
  {action : WorkerAction} {record : RedoWalRecord}

/-- The DDL worker keeps the order of each lane, and holds an entry for the current list. -/
structure Ordered (handed put : List RedoWalRecordEntry) (worker : ParallelDDLRedoWorker) :
    Prop where
  line : (worker.line put).Ordered ddlSlot handed
  ddl : ∀ entry ∈ handed, entry.isRedo → ∀ pageId, entry.lane ≠ .page pageId
  held : ∀ entry, worker.mode.held = some entry → ddlSlot entry.lane = some worker.curTbsId

/-- The loop keeps an entry for the list of its tablespace. -/
lemma Ordered.hold (h : worker.Ordered handed put) (hmode : worker.mode = .loop)
    (hfetched : worker.fetched = entry :: rest) (hrecord : entry.walRecord = some record)
    (hentry : entry.isTablespace) (htbs : record.tablespaceId ≤ maxTablespaceId)
    {mode : DDLRedoMode} (hheld : mode.held = some entry) :
    { worker.openList cfg record.tablespaceId rest with mode := mode }.Ordered handed put := by
  have hredo : entry.isRedo := (Bool.and_eq_true _ _ ▸ hentry :).1
  have hnone : (worker.line put).held = none := by
    simp [ParallelDDLRedoWorker.line, hmode, DDLRedoMode.held]
  refine ⟨?_, h.ddl, fun other hother => ?_⟩
  · rw [line_openList cfg _ hheld]
    exact (h.line.hold hnone (line_unread put hfetched) hredo).congr rfl
      (waitingIn_openList cfg _ rfl _) rfl fun _ => rfl
  · cases hheld.symm.trans hother
    have hmem := (h.line.mem (Or.inr ⟨by simp [line_unread put hfetched], hredo⟩)).1
    rw [lane_of_tablespace (h.ddl entry hmem) hrecord hentry]
    exact if_pos htbs

/-- Steps that move no record keep the order. -/
lemma Ordered.of_eq (h : worker.Ordered handed put) (happlied : worker'.applied = worker.applied)
    (hlists : ∀ tbsId, (worker'.line put).waitingIn tbsId = (worker.line put).waitingIn tbsId)
    (hheld : worker'.mode.held = worker.mode.held)
    (hunread : (worker'.line put).unread = (worker.line put).unread)
    (hcur : worker'.curTbsId = worker.curTbsId) : worker'.Ordered handed put := by
  refine ⟨h.line.congr happlied hlists hheld fun l => by rw [hunread], h.ddl, ?_⟩
  rw [hheld, hcur]
  exact h.held

/-- Every step of a DDL worker keeps the order. -/
lemma Ordered.step (h : worker.Ordered handed put) (hturn : (RedoWorker.ddl worker).Turn)
    (hstep : Steps cfg worker action worker') : worker'.Ordered handed put := by
  cases hstep with
  | getN num hmode =>
    have hfetched : worker.fetched = [] := hturn (by rw [hmode]; rfl)
    refine ⟨?_, h.ddl, by rintro _ ⟨⟩⟩
    have hline := h.line
    simp only [ParallelDDLRedoWorker.line, hfetched, hmode, nil_append] at hline ⊢
    rwa [← append_assoc, take_append_drop]
  | noRecord hmode hqueue hwaits =>
    obtain ⟨mark, hmark, -⟩ := updateMaxRedoPlsn_eq worker worker.maxPlsnSyncer
    rw [hmark]
    exact ⟨h.line, h.ddl, h.held⟩
  | scan tbsId hmode hqueue hwaits | noList hmode hfetched hlist | lastBatch hmode hfetched hlist =>
    exact h.of_eq rfl (fun _ => rfl) (by rw [hmode]; rfl) rfl rfl
  | syncer hmode hfetched hentry =>
    exact ⟨h.line.skip (line_unread put hfetched) (isRedo_eq_false_of_none hentry), h.ddl, h.held⟩
  | barrier hmode hfetched hentry =>
    exact ⟨h.line.skip (line_unread put hfetched)
      (isRedo_eq_false_of_isBarrier hentry), h.ddl, h.held⟩
  | @relmap entry rest hmode hfetched hentry =>
    obtain ⟨mark, hmark, -⟩ := updateMaxRedoPlsn_eq
      { worker with fetched := rest, applied := worker.applied ++ [entry] } entry.recordEndPlsn
    rw [relmap, hmark]
    refine ⟨h.line.redoUnread ?_ (line_unread put hfetched)
      (isRedo_of_isRelmap hentry) ?_, h.ddl, h.held⟩
    · simp [ParallelDDLRedoWorker.line, hmode, DDLRedoMode.held]
    · rw [lane_of_isRelmap hentry]
      rfl
  | batchEnds hmode hfetched hrecord hentry htbs hends =>
    exact h.hold hmode hfetched hrecord hentry htbs rfl
  | noBatch hmode hfetched hrecord hentry htbs hends =>
    exact h.hold hmode hfetched hrecord hentry htbs rfl
  | @redo entry rest tbsId redone next capacity wait hmode hlist =>
    have hheld : worker.mode.held = (DDLRedoMode.redo tbsId (some entry.recordEndPlsn) next).held :=
      hmode ▸ held_redo ..
    refine ⟨?_, h.ddl, hheld ▸ h.held⟩
    have hredo := h.line.redo hlist entry.recordEndPlsn
    simp only [ParallelDDLRedoWorker.line, WorkerLine.setList, hheld] at hredo
    exact hredo
  | finishNone hmode hlist hleft =>
    exact h.of_eq rfl (fun _ => rfl) (by rw [hmode, held_nextMode]) rfl rfl
  | @finishSome tbsId plsn next para hmode hlist hleft =>
    obtain ⟨mark, hmark, -⟩ := marked_eq worker tbsId plsn next para.recordEntry
    rw [hmark]
    refine h.of_eq rfl (fun other => ?_) (by rw [hmode, held_nextMode]) rfl rfl
    by_cases hempty : para.recordEntry = []
    · have hline : (worker.line put).lists tbsId = some para := hlist
      simp only [if_pos hempty]
      exact WorkerLine.waitingIn_clear hline hempty other
    · simp only [if_neg hempty]
      rfl
  | @add entry para capacity hmode hlist =>
    have hheld : worker.mode.held = some entry := by rw [hmode]; rfl
    exact ⟨h.line.add hheld _ (h.held entry hheld) hlist capacity _, h.ddl, by rintro _ ⟨⟩⟩

end ParallelDDLRedoWorker

namespace RedoWorker

variable {cfg : RedoConfig} {action : WorkerAction} {worker worker' : RedoWorker}

/-- The list in which the entries of a lane wait. -/
def slot : RedoWorker → RedoLane → Option ℕ
  | .page _ => fun _ => some 0
  | .ddl _ => ddlSlot

/-- The entry may be handed to the worker. -/
def Takes (entry : RedoWalRecordEntry) : RedoWorker → Prop
  | .page _ => True
  | .ddl _ => entry.isRedo → ∀ pageId, entry.lane ≠ .page pageId

/-- The DDL worker gets no entry of a page and holds an entry for the current list. -/
def Keeps (handed : List RedoWalRecordEntry) : RedoWorker → Prop
  | .page _ => True
  | .ddl worker => (∀ entry ∈ handed, entry.isRedo → ∀ pageId, entry.lane ≠ .page pageId) ∧
      ∀ entry, worker.mode.held = some entry → ddlSlot entry.lane = some worker.curTbsId

/-- The worker keeps the order of each lane. -/
structure Ordered (handed put : List RedoWalRecordEntry) (worker : RedoWorker) : Prop where
  turn : worker.Turn
  line : (worker.line put).Ordered worker.slot handed
  keeps : worker.Keeps handed

/-- A new worker is in order. -/
lemma Ordered.init (ddl : Prop) [Decidable ddl] :
    (if ddl then .ddl .init else .page .init : RedoWorker).Ordered [] [] := by
  split
  · refine ⟨fun _ => rfl, ⟨fun l => ?_, by rintro _ _ ⟨⟩⟩, by simp, by rintro _ ⟨⟩⟩
    cases hslot : ddlSlot l <;>
      simp only [WorkerLine.taken, slot, hslot] <;> rfl
  · refine ⟨⟨fun _ => ⟨rfl, rfl⟩, by rintro ⟨⟩⟩, ⟨fun l => rfl, fun tbsId entry hentry => ?_⟩,
      trivial⟩
    exact absurd (Or.inl ⟨tbsId, hentry⟩) (ParallelPageRedoWorker.not_waiting [] rfl entry)

section

variable (h : worker.Ordered handed put)
include h

lemma Ordered.step (hstep : worker.step cfg action = some worker') :
    worker'.Ordered handed put := by
  have hturn := h.turn.step hstep
  obtain ⟨old, new, rfl, rfl, hsteps⟩ | ⟨old, new, rfl, rfl, hsteps⟩ := step_cases hstep
  · exact ⟨hturn, ParallelPageRedoWorker.ordered_step h.line h.turn hsteps, trivial⟩
  · obtain ⟨hline, hddl, hheld⟩ :=
      Ordered.step ⟨h.line, h.keeps.1, h.keeps.2⟩ h.turn hsteps
    exact ⟨hturn, hline, hddl, hheld⟩

/-- What a step redoes was handed to the worker. -/
lemma Ordered.redone (hstep : worker.step cfg action = some worker') :
    ∃ new, worker'.base.applied = worker.base.applied ++ new ∧
      ∀ entry ∈ new, entry ∈ handed ∧ entry.isRedo := by
  obtain ⟨new, happlied, hnew⟩ := step_applied hstep put
  exact ⟨new, happlied, fun entry hentry => h.line.mem ((hnew entry hentry).imp_right fun hmem =>
    ⟨hmem.1, isRedo_of_isRelmap hmem.2⟩)⟩

/-- Appending the batch keeps the order. -/
lemma Ordered.append : (worker.appendWalRecord put).Ordered handed [] := by
  have hline := worker.line_append put
  cases worker <;> exact ⟨h.turn, by rw [hline]; exact h.line, h.keeps⟩

/-- So does handing out a record that the worker takes. -/
lemma Ordered.handOut (htakes : worker.Takes entry) :
    worker.Ordered (handed ++ [entry]) (put ++ [entry]) := by
  refine ⟨h.turn, by rw [line_put]; exact h.line.put entry, ?_⟩
  cases worker with
  | page worker => trivial
  | ddl worker =>
    refine ⟨fun other hother => ?_, h.keeps.2⟩
    rcases mem_append.1 hother with hother | hother
    · exact h.keeps.1 other hother
    · rw [mem_singleton.1 hother]
      exact htakes

end

end RedoWorker

end DStore
