import DStore.Wal.WorkerLine

/-!
# What the redo-finished mark of a worker says

As long as no two entries of one record are queued at the same worker, the mark of a worker lies
below every record it still has to redo. Both kinds of workers keep this: the page worker because it
redoes its batches in order, the DDL worker because it holds the mark back at its waiting lists.
-/

namespace DStore

open WorkerLine List

namespace RedoWalRecordEntry

/-- The order of the entries of one worker. -/
def Before (first second : RedoWalRecordEntry) : Prop :=
  first.recordEndPlsn ≤ second.recordEndPlsn ∧
    (second.isRedo → first.recordEndPlsn < second.recordEndPlsn)

end RedoWalRecordEntry

open RedoWalRecordEntry

/-- A plsn lies below every record among the entries. -/
def BelowRecords (plsn : ℕ) (entries : List RedoWalRecordEntry) : Prop :=
  ∀ entry ∈ entries, entry.isRedo → plsn < entry.recordEndPlsn

/-- The greatest plsn among the start of the recovery and the entries handed out. -/
def topPlsn (start : ℕ) (handed : List RedoWalRecordEntry) : ℕ :=
  handed.foldl (fun plsn entry => max plsn entry.recordEndPlsn) start

@[simp] lemma topPlsn_append_singleton (start : ℕ) (handed : List RedoWalRecordEntry)
    (entry : RedoWalRecordEntry) :
    topPlsn start (handed ++ [entry]) = max (topPlsn start handed) entry.recordEndPlsn := by
  simp [topPlsn]

lemma le_topPlsn (start : ℕ) (handed : List RedoWalRecordEntry) : start ≤ topPlsn start handed := by
  induction handed using reverseRecOn with
  | nil => exact le_rfl
  | append_singleton handed entry ih =>
    rw [topPlsn_append_singleton]
    exact le_max_of_le_left ih

/-- No record handed out ends behind the top. -/
lemma le_topPlsn_of_mem {start : ℕ} {handed : List RedoWalRecordEntry}
    {entry : RedoWalRecordEntry} (hentry : entry ∈ handed) :
    entry.recordEndPlsn ≤ topPlsn start handed := by
  induction handed using reverseRecOn with
  | nil => cases hentry
  | append_singleton handed last ih =>
    rw [topPlsn_append_singleton]
    rcases mem_append.1 hentry with hentry | hentry
    · exact le_max_of_le_left (ih hentry)
    · rw [mem_singleton.1 hentry]
      exact le_max_right _ _

namespace RedoMarks

/-- A plsn that may become a mark: it lies below the records among the entries, and not above what
was handed out. -/
structure Mark (top plsn : ℕ) (entries : List RedoWalRecordEntry) : Prop where
  below : BelowRecords plsn entries
  le : plsn ≤ top

/-- Entries in the order in which they are redone, all above the start of the recovery and above the
mark. -/
structure Sorted (start top mark : ℕ) (entries : List RedoWalRecordEntry) : Prop where
  order : entries.Pairwise Before
  top : ∀ entry ∈ entries, entry.recordEndPlsn ≤ top
  start : BelowRecords start entries
  mark : BelowRecords mark entries

variable {start top mark syncer plsn : ℕ} {handed entries entries' rest : List RedoWalRecordEntry}
  {entry : RedoWalRecordEntry}

lemma below_append : BelowRecords plsn (entries ++ entries') ↔
    BelowRecords plsn entries ∧ BelowRecords plsn entries' := by
  simp only [BelowRecords, mem_append, or_imp, forall_and]

/-- A record behind the mark may be put. -/
lemma below_put (h : BelowRecords plsn entries) (hlt : entry.isRedo → plsn < entry.recordEndPlsn) :
    BelowRecords plsn (entries ++ [entry]) :=
  below_append.2 ⟨h, fun a ha => by rwa [mem_singleton.1 ha]⟩

/-- A mark stays one for fewer records. -/
lemma Mark.sublist (h : Mark top plsn entries) (hsub : entries'.Sublist entries) :
    Mark top plsn entries' :=
  ⟨fun a ha => h.below a (hsub.subset ha), h.le⟩

/-- A mark stays one when a later record is put. -/
lemma Mark.put (h : Mark top plsn entries) (hlt : entry.isRedo → top < entry.recordEndPlsn) :
    Mark (max top entry.recordEndPlsn) plsn (entries ++ [entry]) :=
  ⟨below_put h.below fun hr => h.le.trans_lt (hlt hr), h.le.trans (le_max_left _ _)⟩

lemma Sorted.sublist (h : Sorted start top mark entries) (hsub : entries'.Sublist entries) :
    Sorted start top mark entries' :=
  ⟨h.order.sublist hsub, fun a ha => h.top a (hsub.subset ha),
    fun a ha => h.start a (hsub.subset ha), fun a ha => h.mark a (hsub.subset ha)⟩

/-- The end of the first record is a mark for the rest. -/
lemma Sorted.head (h : Sorted start top mark (entry :: entries)) :
    Mark top entry.recordEndPlsn entries :=
  ⟨fun a ha => ((pairwise_cons.1 h.order).1 a ha).2, h.top entry mem_cons_self⟩

/-- The mark may be raised as long as it stays below the records. -/
lemma Sorted.raise (h : Sorted start top mark entries) (hbelow : BelowRecords plsn entries) :
    Sorted start top (max mark plsn) entries :=
  ⟨h.order, h.top, h.start, fun a ha hr => max_lt (h.mark a ha hr) (hbelow a ha hr)⟩

/-- A later record may be put at the end. -/
lemma Sorted.put (h : Sorted start top mark entries) (hstart : start ≤ top) (hmark : mark ≤ top)
    (hle : top ≤ entry.recordEndPlsn) (hlt : entry.isRedo → top < entry.recordEndPlsn) :
    Sorted start (max top entry.recordEndPlsn) mark (entries ++ [entry]) := by
  refine ⟨pairwise_append.2 ⟨h.order, pairwise_singleton _ _, fun a ha b hb => ?_⟩,
    fun a ha => ?_, below_put h.start fun hr => hstart.trans_lt (hlt hr),
    below_put h.mark fun hr => hmark.trans_lt (hlt hr)⟩
  · rw [mem_singleton.1 hb]
    exact ⟨(h.top a ha).trans hle, fun hr => (h.top a ha).trans_lt (hlt hr)⟩
  · rcases mem_append.1 ha with ha | ha
    · exact le_max_of_le_left (h.top a ha)
    · exact mem_singleton.1 ha ▸ le_max_right _ _

/-- The marks of a worker that was handed the given entries are sound, also those of its waiting
lists and the one it is about to set. -/
structure Sound (start : ℕ) (handed : List RedoWalRecordEntry) (line : WorkerLine)
    (redone : Option ℕ) (mark syncer : ℕ) : Prop where
  known : line.Known handed
  later : Sorted start (topPlsn start handed) mark line.later
  lists : ∀ tbsId para, line.lists tbsId = some para → tbsId ≤ maxTablespaceId ∧
    Sorted start (topPlsn start handed) mark (para.recordEntry ++ line.later) ∧
    Mark (topPlsn start handed) para.waitStartPlsn (para.recordEntry ++ line.later)
  markTop : mark ≤ topPlsn start handed
  syncer : Mark (topPlsn start handed) syncer line.unread
  redone : ∀ plsn ∈ redone, Mark (topPlsn start handed) plsn line.later

namespace Sound

variable {line : WorkerLine} {redone : Option ℕ} {tbsId capacity : ℕ}
  {para : WalBatchRecoveryPara}

/-- An empty line is sound. -/
lemma init (hunread : line.unread = []) (hheld : line.held = none)
    (hlists : ∀ tbsId para, line.lists tbsId = some para →
      tbsId ≤ maxTablespaceId ∧ para.recordEntry = [] ∧ para.waitStartPlsn = 0) :
    Sound start [] line none 0 0 := by
  have hsorted : Sorted start start 0 [] := ⟨.nil, nofun, nofun, nofun⟩
  have hmark : Mark start 0 [] := ⟨nofun, Nat.zero_le _⟩
  have hlater : line.later = [] := by simp [WorkerLine.later, hunread, hheld]
  refine ⟨nofun, by rwa [hlater], fun tbsId para hlist => ?_, Nat.zero_le _, by rwa [hunread],
    nofun⟩
  obtain ⟨htbs, hempty, hwait⟩ := hlists tbsId para hlist
  rw [hempty, hwait, hlater]
  exact ⟨htbs, hsorted, hmark⟩

/-- What is not redone lies behind the mark. -/
lemma below (h : Sound start handed line redone mark syncer)
    (hentry : line.Waiting entry ∨ entry ∈ line.unread) (hredo : entry.isRedo) :
    mark < entry.recordEndPlsn := by
  rcases hentry with (⟨tbsId, hmem⟩ | hheld) | hunread
  · cases hlist : line.lists tbsId with
    | none => simp [waitingIn, hlist] at hmem
    | some para =>
      rw [waitingIn_of_list hlist] at hmem
      exact (h.lists tbsId para hlist).2.1.mark entry (mem_append_left _ hmem) hredo
  · exact h.later.mark entry (by simp [WorkerLine.later, hheld]) hredo
  · exact h.later.mark entry (mem_append_right _ hunread) hredo

/-- A line stays sound when records leave it. -/
lemma of_sublist {line' : WorkerLine} {syncer' : ℕ}
    (h : Sound start handed line redone mark syncer) (hknown : line'.Known handed)
    (hlater : line'.later.Sublist line.later) (hlists : line'.lists = line.lists)
    (hsyncer : Mark (topPlsn start handed) syncer' line'.unread) :
    Sound start handed line' redone mark syncer' := by
  refine ⟨hknown, h.later.sublist hlater, fun tbsId para hlist => ?_, h.markTop, hsyncer,
    fun plsn hplsn => (h.redone plsn hplsn).sublist hlater⟩
  obtain ⟨htbs, hsorted, hmark⟩ := h.lists tbsId para (hlists ▸ hlist)
  have hsub := hlater.append_left para.recordEntry
  exact ⟨htbs, hsorted.sublist hsub, hmark.sublist hsub⟩

section

variable (h : Sound start handed line redone mark syncer)
include h

section

variable (hunread : line.unread = entry :: rest) (hentry : entry.isRedo = false)
include hunread hentry

/-- A record that needs no redo may be skipped. -/
lemma skip {syncer' : ℕ} (hsyncer : Mark (topPlsn start handed) syncer' rest) :
    Sound start handed { line with unread := rest } redone mark syncer' := by
  refine h.of_sublist (h.known.skip hunread hentry) ?_ rfl hsyncer
  simp [WorkerLine.later, hunread]

/-- A syncer raises the mark that counts when nothing is left to do. -/
lemma readSyncer :
    Sound start handed { line with unread := rest } redone mark
      (max syncer entry.recordEndPlsn) := by
  have hsub : (entry :: rest).Sublist line.later := by simp [WorkerLine.later, hunread]
  have hhead := (h.later.sublist hsub).head
  have hold : Mark _ syncer rest := h.syncer.sublist (by simp [hunread])
  exact h.skip hunread hentry
    ⟨fun a ha hr => max_lt (hold.below a ha hr) (hhead.below a ha hr), max_le hold.le hhead.le⟩

/-- So may a barrier. -/
lemma barrier : Sound start handed { line with unread := rest } redone mark syncer :=
  h.skip hunread hentry (h.syncer.sublist (by simp [hunread]))

end

/-- A record may be held. -/
lemma hold (hheld : line.held = none) (hunread : line.unread = entry :: rest) :
    Sound start handed { line with held := some entry, unread := rest } redone mark syncer := by
  refine h.of_sublist (h.known.hold hheld hunread) ?_ rfl (h.syncer.sublist (by simp [hunread]))
  simp [WorkerLine.later, hheld, hunread]

/-- A record is redone at once. -/
lemma redoUnread (hheld : line.held = none) (hunread : line.unread = entry :: rest) :
    Sound start handed { line with unread := rest, applied := line.applied ++ [entry] } redone mark
      syncer := by
  refine h.of_sublist (h.known.redoUnread hunread) ?_ rfl (h.syncer.sublist (by simp [hunread]))
  simp [WorkerLine.later, hheld, hunread]

/-- A list may be replaced by a sorted one. -/
lemma setList {new : Option WalBatchRecoveryPara} (hknown : (line.setList tbsId new).Known handed)
    (hnew : ∀ para, new = some para → tbsId ≤ maxTablespaceId ∧
      Sorted start (topPlsn start handed) mark (para.recordEntry ++ line.later) ∧
      Mark (topPlsn start handed) para.waitStartPlsn (para.recordEntry ++ line.later)) :
    Sound start handed (line.setList tbsId new) redone mark syncer :=
  ⟨hknown, h.later, forall_lists_setList hnew h.lists, h.markTop, h.syncer, h.redone⟩

/-- `AddWalRecord` of the entry that is held. -/
lemma add (hheld : line.held = some entry)
    (tbsId capacity : ℕ) (hlist : line.lists tbsId = some para) :
    Sound start handed
      { line.setList tbsId (some ⟨para.recordEntry ++ [entry], capacity, para.waitStartPlsn⟩) with
        held := none } redone mark syncer := by
  have hlater : line.later = entry :: line.unread := by simp [WorkerLine.later, hheld]
  have hsub : line.unread.Sublist line.later := by simp [hlater]
  refine ⟨h.known.mono fun a _ hmem => ?_, h.later.sublist hsub,
    forall_lists_setList ?_ fun other para hlist => ?_, h.markTop, h.syncer,
    fun plsn hplsn => (h.redone plsn hplsn).sublist hsub⟩
  · rwa [waiting_add hheld hlist]
  · rintro _ ⟨⟩
    have hold := h.lists tbsId para hlist
    rw [hlater] at hold
    simpa [WorkerLine.later, WorkerLine.setList] using hold
  · obtain ⟨htbs, hsorted, hmark⟩ := h.lists other para hlist
    exact ⟨htbs, hsorted.sublist (hsub.append_left _), hmark.sublist (hsub.append_left _)⟩

/-- The first entry of a waiting list is redone. -/
lemma redo {wait wait' : ℕ} (hlist : line.lists tbsId = some ⟨entry :: rest, capacity, wait⟩)
    (hwait : wait' ≤ entry.recordEndPlsn) :
    Sound start handed { line.setList tbsId (some ⟨rest, capacity, wait'⟩) with
      applied := line.applied ++ [entry] } (some entry.recordEndPlsn) mark syncer := by
  obtain ⟨htbs, hsorted, -⟩ := h.lists tbsId _ hlist
  have hhead : Mark (topPlsn start handed) entry.recordEndPlsn (rest ++ line.later) :=
    hsorted.head
  refine ⟨h.known.redo rfl rfl fun a => waiting_redo hlist wait' _, h.later,
    forall_lists_setList ?_ h.lists, h.markTop, h.syncer, ?_⟩
  · rintro _ ⟨⟩
    exact ⟨htbs, hsorted.sublist (sublist_cons_self _ _),
      fun a ha hr => hwait.trans_lt (hhead.below a ha hr), hwait.trans hhead.le⟩
  · rintro _ ⟨⟩
    exact hhead.sublist (sublist_append_right _ _)

/-- The mark may be raised below all that is waiting. -/
lemma raise (hlater : Mark (topPlsn start handed) plsn line.later)
    (hlists : ∀ tbsId para, line.lists tbsId = some para → BelowRecords plsn para.recordEntry) :
    Sound start handed line redone (max mark plsn) syncer := by
  refine ⟨h.known, h.later.raise hlater.below, fun tbsId para hlist => ?_,
    max_le h.markTop hlater.le, h.syncer, h.redone⟩
  obtain ⟨htbs, hsorted, hmark⟩ := h.lists tbsId para hlist
  exact ⟨htbs, hsorted.raise (below_append.2 ⟨hlists tbsId para hlist, hlater.below⟩), hmark⟩

/-- The plsn noted by the batch may be dropped. -/
lemma forget : Sound start handed line none mark syncer :=
  ⟨h.known, h.later, h.lists, h.markTop, h.syncer, nofun⟩

/-- One more entry is handed out. -/
lemma put (hle : topPlsn start handed ≤ entry.recordEndPlsn)
    (hlt : entry.isRedo → topPlsn start handed < entry.recordEndPlsn) :
    Sound start (handed ++ [entry]) { line with unread := line.unread ++ [entry] } redone mark
      syncer := by
  have hstart := le_topPlsn start handed
  have hlater : { line with unread := line.unread ++ [entry] }.later = line.later ++ [entry] := by
    simp [WorkerLine.later]
  constructor
  · exact h.known.put entry
  · rw [topPlsn_append_singleton, hlater]
    exact h.later.put hstart h.markTop hle hlt
  · intro tbsId para hlist
    obtain ⟨htbs, hsorted, hmark⟩ := h.lists tbsId para hlist
    rw [topPlsn_append_singleton, hlater, ← append_assoc]
    exact ⟨htbs, hsorted.put hstart h.markTop hle hlt, hmark.put hlt⟩
  · rw [topPlsn_append_singleton]
    exact le_max_of_le_left h.markTop
  · rw [topPlsn_append_singleton]
    exact h.syncer.put hlt
  · rw [topPlsn_append_singleton, hlater]
    exact fun plsn hplsn => (h.redone plsn hplsn).put hlt

end

end Sound

end RedoMarks

open RedoMarks

/-! ## The page worker -/

namespace ParallelPageRedoWorker

/-- The marks of the worker are sound. -/
def Marked (start : ℕ) (handed put : List RedoWalRecordEntry) (worker : ParallelPageRedoWorker) :
    Prop :=
  Sound start handed (worker.line put) worker.redone worker.maxRedoPlsn worker.maxPlsnSyncer

variable {start : ℕ} {handed put rest : List RedoWalRecordEntry} {entry : RedoWalRecordEntry}
  {worker worker' : ParallelPageRedoWorker} {cfg : RedoConfig} {record : RedoWalRecord}

lemma recordEntry_eq {tbsId : ℕ} {para : WalBatchRecoveryPara}
    (hlist : (worker.line put).lists tbsId = some para) : para.recordEntry = worker.batch := by
  simp only [line, Function.update_apply] at hlist
  grind

/-- Adding a record to the batch keeps a page worker sound. -/
lemma Marked.add (h : worker.Marked start handed put) (hfetched : worker.fetched = entry :: rest) :
    (worker.addWalRecord entry record rest).Marked start handed put := by
  rw [Marked, line_addWalRecord]
  exact (h.hold rfl (line_unread put hfetched)).add rfl 0 0 (worker.line_lists put)

/-- So does marking a redone batch. -/
lemma Marked.marked (h : worker.Marked start handed put) (hbatch : worker.batch = []) :
    worker.marked.Marked start handed put := by
  have hmark : Mark (topPlsn start handed) (worker.redone.getD 0) (worker.line put).later := by
    cases hredone : worker.redone with
    | none => exact ⟨fun a ha hr => (Nat.zero_le _).trans_lt (h.later.start a ha hr), Nat.zero_le _⟩
    | some plsn => exact h.redone plsn hredone
  refine (h.raise hmark fun tbsId para hlist => ?_).forget
  rw [recordEntry_eq hlist, hbatch]
  exact nofun

/-- A step of a page worker keeps its marks sound. -/
lemma Marked.step (h : worker.Marked start handed put) (hturn : (RedoWorker.page worker).Turn)
    (hstep : Steps cfg worker worker') : worker'.Marked start handed put := by
  cases hstep with
  | getN num hmode =>
    obtain ⟨hfetched, hbatch⟩ := hturn.1 hmode
    have hs := h.forget
    simp only [Marked, line, hfetched, hbatch, nil_append] at hs ⊢
    rwa [← append_assoc, take_append_drop]
  | noRecord hmode hqueue =>
    refine h.raise h.syncer fun tbsId para hlist => ?_
    rw [recordEntry_eq hlist, (hturn.1 hmode).2]
    rintro _ ⟨⟩
  | lastBatch hmode hfetched => exact h
  | batchEnds hmode hfetched hrecord hentry => exact h
  | syncer hmode hfetched hentry =>
    exact h.readSyncer (line_unread put hfetched) (by simp [isRedo, hentry])
  | barrier hmode hfetched hentry =>
    exact h.barrier (line_unread put hfetched)
      (isRedo_eq_false_of_isBarrier hentry)
  | add hmode hfetched hrecord hentry hends => exact h.add hfetched
  | @redo entry rest hmode hbatch =>
    rw [Marked, line_redo]
    exact h.redo (hbatch ▸ worker.line_lists put) (Nat.zero_le _)
  | finishTurn hmode hbatch hfetched => exact h.marked hbatch
  | finishBatch hmode hbatch hfetched hrecord => exact (h.marked hbatch).add hfetched

end ParallelPageRedoWorker

/-! ## The DDL worker -/

namespace ParallelDDLRedoWorker

/-- The marks of the worker are sound. -/
def Marked (start : ℕ) (handed put : List RedoWalRecordEntry) (worker : ParallelDDLRedoWorker) :
    Prop :=
  Sound start handed (worker.line put) worker.mode.redone worker.maxRedoPlsn worker.maxPlsnSyncer

variable {start plsn mark syncer : ℕ} {handed put rest : List RedoWalRecordEntry}
  {entry : RedoWalRecordEntry} {worker worker' : ParallelDDLRedoWorker} {cfg : RedoConfig}
  {tbsId : ℕ} {redone : Option ℕ} {action : WorkerAction}

/-- A fold that never rises ends below the bounds of all its steps. -/
lemma foldl_clamps {step : ℕ → ℕ → ℕ} (hstep : ∀ plsn id, step plsn id ≤ plsn) (ids : List ℕ)
    (plsn : ℕ) : ids.foldl step plsn ≤ plsn ∧ ∀ id ∈ ids, ∀ bound,
      (∀ plsn, step plsn id ≤ bound) → ids.foldl step plsn ≤ bound := by
  induction ids generalizing plsn with
  | nil => simp
  | cons id ids ih =>
    rw [foldl_cons]
    refine ⟨(ih _).1.trans (hstep plsn id), fun other hmem bound hbound => ?_⟩
    rcases mem_cons.1 hmem with rfl | hmem
    · exact (ih _).1.trans (hbound plsn)
    · exact (ih _).2 other hmem bound hbound

/-- The mark is held back at every waiting list. -/
lemma clampToWaiting_le (worker : ParallelDDLRedoWorker) (plsn : ℕ) :
    worker.clampToWaiting plsn ≤ plsn ∧ ∀ tbsId ≤ maxTablespaceId, ∀ para,
      worker.tbsRedoWaitingList tbsId = some para →
        worker.clampToWaiting plsn ≤ para.waitStartPlsn := by
  unfold clampToWaiting
  refine (foldl_clamps ?_ _ plsn).imp_right fun hbound tbsId htbs para hpara =>
    hbound tbsId (mem_range.2 (Nat.lt_add_one_of_le htbs)) _ fun plsn => ?_
  · intro plsn tbsId
    cases worker.tbsRedoWaitingList tbsId with
    | none => exact le_rfl
    | some para => exact min_le_left _ _
  · rw [hpara]
    exact min_le_right _ _

/-- The mark that a DDL worker takes is sound. -/
lemma clamp (worker : ParallelDDLRedoWorker)
    (h : Sound start handed (worker.line put) redone worker.maxRedoPlsn syncer)
    (hlater : Mark (topPlsn start handed) plsn (worker.line put).later)
    (hmark : mark = worker.maxRedoPlsn ∨
      mark = max worker.maxRedoPlsn (worker.clampToWaiting plsn)) :
    Sound start handed (worker.line put) redone mark syncer := by
  rcases hmark with rfl | rfl
  · exact h
  · obtain ⟨hle, hlists⟩ := worker.clampToWaiting_le plsn
    refine h.raise ⟨fun a ha hr => hle.trans_lt (hlater.below a ha hr), hle.trans hlater.le⟩
      fun tbsId para hlist a ha hr => ?_
    obtain ⟨htbs, -, hwait⟩ := h.lists tbsId para hlist
    exact (hlists tbsId htbs para hlist).trans_lt
      (hwait.below a (mem_append_left _ ha) hr)

/-- The loop has reached a record of a tablespace. -/
lemma Marked.openList (h : worker.Marked start handed put) (hmode : worker.mode = .loop)
    (hfetched : worker.fetched = entry :: rest) (hstart : start = cfg.recoveryStartPlsn)
    (htbs : tbsId ≤ maxTablespaceId) {mode : DDLRedoMode} (hheld : mode.held = some entry)
    (hredone : mode.redone = none) :
    { worker.openList cfg tbsId rest with mode := mode }.Marked start handed put := by
  have hhold := (h.hold (by simp [line, hmode, DDLRedoMode.held]) (line_unread put hfetched)).forget
  rw [Marked, line_openList cfg tbsId hheld, hredone]
  refine hhold.setList (hhold.known.mono fun a _ hmem => ?_) ?_
  · rwa [waiting_congr (waitingIn_openList cfg _ rfl tbsId) rfl]
  · rintro _ ⟨⟩
    cases hold : worker.tbsRedoWaitingList tbsId with
    | none =>
      simp only [waitingListFor, hold, Option.getD_none, nil_append, ← hstart]
      exact ⟨htbs, hhold.later, hhold.later.start, le_topPlsn start handed⟩
    | some para =>
      simp only [waitingListFor, hold, Option.getD_some]
      exact hhold.lists tbsId para hold

/-- A step of the DDL worker keeps its marks sound. -/
lemma Marked.step (h : worker.Marked start handed put) (hturn : (RedoWorker.ddl worker).Turn)
    (hstart : start = cfg.recoveryStartPlsn) (hstep : Steps cfg worker action worker') :
    worker'.Marked start handed put := by
  cases hstep with
  | getN num hmode =>
    have hfetched : worker.fetched = [] := hturn (by rw [hmode]; rfl)
    simp only [Marked, line, hfetched, hmode, nil_append] at h ⊢
    rwa [← append_assoc, take_append_drop]
  | noRecord hmode hqueue hwaits =>
    obtain ⟨mark, hmark, hmax⟩ := updateMaxRedoPlsn_eq worker worker.maxPlsnSyncer
    rw [hmark]
    refine clamp worker h ?_ hmax
    simpa [later, line, hmode, DDLRedoMode.held] using h.syncer
  | scan tbsId hmode hqueue hwaits | noList hmode hfetched hlist | lastBatch hmode hfetched hlist =>
    simpa [Marked, line, hmode, DDLRedoMode.held, DDLRedoMode.redone] using h
  | syncer hmode hfetched hentry =>
    exact h.readSyncer (line_unread put hfetched) (by simp [isRedo, hentry])
  | barrier hmode hfetched hentry =>
    exact h.barrier (line_unread put hfetched)
      (isRedo_eq_false_of_isBarrier hentry)
  | @relmap entry rest hmode hfetched hentry =>
    have hheld : (worker.line put).held = none := by simp [line, hmode, DDLRedoMode.held]
    obtain ⟨mark, hmark, hmax⟩ := updateMaxRedoPlsn_eq
      { worker with fetched := rest, applied := worker.applied ++ [entry] } entry.recordEndPlsn
    rw [ParallelDDLRedoWorker.relmap, hmark]
    have hlater := h.later
    rw [later, hheld, line_unread put hfetched] at hlater
    refine clamp { worker with fetched := rest, applied := worker.applied ++ [entry] }
      (h.redoUnread hheld (line_unread put hfetched)) ?_ hmax
    simpa [later, line, hmode, DDLRedoMode.held] using hlater.head
  | batchEnds hmode hfetched hrecord hentry htbs hends =>
    exact h.openList hmode hfetched hstart htbs rfl rfl
  | noBatch hmode hfetched hrecord hentry htbs hends =>
    exact h.openList hmode hfetched hstart htbs rfl rfl
  | @redo entry rest tbsId redone next capacity wait hmode hlist =>
    have hredo := h.redo hlist le_rfl
    have hheld : worker.mode.held = (DDLRedoMode.redo tbsId (some entry.recordEndPlsn) next).held :=
      hmode ▸ held_redo ..
    simp only [line, setList, hheld] at hredo
    exact hredo
  | finishNone hmode hlist hleft =>
    have hforget := h.forget
    simp only [line, hmode, ← held_nextMode] at hforget
    simpa [Marked, line] using hforget
  | @finishSome tbsId plsn next para hmode hlist hleft =>
    obtain ⟨mark, hmark, hmax⟩ := marked_eq worker tbsId plsn next para.recordEntry
    have hclamp := (clamp worker h (h.redone plsn (by simp [hmode, DDLRedoMode.redone]))
      hmax).forget
    have hheld : worker.mode.held = (nextMode next).held := by rw [hmode, held_nextMode]
    rw [hmark, Marked]
    simp only [redone_nextMode, line, ← hheld]
    split_ifs with hempty
    · exact hclamp.setList (hclamp.known.mono fun a _ hmem => by
        rwa [waiting_congr (waitingIn_clear hlist hempty) rfl])
        (by rintro _ ⟨⟩)
    · exact hclamp
  | @add entry para capacity hmode hlist =>
    have hheld : (worker.line put).held = some entry := by simp [line, hmode, DDLRedoMode.held]
    exact h.forget.add hheld _ capacity hlist

end ParallelDDLRedoWorker

/-! ## Both kinds -/

namespace RedoWorker

/-- The end of the last entry redone of the batch the worker is in. -/
def redone : RedoWorker → Option ℕ
  | .page worker => worker.redone
  | .ddl worker => worker.mode.redone

/-- The marks of the worker are sound. -/
structure Marked (start : ℕ) (handed put : List RedoWalRecordEntry)
    (worker : RedoWorker) : Prop where
  turn : worker.Turn
  sound : Sound start handed (worker.line put) worker.redone worker.base.maxRedoPlsn
    worker.base.maxPlsnSyncer

variable {cfg : RedoConfig} {action : WorkerAction} {worker worker' : RedoWorker} {start : ℕ}
  {handed put : List RedoWalRecordEntry} {entry : RedoWalRecordEntry}

lemma line_applied (worker : RedoWorker) (put : List RedoWalRecordEntry) :
    (worker.line put).applied = worker.base.applied := by
  cases worker <;> rfl

/-- The mark of a worker lies below every record it has not redone. -/
lemma Marked.done (h : worker.Marked start handed put) (hentry : entry ∈ handed)
    (hredo : entry.isRedo) (hle : entry.recordEndPlsn ≤ worker.base.maxRedoPlsn) :
    entry ∈ worker.base.applied := by
  rw [← line_applied worker put]
  exact (h.sound.known entry hentry hredo).resolve_right fun hmem =>
    absurd hle (not_le.2 (h.sound.below hmem hredo))

/-- A new worker is sound. -/
lemma Marked.init (ddl : Prop) [Decidable ddl] :
    (if ddl then .ddl .init else .page .init : RedoWorker).Marked start [] [] := by
  split
  · exact ⟨fun _ => rfl, Sound.init rfl rfl nofun⟩
  · refine ⟨⟨fun _ => ⟨rfl, rfl⟩, nofun⟩, Sound.init rfl rfl fun tbsId para hlist => ?_⟩
    simp only [line, ParallelPageRedoWorker.line, Function.update_apply] at hlist
    grind [ParallelPageRedoWorker.init]

lemma Marked.step (h : worker.Marked cfg.recoveryStartPlsn handed put)
    (hstep : worker.step cfg action = some worker') :
    worker'.Marked cfg.recoveryStartPlsn handed put := by
  refine ⟨h.turn.step hstep, ?_⟩
  obtain ⟨old, new, rfl, rfl, hsteps⟩ | ⟨old, new, rfl, rfl, hsteps⟩ := step_cases hstep
  · exact ParallelPageRedoWorker.Marked.step h.sound h.turn hsteps
  · exact ParallelDDLRedoWorker.Marked.step h.sound h.turn rfl hsteps

/-- So does appending the batch. -/
lemma Marked.append (h : worker.Marked start handed put) :
    (worker.appendWalRecord put).Marked start handed [] := by
  have hline := worker.line_append put
  cases worker <;> exact ⟨h.turn, by rw [hline]; exact h.sound⟩

/-- So does handing out a later record. -/
lemma Marked.handOut (h : worker.Marked start handed put)
    (hle : topPlsn start handed ≤ entry.recordEndPlsn)
    (hlt : entry.isRedo → topPlsn start handed < entry.recordEndPlsn) :
    worker.Marked start (handed ++ [entry]) (put ++ [entry]) :=
  ⟨h.turn, by rw [line_put]; exact h.sound.put hle hlt⟩

end RedoWorker

end DStore
