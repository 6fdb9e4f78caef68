import DStore.Heap.Undo

/-!
# Rollback of a transaction

`RollbackUndoRecords` takes the undo records of a transaction back, newest first. The change of a
page and the move of the slot's tail pointer to the next record are logged as one group. A run may
stop after any group; rollback then starts again at the record the slot names.

`SetSlotUndoPtr` fails only when it cannot lock the slot's page while `m_currentTxnSlotBuf` already
names it. Every function that pins the page also releases it, so this never happens.

The pages of indexes and what rollback does to them are left open.
-/

namespace DStore

open List Function

/-- A page in the buffer, by its type. -/
inductive BufferPage (Index : Type) where
  | heap (page : DataPage)
  | indexLeaf (page : Index)
  | other

/-- The pages that can be read. -/
abbrev BufferPages (Index : Type) := PageId → Option (BufferPage Index)

/-- An undo record of a transaction, and whether it is of a global temporary table. -/
structure TxnUndoRecord where
  record : UndoRecord
  globalTemp : Bool
deriving DecidableEq, Repr

namespace TxnUndoRecord

/-- `IsBtreeUndoRecord`. -/
def isBtree (undoRec : TxnUndoRecord) : Bool := undoRec.record.data = .btree

/-- `IsPageTypeMatchUndoRecordType`. -/
def matchesPage {Index : Type} (undoRec : TxnUndoRecord) : BufferPage Index → Bool
  | .heap _ => !undoRec.isBtree
  | .indexLeaf _ => undoRec.isBtree
  | .other => false

end TxnUndoRecord

open TxnUndoRecord

/-! ## The page of the slot -/

/-- What a call that needs the page of a slot meets: whether `Read` gives its buffer, and whether
`LockContent` locks it. -/
structure SlotBufCall where
  read : Bool
  locked : Bool

/-- `PinAndLockTxnSlotBuf`, with `m_currentTxnSlotBuf` by its page. `ReadTxnSlotPageBuf` ends the
process when it gets no buffer. -/
def pinAndLockTxnSlotBuf (call : SlotBufCall) (pageId : PageId) :
    Option PageId → Option (RetStatus × Option PageId)
  | none => if call.read then some (.succ, some pageId) else none
  | some current =>
    if current ≠ pageId then if call.read then some (.succ, some pageId) else none
    else if call.locked = false then some (.fail, some current)
    else some (.succ, some current)

/-- `AllocSlot`, `Commit` and `SetSlotUndoPtr`, as far as the page goes: it is pinned, changed, and
released by `UnlockAndReleaseTxnSlotPageBuf`, which clears `m_currentTxnSlotBuf`. -/
def useTxnSlotBuf (call : SlotBufCall) (pageId : PageId) (currentTxnSlotBuf : Option PageId) :
    Option (RetStatus × Option PageId) := do
  let (status, currentTxnSlotBuf) ← pinAndLockTxnSlotBuf call pageId currentTxnSlotBuf
  if status = .fail then return (.fail, currentTxnSlotBuf)
  return (.succ, none)

/-- From a cleared `m_currentTxnSlotBuf` no call fails, and it is cleared again. -/
lemma useTxnSlotBuf_none (call : SlotBufCall) (pageId : PageId) :
    useTxnSlotBuf call pageId none = if call.read then some (.succ, none) else none := by
  unfold useTxnSlotBuf pinAndLockTxnSlotBuf
  cases call.read <;> rfl

/-! ## The loop -/

/-- The transaction that is rolled back, the page of its slot, and the rollback of an index record:
the search for its page, the check of the TD and `UndoBtree`. -/
structure RollbackEnv (Index : Type) where
  xid : Xid
  slotPageId : PageId
  rollbackIndex : BufferPages Index → UndoRecord → Option (BufferPages Index)

/-- What one record comes to: its file is gone, its page was reused, no context for an index record,
a release panic, or the page is dealt with. -/
inductive PageRollback (Index : Type) where
  | fileNotExists
  | pageReused
  | noContext
  | panic
  | done (pages : BufferPages Index)

namespace RollbackEnv

variable {Index : Type} (env : RollbackEnv Index)

/-- The rollback of a heap page: it is skipped if it has been done earlier. -/
def rollbackHeap (page : DataPage) (record : UndoRecord) : Option DataPage :=
  if record.tdId ≠ invalidTdSlot ∧ (page.getTd record.tdId).xid = env.xid then page.undoHeap record
  else some page

/-- One turn of the loop up to `SetSlotUndoPtr`, on the pages of the buffer of the record. -/
def rollbackPage (pages : BufferPages Index) (undoRec : TxnUndoRecord) : PageRollback Index :=
  match pages undoRec.record.ctid.pageId with
  | none => .fileNotExists
  | some page =>
    if undoRec.matchesPage page then
      match page with
      | .heap page =>
        match env.rollbackHeap page undoRec.record with
        | none => .panic
        | some page =>
          .done (update pages undoRec.record.ctid.pageId (some (.heap page)))
      | _ =>
        match env.rollbackIndex pages undoRec.record with
        | none => .noContext
        | some pages => .done pages
    else .pageReused

end RollbackEnv

/-- The pages of both buffers, the records from the tail pointer of the slot on, and
`m_currentTxnSlotBuf`. -/
structure RollbackState (Index : Type) where
  shared : BufferPages Index
  temp : BufferPages Index
  tail : List TxnUndoRecord
  currentTxnSlotBuf : Option PageId

/-- The end of a run: what it returns, if it was not stopped, and whether a call of `SetSlotUndoPtr`
failed. -/
structure RollbackResult (Index : Type) where
  state : RollbackState Index
  status : Option RetStatus
  failed : Bool

namespace RollbackEnv

variable {Index : Type} (env : RollbackEnv Index)

/-- `SetSlotUndoPtr` to the record before; nothing when the process ends. -/
def setSlotUndoPtr (call : SlotBufCall) (tail : List TxnUndoRecord) (state : RollbackState Index) :
    Option (RetStatus × RollbackState Index) :=
  match useTxnSlotBuf call env.slotPageId state.currentTxnSlotBuf with
  | none => none
  | some (.fail, buf) => some (.fail, { state with currentTxnSlotBuf := buf })
  | some (.succ, buf) => some (.succ, { state with tail := tail, currentTxnSlotBuf := buf })

/-- The loop of `RollbackUndoRecords` over the records still to come. `calls` says for each turn
what `SetSlotUndoPtr` meets; the run is stopped when there is no more of it, and by a panic, which
leaves nothing of the turn's group. -/
def rollbackLoop (isRecovery : Bool) : List SlotBufCall → List TxnUndoRecord →
    RollbackState Index → RetStatus → Bool → RollbackResult Index
  | _, [], state, status, failed => ⟨state, some status, failed⟩
  | [], _ :: _, state, _, failed => ⟨state, none, failed⟩
  | call :: calls, undoRec :: rest, state, _, failed =>
    if undoRec.globalTemp ∧ isRecovery then
      match env.setSlotUndoPtr call rest state with
      | none => ⟨state, none, failed⟩
      | some (.fail, state) => ⟨state, some .fail, true⟩
      | some (.succ, state) => rollbackLoop isRecovery calls rest state .succ failed
    else
      match env.rollbackPage (if undoRec.globalTemp then state.temp else state.shared) undoRec with
      | .fileNotExists =>
        if isRecovery then rollbackLoop isRecovery calls rest state .succ failed
        else ⟨state, none, failed⟩
      | .pageReused => rollbackLoop isRecovery calls rest state .succ failed
      | .noContext => ⟨state, some .fail, failed⟩
      | .panic => ⟨state, none, failed⟩
      | .done pages =>
        match env.setSlotUndoPtr call rest (if undoRec.globalTemp then { state with temp := pages }
          else { state with shared := pages }) with
        | none => ⟨state, none, failed⟩
        -- the status of a failed call is overwritten by `FetchUndoRecord` in the next turn
        | some (.fail, state) => rollbackLoop isRecovery calls rest state .fail true
        | some (.succ, state) => rollbackLoop isRecovery calls rest state .succ failed

/-- `RollbackUndoRecords` from the tail pointer of the slot. -/
def rollbackUndoRecords (isRecovery : Bool) (calls : List SlotBufCall)
    (state : RollbackState Index) :
    RollbackResult Index :=
  env.rollbackLoop isRecovery calls state.tail state .succ false

/-- A run that is not stopped. -/
def uninterrupted (isRecovery : Bool) (state : RollbackState Index) : RollbackResult Index :=
  env.rollbackUndoRecords isRecovery (List.replicate state.tail.length ⟨true, true⟩) state

variable {env} {pages pages' : BufferPages Index} {undoRec : TxnUndoRecord}
  {rest next : List TxnUndoRecord} {state : RollbackState Index}

/-- With `m_currentTxnSlotBuf` cleared, the pointer moves. -/
lemma setSlotUndoPtr_eq (call : SlotBufCall) (tail : List TxnUndoRecord)
    (state : RollbackState Index)
    (h : state.currentTxnSlotBuf = none) :
    env.setSlotUndoPtr call tail state =
      if call.read then some (.succ, { state with tail := tail }) else none := by
  obtain ⟨shared, temp, old, buf⟩ := state
  obtain rfl : buf = none := h
  unfold setSlotUndoPtr
  rw [useTxnSlotBuf_none]
  cases call.read <;> rfl

/-! ## What is left to do -/

variable (env) in
/-- What the records still to come make of the shared pages. -/
def remaining : List TxnUndoRecord → BufferPages Index → Option (BufferPages Index)
  | [], pages => some pages
  | undoRec :: rest, pages =>
    if undoRec.globalTemp then remaining rest pages
    else
      match env.rollbackPage pages undoRec with
      | .fileNotExists | .pageReused => remaining rest pages
      | .noContext | .panic => none
      | .done pages => remaining rest pages

/-- A record does not find its page: the file is gone, or the page is of another type. -/
def PageGone (pages : BufferPages Index) (undoRec : TxnUndoRecord) : Prop :=
  ∀ page, pages undoRec.record.ctid.pageId = some page → undoRec.matchesPage page = false

/-- A page is gone if its file is, or if it is used for something else. -/
lemma pageGone_iff : PageGone pages undoRec ↔ env.rollbackPage pages undoRec = .fileNotExists ∨
    env.rollbackPage pages undoRec = .pageReused := by
  unfold PageGone rollbackPage
  cases hread : pages undoRec.record.ctid.pageId with
  | none => simp
  | some page =>
    by_cases hmatch : undoRec.matchesPage page
    · simp only [hmatch, if_true, Option.some.injEq, forall_eq']
      cases page with
      | heap page => cases hroll : env.rollbackHeap page undoRec.record <;> simp [hroll]
      | indexLeaf page => cases env.rollbackIndex pages undoRec.record <;> simp
      | other => cases hmatch
    · simp [hmatch]

/-- Skipping a record leaves the same work. -/
lemma remaining_skip (h : undoRec.globalTemp = true ∨ PageGone pages undoRec) :
    env.remaining (undoRec :: rest) pages = env.remaining rest pages := by
  rw [RollbackEnv.remaining]
  split_ifs with htemp
  · rfl
  · rcases pageGone_iff.1 (h.resolve_left htemp) with hpage | hpage <;> rw [hpage]

/-- So does skipping several. -/
lemma remaining_append {skipped : List TxnUndoRecord}
    (h : ∀ undoRec ∈ skipped, undoRec.globalTemp = true ∨ PageGone pages undoRec) :
    env.remaining (skipped ++ rest) pages = env.remaining rest pages := by
  induction skipped with
  | nil => rfl
  | cons first skipped ih =>
    rw [cons_append, remaining_skip (h first mem_cons_self)]
    exact ih fun other hother => h other (mem_cons_of_mem _ hother)

/-- Rolling back one record leaves the rest of the work. -/
lemma remaining_done (htemp : undoRec.globalTemp = false)
    (hpage : env.rollbackPage pages undoRec = .done pages') :
    env.remaining (undoRec :: rest) pages = env.remaining rest pages' := by
  rw [RollbackEnv.remaining, htemp, if_neg Bool.false_ne_true, hpage]

/-! ## One run -/

/-- The records between the tail pointer and the next record have no page. -/
def Resumable (state : RollbackState Index) (next : List TxnUndoRecord) : Prop :=
  ∃ skipped, state.tail = skipped ++ next ∧
    ∀ undoRec ∈ skipped, undoRec.globalTemp = true ∨ PageGone state.shared undoRec

lemma Resumable.refl (state : RollbackState Index) : Resumable state state.tail :=
  ⟨[], rfl, nofun⟩

/-- A rollback may still be resumed after a skipped record. -/
lemma Resumable.skip (h : Resumable state (undoRec :: rest))
    (hskip : undoRec.globalTemp ∨ PageGone state.shared undoRec) : Resumable state rest := by
  obtain ⟨skipped, htail, hskipped⟩ := h
  refine ⟨skipped ++ [undoRec], by rw [htail, append_assoc]; rfl, fun other hother => ?_⟩
  rcases mem_append.1 hother with hother | hother
  · exact hskipped other hother
  · rw [mem_singleton.1 hother]
    exact hskip

/-- Resuming does the same work. -/
lemma Resumable.remaining (h : Resumable state next) :
    env.remaining state.tail state.shared = env.remaining next state.shared := by
  obtain ⟨skipped, htail, hskipped⟩ := h
  rw [htail]
  exact remaining_append hskipped

/-- What a run keeps: what is left to do, a cleared `m_currentTxnSlotBuf`, and that no call
failed. -/
structure RunKept (env : RollbackEnv Index) (left : Option (BufferPages Index))
    (result : RollbackResult Index) : Prop where
  remaining : env.remaining result.state.tail result.state.shared = left
  cleared : result.state.currentTxnSlotBuf = none
  failed : result.failed = false

lemma rollbackLoop_nil (isRecovery : Bool) (calls : List SlotBufCall) (state : RollbackState Index)
    (status : RetStatus) (failed : Bool) :
    env.rollbackLoop isRecovery calls [] state status failed = ⟨state, some status, failed⟩ := by
  cases calls <;> rfl

section Turn

variable (env : RollbackEnv Index) (isRecovery : Bool) (call : SlotBufCall)
  (calls : List SlotBufCall)
  (undoRec : TxnUndoRecord) (rest : List TxnUndoRecord) (state : RollbackState Index)

/-- How the run goes on after one turn. -/
inductive Turn : RollbackResult Index → Prop
  | ended {status : Option RetStatus} (hstatus : status ≠ some .succ)
    (hleft : isRecovery = true → call.read = true →
      env.remaining (undoRec :: rest) state.shared = none) :
    Turn ⟨state, status, false⟩
  | skipped (hgone : undoRec.globalTemp = true ∨ PageGone state.shared undoRec) :
    Turn (env.rollbackLoop isRecovery calls rest state .succ false)
  /-- `SetSlotUndoPtr` moves the pointer. -/
  | moved (state' : RollbackState Index) (hcleared : state'.currentTxnSlotBuf = none)
    (hleft : env.remaining (undoRec :: rest) state.shared = env.remaining rest state'.shared) :
    Turn (env.rollbackLoop isRecovery calls rest { state' with tail := rest } .succ false)

variable {state}

/-- One turn of the loop skips the record, stops, fails or rolls the record back. -/
lemma rollbackLoop_turn (hcleared : state.currentTxnSlotBuf = none) (status : RetStatus) :
    Turn env isRecovery call calls undoRec rest state
      (env.rollbackLoop isRecovery (call :: calls) (undoRec :: rest) state status false) := by
  rw [RollbackEnv.rollbackLoop]
  have hskip : undoRec.globalTemp → env.remaining (undoRec :: rest) state.shared =
      env.remaining rest state.shared := fun htemp => remaining_skip (Or.inl htemp)
  by_cases hrecovery : undoRec.globalTemp = true ∧ isRecovery = true
  -- recovery leaves temporary tables alone and moves on
  · rw [if_pos hrecovery, setSlotUndoPtr_eq call rest state hcleared]
    cases hread : call.read with
    | true => exact .moved state hcleared (hskip hrecovery.1)
    | false => exact .ended nofun fun _ h => absurd (hread.symm.trans h) (by decide)
  rw [if_neg hrecovery]
  by_cases htemp : undoRec.globalTemp = true
  · -- the page is in the buffer of the session
    have hnormal : isRecovery ≠ true := fun hrec => hrecovery ⟨htemp, hrec⟩
    simp only [if_pos htemp]
    cases hpage : env.rollbackPage state.temp undoRec with
    | fileNotExists =>
      dsimp only
      rw [if_neg hnormal]
      exact .ended nofun fun hrec => absurd hrec hnormal
    | pageReused => exact .skipped (Or.inl htemp)
    | noContext => exact .ended nofun fun hrec => absurd hrec hnormal
    | panic => exact .ended nofun fun hrec => absurd hrec hnormal
    | done pages =>
      dsimp only
      rw [setSlotUndoPtr_eq call rest { state with temp := pages } hcleared]
      cases call.read with
      | true => exact .moved { state with temp := pages } hcleared (hskip htemp)
      | false => exact .ended nofun fun hrec => absurd hrec hnormal
  -- a page of all sessions
  · have htemp' : undoRec.globalTemp = false := Bool.eq_false_of_not_eq_true htemp
    simp only [if_neg htemp]
    have hnone : ∀ result, env.rollbackPage state.shared undoRec = result →
        (result = .noContext ∨ result = .panic) →
        env.remaining (undoRec :: rest) state.shared = none := by
      intro result hpage hresult
      rw [RollbackEnv.remaining, if_neg htemp, hpage]
      rcases hresult with rfl | rfl <;> rfl
    cases hpage : env.rollbackPage state.shared undoRec with
    | fileNotExists =>
      dsimp only
      split
      · exact .skipped (Or.inr (pageGone_iff.2 (Or.inl hpage)))
      next hnormal => exact .ended nofun fun hrec => absurd hrec hnormal
    | pageReused => exact .skipped (Or.inr (pageGone_iff.2 (Or.inr hpage)))
    | noContext => exact .ended nofun fun _ _ => hnone _ hpage (Or.inl rfl)
    | panic => exact .ended nofun fun _ _ => hnone _ hpage (Or.inr rfl)
    | done pages =>
      dsimp only
      rw [setSlotUndoPtr_eq call rest { state with shared := pages } hcleared]
      cases hread : call.read with
      | true => exact .moved { state with shared := pages } hcleared (remaining_done htemp' hpage)
      | false => exact .ended nofun fun _ h => absurd (hread.symm.trans h) (by decide)

end Turn

variable {isRecovery : Bool}

/-- A run keeps what is left to do, from any turn on, and its calls do not fail. -/
lemma rollbackLoop_kept {calls : List SlotBufCall} {status : RetStatus}
    (hresume : Resumable state next)
    (hcleared : state.currentTxnSlotBuf = none) :
    RunKept env (env.remaining next state.shared)
      (env.rollbackLoop isRecovery calls next state status false) := by
  induction next generalizing calls state status with
  | nil =>
    rw [rollbackLoop_nil]
    exact ⟨hresume.remaining, hcleared, rfl⟩
  | cons undoRec rest ih =>
    cases calls with
    | nil => exact ⟨hresume.remaining, hcleared, rfl⟩
    | cons call calls =>
      have hturn := env.rollbackLoop_turn isRecovery call calls undoRec rest hcleared status
      generalize env.rollbackLoop isRecovery (call :: calls) (undoRec :: rest) state status false =
        result at hturn ⊢
      cases hturn with
      | ended _ _ => exact ⟨hresume.remaining, hcleared, rfl⟩
      | skipped hgone =>
        rw [remaining_skip hgone]
        exact ih (hresume.skip hgone) hcleared
      | moved state' hcleared' hleft =>
        rw [hleft]
        exact ih (Resumable.refl { state' with tail := rest }) hcleared'

/-! ## Runs one after another -/

/-- Runs that are stopped anywhere, each starting at the record the slot names, in recovery or not.
In between the zone may allocate slots and commit, and the process may start again. -/
inductive Attempts (env : RollbackEnv Index) (start : RollbackState Index) :
    RollbackState Index → Prop
  | refl : Attempts env start start
  | run {state : RollbackState Index} (h : Attempts env start state) (isRecovery : Bool)
      (calls : List SlotBufCall) :
      Attempts env start (env.rollbackUndoRecords isRecovery calls state).state
  | slot {state : RollbackState Index} (h : Attempts env start state) {call : SlotBufCall}
      {pageId : PageId} {status : RetStatus} {buf : Option PageId}
      (hcall : useTxnSlotBuf call pageId state.currentTxnSlotBuf = some (status, buf)) :
      Attempts env start { state with currentTxnSlotBuf := buf }
  | restart {state : RollbackState Index} (h : Attempts env start state)
      (temp : BufferPages Index) :
      Attempts env start { state with temp := temp, currentTxnSlotBuf := none }

/-- A call leaves what remains to be done unchanged, or has finished. -/
lemma rollbackUndoRecords_kept (env : RollbackEnv Index) (isRecovery : Bool)
    (calls : List SlotBufCall)
    (hcleared : state.currentTxnSlotBuf = none) :
    RunKept env (env.remaining state.tail state.shared)
      (env.rollbackUndoRecords isRecovery calls state) :=
  rollbackLoop_kept (Resumable.refl state) hcleared

/-- So do any number of interrupted attempts. -/
lemma Attempts.remaining {start : RollbackState Index} (hstart : start.currentTxnSlotBuf = none)
    (h : Attempts env start state) :
    env.remaining state.tail state.shared = env.remaining start.tail start.shared ∧
      state.currentTxnSlotBuf = none := by
  induction h with
  | refl => exact ⟨rfl, hstart⟩
  | run _ isRecovery calls ih =>
    have hkept := rollbackUndoRecords_kept env isRecovery calls ih.2
    exact ⟨hkept.remaining.trans ih.1, hkept.cleared⟩
  | slot _ hcall ih =>
    refine ⟨ih.1, ?_⟩
    rw [ih.2, useTxnSlotBuf_none] at hcall
    split_ifs at hcall
    cases hcall
    rfl
  | restart _ temp ih => exact ⟨ih.1, rfl⟩

/-- A run that is not stopped: when it succeeds it has rolled back all there was to do, and in
recovery it succeeds whenever that can be rolled back. -/
lemma rollbackLoop_uninterrupted {status : RetStatus} (hcleared : state.currentTxnSlotBuf = none) :
    ((env.rollbackLoop isRecovery (replicate next.length ⟨true, true⟩) next state status
        false).status = some .succ → env.remaining next state.shared = some (env.rollbackLoop
          isRecovery (replicate next.length ⟨true, true⟩) next state status false).state.shared) ∧
    (isRecovery → status = .succ → env.remaining next state.shared ≠ none → (env.rollbackLoop
      isRecovery (replicate next.length ⟨true, true⟩) next state status false).status =
        some .succ) := by
  induction next generalizing state status with
  | nil =>
    rw [rollbackLoop_nil]
    exact ⟨fun _ => rfl, fun _ hstatus _ => congrArg some hstatus⟩
  | cons undoRec rest ih =>
    rw [length_cons, replicate_succ]
    have hturn := env.rollbackLoop_turn isRecovery ⟨true, true⟩ (replicate rest.length ⟨true, true⟩)
      undoRec rest hcleared status
    generalize env.rollbackLoop _ _ (undoRec :: rest) state status false = result at hturn ⊢
    cases hturn with
    | ended hstatus hnone =>
      exact ⟨fun hsucc => absurd hsucc hstatus, fun hrec _ hsome => absurd (hnone hrec rfl) hsome⟩
    | skipped hgone =>
      rw [remaining_skip hgone]
      exact ⟨(ih hcleared).1, fun hrec _ => (ih hcleared).2 hrec rfl⟩
    | moved state' hcleared' hleft =>
      rw [hleft]
      obtain ⟨hdone, hsucc⟩ := @ih { state' with tail := rest } .succ hcleared'
      exact ⟨hdone, fun hrec _ => hsucc hrec rfl⟩

/-- Rollback can be started again: however often it was stopped before, it ends with the pages of a
run that was not interrupted, and no run returns success after a failed `SetSlotUndoPtr`, since none
fails. -/
theorem rollbackUndoRecords_restart {start : RollbackState Index} {isRecovery : Bool}
    (hcleared : start.currentTxnSlotBuf = none)
    (hstart : (env.uninterrupted isRecovery start).status = some .succ)
    (h : Attempts env start state) :
    ((env.uninterrupted true state).status = some .succ ∧
      (env.uninterrupted true state).state.shared =
        (env.uninterrupted isRecovery start).state.shared) ∧
    ∀ isRecovery calls, (env.rollbackUndoRecords isRecovery calls state).failed = false := by
  obtain ⟨hleft, hstate⟩ := h.remaining hcleared
  have hfull : env.remaining start.tail start.shared =
      some (env.uninterrupted isRecovery start).state.shared :=
    (rollbackLoop_uninterrupted hcleared).1 hstart
  have hsucc : (env.uninterrupted true state).status = some .succ :=
    (rollbackLoop_uninterrupted hstate).2 rfl rfl (by simp [hleft, hfull])
  refine ⟨⟨hsucc, ?_⟩, fun isRecovery calls =>
    (rollbackUndoRecords_kept env isRecovery calls hstate).failed⟩
  have hpages : env.remaining state.tail state.shared =
      some (env.uninterrupted true state).state.shared :=
        (rollbackLoop_uninterrupted hstate).1 hsucc
  exact Option.some.inj (hpages.symm.trans (hleft.trans hfull))

/-- Transaction 5, without index records. -/
def heapOnly : RollbackEnv Unit := ⟨5, ⟨1, 20⟩, fun pages _ => some pages⟩

/-- The record of an insert at `offset` of page 3 of file 1. -/
def insertRecord (offset : UInt16) (tdPreXid : Xid) : TxnUndoRecord :=
  ⟨⟨⟨⟨1, 3⟩, offset⟩, 0, 0, tdPreXid, ⟨⟨0, 0⟩, 0⟩, 0, .isInvalid, .heapInsert⟩, false⟩

/-- Transaction 5 has inserted two tuples into a page through a TD of transaction 3. -/
def twoInserts : RollbackState Unit where
  shared := update (fun _ => none) ⟨1, 3⟩ (some (.heap {
    type := .heap
    selfPageId := ⟨1, 3⟩
    upper := 8092
    special := 8192
    hasFreeItemId := false
    hasPrunableTuple := false
    hasPrunableItem := false
    tds := [⟨5, 0, ⟨⟨0, 0⟩, 0⟩, invalidXid, 0, .occupyTrxInProgress, .isInvalid⟩]
    items := [⟨.normal, 8142, 50⟩, ⟨.normal, 8092, 50⟩]
    mem := fun _ => 0
    potentialDelSize := 0
    recentDeadTupleMinCsn := 0 }))
  temp := fun _ => none
  tail := [insertRecord 2 5, insertRecord 1 3]
  currentTxnSlotBuf := none

/-- The run is stopped behind the newer record, a slot of the same page is allocated, and rollback
is started again. -/
theorem rollbackUndoRecords_restart_two_inserts :
    (heapOnly.rollbackUndoRecords false [⟨true, false⟩] twoInserts).state.tail =
      [insertRecord 1 3] ∧
    (heapOnly.uninterrupted true { (heapOnly.rollbackUndoRecords false [⟨true, false⟩]
      twoInserts).state with currentTxnSlotBuf := none }).state.shared =
        (heapOnly.uninterrupted false twoInserts).state.shared := by
  have hstart : (heapOnly.uninterrupted false twoInserts).status = some .succ := by
    decide +kernel
  have hslot : useTxnSlotBuf ⟨true, false⟩ ⟨1, 20⟩
      (heapOnly.rollbackUndoRecords false [⟨true, false⟩] twoInserts).state.currentTxnSlotBuf =
        some (.succ, none) := by
    decide +kernel
  exact ⟨by decide +kernel,
    (rollbackUndoRecords_restart rfl hstart (.slot (.run .refl false [⟨true, false⟩]) hslot)).1.2⟩

end RollbackEnv

end DStore
