import Mathlib.Data.Nat.Bitwise

/-!
# Early deadlock prevention in a lock entry

A thread that holds a lock and asks for another mode of it must not queue behind a waiter that
waits for the thread itself. `TryAddToWaiterQueue` looks for the first such waiter and grants the
request at once, inserts it before this waiter, or reports a deadlock.
-/

namespace DStore

/-- `LockMode`. -/
inductive LockMode where
  | noLock
  | accessShareLock
  | rowShareLock
  | rowExclusiveLock
  | shareUpdateExclusiveLock
  | shareLock
  | shareRowExclusiveLock
  | exclusiveLock
  | accessExclusiveLock
deriving DecidableEq, Repr

/-- `LockEnqueueMethod`. -/
inductive LockEnqueueMethod where
  | holdOrWait
  | holdButDontWait
  | dontHoldOnlyWait
  | forceHold
deriving DecidableEq, Repr

/-- `LockRequest`. -/
structure LockRequest where
  lockMode : LockMode
  enqueueMethod : LockEnqueueMethod
  threadId : ℕ
  threadCoreIdx : ℕ
deriving DecidableEq, Repr

/-- `LockEntry`: the bottom list of `grantedQueue`, `waitingQueue`, and the counters of
`lockEntryCore`. -/
structure LockEntry where
  grantedQueue : List LockRequest
  waitingQueue : List LockRequest
  grantMask : ℕ
  waitMask : ℕ
  grantedCnt : LockMode → ℕ
  waitingCnt : LockMode → ℕ
  grantedTotal : ℕ
  waitingTotal : ℕ

namespace LockMode

/-- `GetLockMask`. -/
def getLockMask (mode : LockMode) : ℕ := 1 <<< mode.ctorIdx

/-- The table of `GetConflictMask`. -/
def conflictModes : LockMode → List LockMode
  | noLock => []
  | accessShareLock => [accessExclusiveLock]
  | rowShareLock => [exclusiveLock, accessExclusiveLock]
  | rowExclusiveLock => [shareLock, shareRowExclusiveLock, exclusiveLock, accessExclusiveLock]
  | shareUpdateExclusiveLock =>
    [shareUpdateExclusiveLock, shareLock, shareRowExclusiveLock, exclusiveLock,
      accessExclusiveLock]
  | shareLock =>
    [rowExclusiveLock, shareUpdateExclusiveLock, shareRowExclusiveLock, exclusiveLock,
      accessExclusiveLock]
  | shareRowExclusiveLock =>
    [rowExclusiveLock, shareUpdateExclusiveLock, shareLock, shareRowExclusiveLock, exclusiveLock,
      accessExclusiveLock]
  | exclusiveLock =>
    [rowShareLock, rowExclusiveLock, shareUpdateExclusiveLock, shareLock, shareRowExclusiveLock,
      exclusiveLock, accessExclusiveLock]
  | accessExclusiveLock =>
    [accessShareLock, rowShareLock, rowExclusiveLock, shareUpdateExclusiveLock, shareLock,
      shareRowExclusiveLock, exclusiveLock, accessExclusiveLock]

/-- `GetConflictMask`. -/
def getConflictMask (mode : LockMode) : ℕ :=
  mode.conflictModes.foldl (fun mask other => mask ||| other.getLockMask) 0

/-- `HasConflictWithMask`. -/
def hasConflictWithMask (requestedMode : LockMode) (mask : ℕ) : Bool :=
  requestedMode.getConflictMask &&& mask ≠ 0

/-- `HasConflictWithMode`. -/
def hasConflictWithMode (requestedMode mode : LockMode) : Bool :=
  requestedMode.hasConflictWithMask mode.getLockMask

/-- A mode conflicts with a union of masks if it does with one of them. -/
lemma hasConflictWithMask_or (mode : LockMode) (mask other : ℕ) :
    mode.hasConflictWithMask (mask ||| other) ↔
      mode.hasConflictWithMask mask ∨ mode.hasConflictWithMask other := by
  simp only [hasConflictWithMask, decide_eq_true_eq, Nat.and_or_distrib_left, ne_eq,
    Nat.or_eq_zero_iff, not_and_or]

lemma not_hasConflictWithMask_zero {mode : LockMode} : ¬ mode.hasConflictWithMask 0 := by
  simp [hasConflictWithMask]

end LockMode

namespace LockRequest

/-- `IsSameRequester`. -/
def isSameRequester (request other : LockRequest) : Bool := request.threadId = other.threadId

/-- `Compare`. -/
def compare (request other : LockRequest) : Ordering :=
  (Ord.compare request.lockMode.ctorIdx other.lockMode.ctorIdx).then
    (Ord.compare request.threadCoreIdx other.threadCoreIdx)

/-- `InsertLockRequest` on the bottom list; it fails on a request that is there. -/
def insertLockRequest (request : LockRequest) : List LockRequest → Option (List LockRequest)
  | [] => some [request]
  | next :: rest =>
    match request.compare next with
    | .lt => some (request :: next :: rest)
    | .eq => none
    | .gt => (request.insertLockRequest rest).map (next :: ·)

/-- The modes of the requests with a property, as the loops over a queue collect them. -/
def locksOf (p : LockRequest → Bool) (queue : List LockRequest) : ℕ :=
  queue.foldl
    (fun mask request => if p request then mask ||| request.lockMode.getLockMask else mask) 0

end LockRequest

/-- `EarlyDeadLockPreventor::Result`, with the position to cut in at. -/
inductive EarlyDeadLockResult where
  | noDeadlock
  | preventByGrantLock
  | preventByCutInLine (position : ℕ)
  | cantPreventDeadlock

/-- What `TryAddToWaiterQueue` returns: success, or failure with `LOCK_ERROR_DEADLOCK` or
`LOCK_INFO_WAITING`. -/
inductive WaiterQueueResult where
  | granted
  | deadlock
  | waiting

namespace LockEntry

open LockMode LockRequest

variable (entry : LockEntry) (requester : LockRequest)

/-- The first loop of `CheckForDeadLock`: the first waiter that conflicts with the requester's
locks, its place, and the modes of those before it. -/
def findBlockingWaiter (myOwnedLocks : ℕ) :
    List LockRequest → ℕ → ℕ → Option (LockRequest × ℕ × ℕ)
  | [], _, _ => none
  | waiter :: rest, position, aheadWaitingLocks =>
    if waiter.lockMode.hasConflictWithMask myOwnedLocks then
      some (waiter, position, aheadWaitingLocks)
    else
      findBlockingWaiter myOwnedLocks rest (position + 1)
        (aheadWaitingLocks ||| waiter.lockMode.getLockMask)

/-- `CheckForDeadLock`. -/
def checkForDeadLock (myOwnedLocks othersOwnedLocks : ℕ) : EarlyDeadLockResult :=
  match findBlockingWaiter myOwnedLocks entry.waitingQueue 0 0 with
  | none => .noDeadlock
  | some (firstBlockingWaiter, position, aheadWaitingLocks) =>
    if ¬ requester.lockMode.hasConflictWithMask othersOwnedLocks ∧
        ¬ requester.lockMode.hasConflictWithMask aheadWaitingLocks then
      .preventByGrantLock
    else
      let waiterOwnedLocks := locksOf (·.isSameRequester firstBlockingWaiter) entry.grantedQueue
      if requester.lockMode.hasConflictWithMask waiterOwnedLocks then .cantPreventDeadlock
      else .preventByCutInLine position

/-- `EarlyDeadLockPreventor::Start`. -/
def start : EarlyDeadLockResult :=
  let myOwnedLocks := locksOf (·.isSameRequester requester) entry.grantedQueue
  let othersOwnedLocks := locksOf (!·.isSameRequester requester) entry.grantedQueue
  if myOwnedLocks = 0 then .noDeadlock
  else entry.checkForDeadLock requester myOwnedLocks othersOwnedLocks

/-- `AddToHolderQueue`. -/
def addToHolderQueue : LockEntry :=
  if requester.enqueueMethod = .dontHoldOnlyWait then entry
  else
    match requester.insertLockRequest entry.grantedQueue with
    | none => entry
    | some grantedQueue =>
      { entry with
        grantedQueue
        grantMask := entry.grantMask ||| requester.lockMode.getLockMask
        grantedCnt := Function.update entry.grantedCnt requester.lockMode
          (entry.grantedCnt requester.lockMode + 1)
        grantedTotal := entry.grantedTotal + 1 }

/-- The request enters the waiting queue at a position. -/
def insertWaiter (position : ℕ) : LockEntry :=
  { entry with
    waitingQueue := entry.waitingQueue.take position ++ requester ::
      entry.waitingQueue.drop position
    waitMask := entry.waitMask ||| requester.lockMode.getLockMask
    waitingCnt := Function.update entry.waitingCnt requester.lockMode
      (entry.waitingCnt requester.lockMode + 1)
    waitingTotal := entry.waitingTotal + 1 }

/-- `TryAddToWaiterQueue`. -/
def tryAddToWaiterQueue : WaiterQueueResult × LockEntry :=
  if entry.waitingQueue.any fun waiter =>
      waiter.isSameRequester requester && waiter.lockMode = requester.lockMode then
    (.waiting, entry)
  else
    match entry.start requester with
    | .cantPreventDeadlock => (.deadlock, entry)
    | .preventByGrantLock => (.granted, entry.addToHolderQueue requester)
    | .preventByCutInLine position => (.waiting, entry.insertWaiter requester position)
    | .noDeadlock => (.waiting, entry.insertWaiter requester entry.waitingQueue.length)

/-- `mode` conflicts with a lock that the thread of `holder` has. -/
def ConflictsWithHeld (mode : LockMode) (holder : LockRequest) : Prop :=
  ∃ held ∈ entry.grantedQueue, held.isSameRequester holder ∧ mode.hasConflictWithMode held.lockMode

variable {entry requester}

/-- A conflict with a collected mask is one with a collected request. -/
lemma hasConflictWithMask_locksOf {mode : LockMode} {p : LockRequest → Bool}
    {queue : List LockRequest} : mode.hasConflictWithMask (locksOf p queue) ↔
      ∃ request ∈ queue, p request ∧ mode.hasConflictWithMode request.lockMode := by
  have hfrom : ∀ mask, mode.hasConflictWithMask (queue.foldl (fun mask request =>
      if p request then mask ||| request.lockMode.getLockMask else mask) mask) ↔
      mode.hasConflictWithMask mask ∨
        ∃ request ∈ queue, p request ∧ mode.hasConflictWithMode request.lockMode := by
    induction queue with
    | nil => simp
    | cons request rest ih =>
      intro mask
      rw [List.foldl_cons, ih]
      by_cases hp : p request
      · simp [hp, hasConflictWithMask_or, hasConflictWithMode, or_assoc]
      · simp [hp]
  rw [locksOf, hfrom, or_iff_right not_hasConflictWithMask_zero]

/-- The loop stops at the first waiter that conflicts with the mask. -/
lemma findBlockingWaiter_spec (mask : ℕ) (queue : List LockRequest) (position locks : ℕ) :
    match findBlockingWaiter mask queue position locks with
    | none => ∀ waiter ∈ queue, ¬ waiter.lockMode.hasConflictWithMask mask
    | some (waiter, place, _) => waiter ∈ queue ∧ waiter.lockMode.hasConflictWithMask mask ∧
        position ≤ place ∧
        ∀ ahead ∈ queue.take (place - position), ¬ ahead.lockMode.hasConflictWithMask mask := by
  induction queue generalizing position locks with
  | nil => simp [findBlockingWaiter]
  | cons waiter rest ih =>
    rw [findBlockingWaiter]
    by_cases hconflict : waiter.lockMode.hasConflictWithMask mask
    · simp [hconflict]
    · rw [if_neg hconflict]
      have hrest := ih (position + 1) (locks ||| waiter.lockMode.getLockMask)
      split at hrest
      · exact List.forall_mem_cons.mpr ⟨hconflict, hrest⟩
      · rename_i blocker place _ _
        obtain ⟨hmem, hblocks, hle, hahead⟩ := hrest
        refine ⟨List.mem_cons_of_mem _ hmem, hblocks, by omega, ?_⟩
        rw [show place - position = place - (position + 1) + 1 by omega, List.take_succ_cons]
        exact List.forall_mem_cons.mpr ⟨hconflict, hahead⟩

/-- The requester stands behind those it was placed after. -/
lemma queued_insertWaiter {p : LockRequest → Prop} {position : ℕ}
    (hahead : ∀ waiter ∈ entry.waitingQueue.take position, p waiter) :
    ∃ ahead behind, entry.waitingQueue = ahead ++ behind ∧
      (entry.insertWaiter requester position).waitingQueue = ahead ++ requester :: behind ∧
      ∀ waiter ∈ ahead, p waiter :=
  ⟨_, _, (List.take_append_drop position _).symm, rfl, hahead⟩

/-- A request that is queued has no waiter ahead of it that waits for a lock of the requester; one
that is granted conflicts with no other holder; and a deadlock is reported only if a waiter waits
for the requester and the requester would wait for it, with the entry left as it was. -/
theorem tryAddToWaiterQueue_sound (entry : LockEntry) (requester : LockRequest) :
    match entry.tryAddToWaiterQueue requester with
    | (.waiting, after) =>
      (after = entry ∧ ∃ waiter ∈ entry.waitingQueue, waiter.isSameRequester requester ∧
        waiter.lockMode = requester.lockMode) ∨
      ∃ ahead behind, entry.waitingQueue = ahead ++ behind ∧
        after.waitingQueue = ahead ++ requester :: behind ∧
        ∀ waiter ∈ ahead, ¬ entry.ConflictsWithHeld waiter.lockMode requester
    | (.granted, after) => after = entry.addToHolderQueue requester ∧
      ∀ holder ∈ entry.grantedQueue, ¬ holder.isSameRequester requester →
        ¬ requester.lockMode.hasConflictWithMode holder.lockMode
    | (.deadlock, after) => after = entry ∧ ∃ waiter ∈ entry.waitingQueue,
      entry.ConflictsWithHeld waiter.lockMode requester ∧
        entry.ConflictsWithHeld requester.lockMode waiter := by
  simp only [ConflictsWithHeld, ← hasConflictWithMask_locksOf]
  unfold tryAddToWaiterQueue
  split_ifs with hqueued
  · obtain ⟨waiter, hmem, hwaiter⟩ := List.any_eq_true.mp hqueued
    exact .inl ⟨rfl, waiter, hmem, by simpa using hwaiter⟩
  · unfold start checkForDeadLock
    set myOwnedLocks := locksOf (·.isSameRequester requester) entry.grantedQueue
    dsimp only
    split_ifs with hnone
    · refine .inr (queued_insertWaiter fun waiter _ => ?_)
      rw [hnone]
      exact not_hasConflictWithMask_zero
    · have hwaiter := findBlockingWaiter_spec myOwnedLocks entry.waitingQueue 0 0
      split at hwaiter
      · exact .inr (queued_insertWaiter fun waiter hmem =>
          hwaiter waiter (List.mem_of_mem_take hmem))
      · rename_i waiter position aheadWaitingLocks _
        obtain ⟨hmem, hblocks, -, hahead⟩ := hwaiter
        split_ifs with hgrant hdeadlock
        · refine ⟨rfl, fun holder hholder hother hconflict => hgrant.1 ?_⟩
          exact hasConflictWithMask_locksOf.mpr ⟨holder, hholder, by simpa using hother, hconflict⟩
        · exact ⟨rfl, waiter, hmem, hblocks, hdeadlock⟩
        · exact .inr (queued_insertWaiter hahead)

end LockEntry

end DStore
