import DStore.Wal.Plsn
import DStore.Wal.ReplayGate

/-!
# Threads that log their changes in atomic groups

A thread changes a page under its exclusive content lock, copies the LSN of the page into the header
of its record and marks the page as writing WAL. It may unlock the page before the group ends: the
page gets its new LSN, and loses the mark, in `EndAtomicWal`. Who gets the exclusive lock meanwhile
waits for the mark to go, in `LockContent`, `TryLockContent` and `Read` alike. The log is seen page
by page here; every remembered page has one record in its group.
-/

namespace DStore

/-- The exclusive content lock of a page: it is acquired, and then `WaitIfIsWritingWal` returns. -/
inductive ContentLock where
  | free
  | waiting (thread : ℕ)
  | held (thread : ℕ)
deriving DecidableEq, Repr

/-- The LSN of a page, its content lock and `BUF_IS_WRITING_WAL` of its buffer. -/
structure LoggedPage where
  lsn : WalRecordLsnInfo
  lock : ContentLock
  writingWal : Bool
deriving DecidableEq, Repr

/-- A page in `m_pagesNeedWal`: the previous LSN in the header of its record, and where the record
ends in the group once it was put there. -/
structure PageNeedWal where
  pre : WalRecordLsnInfo
  recordEnd : Option ℕ
deriving DecidableEq, Repr

/-- How far `EndAtomicWal` has come. -/
inductive GroupPhase where
  | filling
  | appended (startPlsn : ℕ)
  | stamped
deriving DecidableEq, Repr

/-- `AtomicWalWriterContext` of a thread; `m_bufUsed` is 0 outside of a group. -/
structure GroupContext where
  walId : WalId
  bufUsed : ℕ
  phase : GroupPhase
  pagesNeedWal : PageId → Option PageNeedWal

/-- A record of a page in the log: the previous LSN it carries, and its own. -/
structure PageRecord where
  pre : WalRecordLsnInfo
  lsn : WalRecordLsnInfo
deriving DecidableEq, Repr

/-- The pages, the threads, and of each page the LSN at the start and its records in the log, the
newest first. -/
structure WalSystem where
  walFileSize : ℕ
  pages : PageId → LoggedPage
  threads : ℕ → GroupContext
  start : PageId → WalRecordLsnInfo
  records : PageId → List PageRecord

/-- The atomic steps of a thread. -/
inductive WalEvent where
  | lockContent (thread : ℕ) (page : PageId)
  | waitIfIsWritingWal (thread : ℕ) (page : PageId)
  | unlockContent (thread : ℕ) (page : PageId)
  | pageInit (thread : ℕ) (page : PageId)
  | beginAtomicWal (thread : ℕ)
  | rememberPageNeedWal (thread : ℕ) (page : PageId)
  | putNewWalRecord (thread size : ℕ) (pages : List PageId)
  | append (thread startPlsn : ℕ)
  | setPagesLSN (thread : ℕ)
  | setPagesEndWriteWal (thread : ℕ)
  | resetForAbort (thread : ℕ)
deriving DecidableEq, Repr

/-- The LSN of the last record among `records`, the newest first. -/
def lastLsn (start : WalRecordLsnInfo) : List PageRecord → WalRecordLsnInfo
  | [] => start
  | record :: _ => record.lsn

/-- Every record carries the LSN of the one before it as the previous one. -/
def Chained (start : WalRecordLsnInfo) : List PageRecord → Prop
  | [] => True
  | record :: records => record.pre = lastLsn start records ∧ Chained start records

namespace WalSystem

variable (s : WalSystem)

/-- The LSN of the last record of a page in the log. -/
def last (page : PageId) : WalRecordLsnInfo := lastLsn (s.start page) (s.records page)

/-- Changes what is kept of a page. -/
def setPage (page : PageId) (new : LoggedPage) : WalSystem :=
  { s with pages := Function.update s.pages page new }

/-- Changes the context of a thread. -/
def setThread (thread : ℕ) (new : GroupContext) : WalSystem :=
  { s with threads := Function.update s.threads thread new }

/-- Changes the pages that a thread has remembered. -/
def setRemembered (thread : ℕ) (new : PageNeedWal → LoggedPage → LoggedPage) : WalSystem :=
  { s with
    pages := fun page =>
      match (s.threads thread).pagesNeedWal page with
      | none => s.pages page
      | some need => new need (s.pages page) }

/-- `SetPagesEndWriteWal` and `ClearState`. -/
def endGroup (thread : ℕ) : WalSystem :=
  (s.setRemembered thread fun _ page => { page with writingWal := false }).setThread thread
    ⟨(s.threads thread).walId, 0, .filling, fun _ => none⟩

/-- The records of a group in the log, those of `page` before them being `records`. -/
def appendGroup (thread startPlsn : ℕ) (page : PageId) (records : List PageRecord) :
    List PageRecord :=
  match (s.threads thread).pagesNeedWal page with
  | some ⟨pre, some recordEnd⟩ =>
    ⟨pre, redoLsn pre (s.threads thread).walId
      (getRecordPlsn true startPlsn recordEnd s.walFileSize)⟩ :: records
  | _ => records

/-- One step of a thread; `none` where the code waits, panics or does not come to the step. -/
def step : WalEvent → Option WalSystem
  | .lockContent thread page =>
    if (s.pages page).lock = .free then
      some (s.setPage page { s.pages page with lock := .waiting thread })
    else none
  | .waitIfIsWritingWal thread page =>
    if (s.pages page).lock = .waiting thread ∧ (s.pages page).writingWal = false then
      some (s.setPage page { s.pages page with lock := .held thread })
    else none
  | .unlockContent thread page =>
    if (s.pages page).lock = .held thread then
      some (s.setPage page { s.pages page with lock := .free })
    else none
  | .pageInit thread page =>
    if (s.pages page).lock = .held thread ∧ (s.threads thread).pagesNeedWal page = none then
      some (s.setPage page { s.pages page with lsn := pageInitLsn (s.pages page).lsn })
    else none
  | .beginAtomicWal thread =>
    if (s.threads thread).bufUsed = 0 ∧ (s.threads thread).phase = .filling then
      some (s.setThread thread { s.threads thread with bufUsed := walGroupHeaderSize })
    else none
  | .rememberPageNeedWal thread page =>
    -- the header of the record is filled under the same lock
    if (s.pages page).lock = .held thread ∧ (s.threads thread).bufUsed ≠ 0 ∧
        (s.threads thread).phase = .filling ∧ (s.threads thread).pagesNeedWal page = none then
      some ((s.setPage page { s.pages page with writingWal := true }).setThread thread
        { s.threads thread with
          pagesNeedWal := Function.update (s.threads thread).pagesNeedWal page
            (some ⟨(s.pages page).lsn, none⟩) })
    else none
  | .putNewWalRecord thread size pages =>
    let context := s.threads thread
    if context.bufUsed ≠ 0 ∧ context.phase = .filling ∧
        ∀ page ∈ pages, (context.pagesNeedWal page).map PageNeedWal.recordEnd = some none then
      some (s.setThread thread { context with
        bufUsed := context.bufUsed + size
        pagesNeedWal := fun page => (context.pagesNeedWal page).map fun need =>
          if page ∈ pages then { need with recordEnd := some (context.bufUsed + size) } else need })
    else none
  | .append thread startPlsn =>
    let context := s.threads thread
    if context.bufUsed ≠ 0 ∧ context.phase = .filling then
      some { s.setThread thread { context with phase := .appended startPlsn } with
        records := fun page => s.appendGroup thread startPlsn page (s.records page) }
    else none
  | .setPagesLSN thread =>
    let context := s.threads thread
    match context.phase with
    | .appended startPlsn =>
      some ((s.setRemembered thread fun need page => match need.recordEnd with
        | none => page
        | some recordEnd => { page with
          lsn := setPagesLSN page.lsn context.walId
            (getRecordPlsn true startPlsn recordEnd s.walFileSize) }).setThread thread
        { context with phase := .stamped })
    | _ => none
  | .setPagesEndWriteWal thread =>
    if (s.threads thread).phase = .stamped then some (s.endGroup thread) else none
  | .resetForAbort thread =>
    if (s.threads thread).phase = .filling then some (s.endGroup thread) else none

/-- A run of steps. -/
def run : WalSystem → List WalEvent → Option WalSystem
  | s, [] => some s
  | s, event :: events => (s.step event).bind fun s => run s events

/-- Nothing is locked, no group is open, and the log is empty. -/
def atStart (walFileSize : ℕ) (lsn : PageId → WalRecordLsnInfo) (walId : ℕ → WalId) :
    WalSystem where
  walFileSize := walFileSize
  pages page := ⟨lsn page, .free, false⟩
  threads thread := ⟨walId thread, 0, .filling, fun _ => none⟩
  start := lsn
  records _ := []

/-- A thread has the exclusive lock of a page and has not logged a change of it yet. -/
def MayChange (thread : ℕ) (page : PageId) : Prop :=
  (s.pages page).lock = .held thread ∧ (s.threads thread).pagesNeedWal page = none

/-- The chains of all pages are unbroken, and whoever may change a page finds the LSN of its last
record in it. -/
def Unbroken : Prop :=
  (∀ page, Chained (s.start page) (s.records page)) ∧
    ∀ thread page, s.MayChange thread page → (s.pages page).lsn = s.last page

/-- A step does not re-initialise a page whose header has a stream id of more than 16 bits. -/
def keepsWalId : WalEvent → Bool
  | .pageInit _ page => decide ((s.pages page).lsn.walId.toNat < 2 ^ 16)
  | _ => true

/-- All steps of a run keep the stream ids. -/
def runKeepsWalId : WalSystem → List WalEvent → Bool
  | _, [] => true
  | s, event :: events => s.keepsWalId event && (s.step event).all fun s => runKeepsWalId s events

end WalSystem

/-! ## The invariant of a page -/

/-- What holds between the LSN of a page that the thread has remembered and the last record of the
page in the log. -/
def GroupContext.Logging (context : GroupContext) (walFileSize : ℕ) (lsn last : WalRecordLsnInfo)
    (need : PageNeedWal) : Prop :=
  match context.phase with
  | .filling => need.pre = last ∧ lsn = last
  | .appended startPlsn => lsn = need.pre ∧ last = match need.recordEnd with
    | none => need.pre
    | some recordEnd =>
      redoLsn need.pre context.walId (getRecordPlsn true startPlsn recordEnd walFileSize)
  | .stamped => lsn = last

namespace WalSystem

/-- The chain of the page is unbroken. The page is marked exactly while one thread, its `owner`, has
remembered it; nobody else has the lock then, and otherwise the page has the LSN of its last
record. -/
structure PageOk (s : WalSystem) (page : PageId) (owner : Option ℕ) : Prop where
  chained : Chained (s.start page) (s.records page)
  owner_iff : ∀ t, ((s.threads t).pagesNeedWal page).isSome ↔ owner = some t
  flag : (s.pages page).writingWal = owner.isSome
  held : ∀ t, (s.pages page).lock = .held t → owner = none ∨ owner = some t
  rest : owner = none → (s.pages page).lsn = s.last page
  logging : ∀ t need, (s.threads t).pagesNeedWal page = some need →
    (s.threads t).Logging s.walFileSize (s.pages page).lsn (s.last page) need

variable {s s' : WalSystem} {event : WalEvent} {page page' : PageId} {owner : Option ℕ}
  {thread : ℕ}

/-- Redo gives a page the LSN that the group gave it. -/
lemma redoLsn_eq_setPagesLSN (pre : WalRecordLsnInfo) (walId : WalId) (endPlsn : ℕ) :
    redoLsn pre walId endPlsn = setPagesLSN pre walId endPlsn := by
  unfold redoLsn setPagesLSN
  grind

namespace PageOk

section

variable (h : s.PageOk page owner)
include h

/-- Locking and unlocking: only who has remembered a marked page may have its lock. -/
lemma setLock {new : ContentLock}
    (hnew : page = page' → ∀ t, new = .held t → owner = none ∨ owner = some t) :
    (s.setPage page' { s.pages page' with lock := new }).PageOk page owner := by
  obtain ⟨hchained, howner, hflag, hheld, hrest, hlogging⟩ := h
  refine ⟨hchained, howner, ?_, ?_, ?_, ?_⟩
  all_goals
    simp only [setPage, last] at *
    grind

/-- Re-initialising a page with a stream id of 16 bits leaves its LSN. -/
lemma pageInit (hkeep : (s.pages page').lsn.walId.toNat < 2 ^ 16) :
    (s.setPage page' { s.pages page' with lsn := pageInitLsn (s.pages page').lsn }).PageOk page
      owner := by
  rwa [(pageInitLsn_eq_iff _).mpr hkeep, setPage, Function.update_eq_self]

/-- A thread that has not come to `Append` goes on with its group. -/
lemma setContext {new : GroupContext}
    (hphase : new.phase = .filling) (hold : (s.threads thread).phase = .filling)
    (hpre : (new.pagesNeedWal page).map PageNeedWal.pre =
      ((s.threads thread).pagesNeedWal page).map PageNeedWal.pre) :
    (s.setThread thread new).PageOk page owner := by
  obtain ⟨hchained, howner, hflag, hheld, hrest, hlogging⟩ := h
  refine ⟨hchained, fun t => ?_, hflag, hheld, hrest, fun t need => ?_⟩
  · have hsome := congrArg Option.isSome hpre
    simp only [Option.isSome_map, setThread] at hsome ⊢
    grind
  · have hlog := hlogging thread
    simp only [setThread, Function.update_apply, GroupContext.Logging, hold, last] at hlog ⊢
    split
    · simp only [hphase]
      intro hneed
      rw [hneed, Option.map_some] at hpre
      obtain ⟨old, hsome, hpre⟩ := Option.map_eq_some_iff.mp hpre.symm
      exact hpre ▸ hlog old hsome
    · exact hlogging t need

/-- `RememberPageNeedWal`: the thread becomes the owner of the page. -/
lemma remember (hlock : (s.pages page').lock = .held thread)
    (hphase : (s.threads thread).phase = .filling)
    (hnone : (s.threads thread).pagesNeedWal page' = none) :
    ((s.setPage page' { s.pages page' with writingWal := true }).setThread thread
      { s.threads thread with
        pagesNeedWal := Function.update (s.threads thread).pagesNeedWal page'
          (some ⟨(s.pages page').lsn, none⟩) }).PageOk page
      (if page = page' then some thread else owner) := by
  obtain ⟨hchained, howner, hflag, hheld, hrest, hlogging⟩ := h
  -- the lock says that nobody else has remembered the page
  have hfree : page = page' → owner = none := by
    rintro rfl
    have hnot : owner ≠ some thread := by simp [← howner, hnone]
    exact (hheld thread hlock).resolve_right hnot
  refine ⟨hchained, fun t => ?_, ?_, fun t => ?_, fun _ => ?_, fun t need hneed => ?_⟩
  all_goals simp only [setThread, setPage, last] at *
  · have := howner t
    simp only [Function.update_apply]
    by_cases ht : t = thread
    · subst ht
      grind
    · grind
  · grind
  · grind
  · grind
  · by_cases ht : t = thread
    · subst ht
      have hlog := hlogging t
      simp only [Function.update_self, GroupContext.Logging, hphase] at hneed hlog ⊢
      grind
    · grind

/-- `WalStream::Append`: the record of the page is the next in its chain. -/
lemma append (hphase : (s.threads thread).phase = .filling)
    (startPlsn : ℕ) :
    ({ s.setThread thread { s.threads thread with phase := .appended startPlsn } with
      records := fun page => s.appendGroup thread startPlsn page (s.records page) } :
        WalSystem).PageOk page owner := by
  obtain ⟨hchained, howner, hflag, hheld, hrest, hlogging⟩ := h
  have hself := hlogging thread
  have hthread := howner thread
  simp only [GroupContext.Logging, hphase] at hself
  refine ⟨?_, fun t => ?_, hflag, hheld, fun _ => ?_, fun t need hneed => ?_⟩
  all_goals simp only [setThread, appendGroup, last] at *
  · grind [Chained]
  · grind
  · grind
  · by_cases ht : t = thread
    · subst ht
      simp only [Function.update_self] at hneed ⊢
      obtain ⟨hpre, hlsn⟩ := hself need hneed
      rw [hneed, GroupContext.Logging]
      obtain ⟨pre, _ | recordEnd⟩ := need
      · exact ⟨hlsn.trans hpre.symm, hpre.symm⟩
      · exact ⟨hlsn.trans hpre.symm, rfl⟩
    · grind

/-- `SetPagesLSN`: the page gets the LSN of its record. -/
lemma stamp {startPlsn : ℕ}
    (hphase : (s.threads thread).phase = .appended startPlsn) :
    ((s.setRemembered thread fun need page => match need.recordEnd with
        | none => page
        | some recordEnd => { page with
          lsn := setPagesLSN page.lsn (s.threads thread).walId
            (getRecordPlsn true startPlsn recordEnd s.walFileSize) }).setThread thread
        { s.threads thread with phase := .stamped }).PageOk page owner := by
  obtain ⟨hchained, howner, hflag, hheld, hrest, hlogging⟩ := h
  have hself := hlogging thread
  have hthread := howner thread
  simp only [GroupContext.Logging, hphase, redoLsn_eq_setPagesLSN] at hself
  refine ⟨hchained, fun t => ?_, ?_, fun t => ?_, fun _ => ?_, fun t need hneed => ?_⟩
  all_goals simp only [setThread, setRemembered, last] at *
  · grind
  · grind
  · grind
  · grind
  · by_cases ht : t = thread
    · subst ht
      simp only [Function.update_self, GroupContext.Logging] at hneed ⊢
      grind
    · grind

/-- The end of a group leaves the page without an owner. -/
lemma endGroup (hphase : ∀ startPlsn, (s.threads thread).phase ≠ .appended startPlsn) :
    (s.endGroup thread).PageOk page (if owner = some thread then none else owner) := by
  obtain ⟨hchained, howner, hflag, hheld, hrest, hlogging⟩ := h
  have hself := hlogging thread
  have hthread := howner thread
  simp only [GroupContext.Logging] at hself
  refine ⟨hchained, fun t => ?_, ?_, fun t => ?_, fun _ => ?_, fun t need hneed => ?_⟩
  all_goals simp only [WalSystem.endGroup, setThread, setRemembered, last] at *
  all_goals grind

end

end PageOk

/-- Every step keeps the invariant of every page. -/
lemma PageOk.step (h : s.PageOk page owner) (hkeep : s.keepsWalId event)
    (hstep : s.step event = some s') : ∃ owner', s'.PageOk page owner' := by
  cases event <;>
    simp only [WalSystem.step, Option.ite_none_right_eq_some, Option.some.injEq] at hstep
  case lockContent | unlockContent =>
    obtain ⟨-, rfl⟩ := hstep
    exact ⟨_, h.setLock nofun⟩
  case waitIfIsWritingWal =>
    obtain ⟨⟨-, hflag⟩, rfl⟩ := hstep
    refine ⟨_, h.setLock fun hpage t _ => .inl ?_⟩
    rw [← hpage, h.flag] at hflag
    exact Option.isSome_eq_false_iff.mp hflag |> Option.isNone_iff_eq_none.mp
  case pageInit =>
    obtain ⟨-, rfl⟩ := hstep
    exact ⟨_, h.pageInit (of_decide_eq_true hkeep)⟩
  case beginAtomicWal =>
    obtain ⟨⟨-, hphase⟩, rfl⟩ := hstep
    exact ⟨_, h.setContext hphase hphase rfl⟩
  case rememberPageNeedWal =>
    obtain ⟨⟨hlock, -, hphase, hnone⟩, rfl⟩ := hstep
    exact ⟨_, h.remember hlock hphase hnone⟩
  case putNewWalRecord =>
    obtain ⟨⟨-, hphase, -⟩, rfl⟩ := hstep
    refine ⟨_, h.setContext hphase hphase ?_⟩
    rw [Option.map_map]
    congr 1
    funext need
    simp only [Function.comp_apply]
    split <;> rfl
  case append thread startPlsn =>
    obtain ⟨⟨-, hphase⟩, rfl⟩ := hstep
    exact ⟨_, h.append hphase startPlsn⟩
  case setPagesLSN =>
    split at hstep
    · next hphase => exact ⟨_, Option.some.inj hstep ▸ h.stamp hphase⟩
    · cases hstep
  case setPagesEndWriteWal | resetForAbort =>
    obtain ⟨hphase, rfl⟩ := hstep
    exact ⟨_, h.endGroup (by simp [hphase])⟩

/-- So does every run. -/
lemma PageOk.run {events : List WalEvent} (h : s.PageOk page owner) (hkeep : s.runKeepsWalId events)
    (hrun : s.run events = some s') : ∃ owner', s'.PageOk page owner' := by
  induction events generalizing s owner with
  | nil =>
    obtain rfl := Option.some.inj hrun
    exact ⟨owner, h⟩
  | cons event events ih =>
    obtain ⟨s₁, hstep, hrest⟩ := Option.bind_eq_some_iff.mp hrun
    simp only [runKeepsWalId, hstep, Option.all_some, Bool.and_eq_true] at hkeep
    obtain ⟨owner₁, h₁⟩ := h.step hkeep.1 hstep
    exact ih h₁ hkeep.2 hrest

/-- Thread 0 logs a change of `page` in a group of its own and unlocks the page before the group
ends, while thread 1 already waits for the lock. -/
def handOver (page : PageId) : List WalEvent :=
  [.lockContent 0 page, .waitIfIsWritingWal 0 page, .beginAtomicWal 0, .rememberPageNeedWal 0 page,
    .putNewWalRecord 0 20 [page], .unlockContent 0 page, .lockContent 1 page, .append 0 64,
    .setPagesLSN 0, .setPagesEndWriteWal 0, .waitIfIsWritingWal 1 page]

end WalSystem

end DStore
