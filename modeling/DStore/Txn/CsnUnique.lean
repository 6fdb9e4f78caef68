import DStore.Txn.CsnMgr
import Mathlib.Data.List.Nodup

/-!
# No csn is handed out twice

Any number of threads call `GetNextCsn`; each goes through the phases of an advancing call, and
the steps of different threads interleave. The process may stop at any point and start again from
the control file.
-/

namespace DStore

open Option List

/-- Where a thread is in `GetNextCsn(outNextCsn, true)`. -/
inductive CsnPhase where
  | idle
  /-- The counter has been incremented. -/
  | fetched (curCsn : ℕ)
  /-- A new reservation is about to be stored. -/
  | reserving (curCsn newMaxReservedCsn : ℕ)
  /-- In the wait loop. -/
  | waiting (curCsn : ℕ)
deriving DecidableEq, Repr

/-- The csn of the call a thread is in. -/
def CsnPhase.curCsn : CsnPhase → Option ℕ
  | idle => none
  | fetched curCsn | reserving curCsn _ | waiting curCsn => some curCsn

/-- A successful call: whether it advanced the counter, the csn it returned and the reservation
on disk at that time. -/
structure CsnReturn where
  advance : Bool
  csn : ℕ
  stored : ℕ
deriving DecidableEq, Repr

/-- The process, `none` while it is down, its threads, the reservation on disk, and all
successful calls so far, the last one first. -/
structure CsnHistory where
  mgr : Option CsnMgr
  phase : ℕ → CsnPhase
  stored : ℕ
  returned : List CsnReturn

/-- The steps of the system; the names of `fetch` to `finish` are those of the phases. -/
inductive CsnEvent where
  | crash
  | restart (csnAssignmentIncrement : ℕ)
  | peek
  | fetch (thread : ℕ)
  | check (thread : ℕ)
  | reserve (thread : ℕ) (write : ControlWrite)
  | finish (thread : ℕ)
deriving DecidableEq, Repr

namespace CsnHistory

/-- Before the first start. -/
def start (stored : ℕ) : CsnHistory := ⟨none, fun _ => .idle, stored, []⟩

variable (hist : CsnHistory)

/-- The history with a thread in another phase. -/
def setPhase (thread : ℕ) (phase : CsnPhase) : CsnHistory :=
  { hist with phase := Function.update hist.phase thread phase }

/-- `none` when the step is not possible. -/
def step : CsnEvent → Option CsnHistory
  | .crash => some { hist with mgr := none, phase := fun _ => .idle }
  | .restart csnAssignmentIncrement =>
    match hist.mgr with
    | none =>
      some { hist with mgr := some (CsnMgr.initializeFrom csnAssignmentIncrement hist.stored) }
    | some _ => none
  | .peek =>
    match hist.mgr with
    | none => none
    | some mgr =>
      some { hist with returned := ⟨false, mgr.nextCsn, hist.stored⟩ :: hist.returned }
  | .fetch thread =>
    match hist.mgr, hist.phase thread with
    | some mgr, .idle =>
      some { hist.setPhase thread (.fetched mgr.nextCsn) with mgr := some mgr.fetchAddNextCsn }
    | _, _ => none
  | .check thread =>
    match hist.mgr, hist.phase thread with
    | some mgr, .fetched curCsn =>
      let next :=
        if mgr.extendsReservation curCsn then
          match mgr.newMaxReservedCsn curCsn with
          | none => .waiting curCsn
          | some newMaxReservedCsn => .reserving curCsn newMaxReservedCsn
        else .waiting curCsn
      some (hist.setPhase thread next)
    | _, _ => none
  | .reserve thread write =>
    match hist.mgr, hist.phase thread with
    | some mgr, .reserving curCsn newMaxReservedCsn =>
      match mgr.updateMaxReservedCsn write hist.stored newMaxReservedCsn with
      | (none, stored) => some { hist.setPhase thread .idle with stored := stored }
      | (some mgr, stored) =>
        some { hist.setPhase thread (.waiting curCsn) with mgr := some mgr, stored := stored }
    | _, _ => none
  | .finish thread =>
    match hist.mgr, hist.phase thread with
    | some mgr, .waiting curCsn =>
      if curCsn > mgr.maxReservedCsn then none
      else
        some { hist.setPhase thread .idle with
          returned := ⟨true, curCsn, hist.stored⟩ :: hist.returned }
    | _, _ => none

/-- A sequence of steps. -/
def run : List CsnEvent → CsnHistory → Option CsnHistory
  | [], hist => some hist
  | event :: events, hist => (hist.step event).bind (run events)

/-- The csns of the advancing calls. -/
def issued : List ℕ := (hist.returned.filter CsnReturn.advance).map CsnReturn.csn

/-- The step does not wrap the counter: a restart finds a reservation it can continue after, and
an advancing call finds a csn that has a successor. -/
def fits : CsnEvent → Bool
  | .restart _ => hist.stored + 1 < 2 ^ 64
  | .fetch _ => hist.mgr.all fun mgr => mgr.nextCsn + 1 < 2 ^ 64
  | _ => true

/-- The histories that start with the reservation `stored` on disk and never wrap the counter. -/
inductive Reachable (stored : ℕ) : CsnHistory → Prop where
  | start : Reachable stored (start stored)
  | step {hist hist' : CsnHistory} (h : Reachable stored hist) (event : CsnEvent)
    (hfits : hist.fits event = true) (hstep : hist.step event = some hist') : Reachable stored hist'

/-- What keeps csns apart. -/
structure Inv : Prop where
  le_stored : ∀ r ∈ hist.returned, r.advance = true → r.csn ≤ r.stored ∧ r.stored ≤ hist.stored
  nodup : hist.issued.Nodup
  down : hist.mgr = none → ∀ t, hist.phase t = .idle
  reserved : ∀ mgr, hist.mgr = some mgr → mgr.maxReservedCsn ≤ hist.stored
  issued_lt : ∀ mgr, hist.mgr = some mgr → ∀ csn ∈ hist.issued, csn < mgr.nextCsn
  held_lt : ∀ mgr, hist.mgr = some mgr → ∀ t csn, (hist.phase t).curCsn = some csn →
    csn < mgr.nextCsn
  held_new : ∀ t csn, (hist.phase t).curCsn = some csn → csn ∉ hist.issued
  held_inj : ∀ t t' csn, (hist.phase t).curCsn = some csn → (hist.phase t').curCsn = some csn →
    t = t'

end CsnHistory

/-! ## The reservation -/

/-- What is stored never decreases, and covers what the call returns. -/
lemma setMaxReservedCSN_spec (write : ControlWrite) (stored csn : ℕ) :
    stored ≤ (setMaxReservedCSN write stored csn).2 ∧
      ∀ max, (setMaxReservedCSN write stored csn).1 = some max →
        max ≤ (setMaxReservedCSN write stored csn).2 := by
  unfold setMaxReservedCSN
  split_ifs with hold hsmall hnew
  · simp
  · simp
  · exact ⟨by show stored ≤ csn; omega, by simp⟩
  · exact ⟨by show stored ≤ csn; omega, by simp⟩

/-- So does an update of the reservation, which leaves the next csn. -/
lemma CsnMgr.updateMaxReservedCsn_spec (mgr : CsnMgr) (write : ControlWrite) (stored csn : ℕ)
    (hreserved : mgr.maxReservedCsn ≤ stored) :
    stored ≤ (mgr.updateMaxReservedCsn write stored csn).2 ∧
      ∀ mgr', (mgr.updateMaxReservedCsn write stored csn).1 = some mgr' →
        mgr'.nextCsn = mgr.nextCsn ∧
          mgr'.maxReservedCsn ≤ (mgr.updateMaxReservedCsn write stored csn).2 := by
  have hset := setMaxReservedCSN_spec write stored csn
  unfold CsnMgr.updateMaxReservedCsn
  split_ifs with hgt
  · split
    next stored' heq =>
      rw [heq] at hset
      exact ⟨hset.1, by simp⟩
    next max stored' heq =>
      rw [heq] at hset
      refine ⟨hset.1, ?_⟩
      intro mgr' hmgr
      rw [← some.inj hmgr]
      exact ⟨rfl, hset.2 max rfl⟩
  · refine ⟨Nat.le_refl stored, ?_⟩
    intro mgr' hmgr
    rw [← some.inj hmgr]
    exact ⟨rfl, hreserved⟩

/-! ## The invariant -/

namespace CsnHistory

variable {hist hist' : CsnHistory} {thread : ℕ}

/-- The invariant holds at the start. -/
lemma start_inv (stored : ℕ) : (start stored).Inv := by
  refine ⟨by simp [start], by simp [start, issued],
    fun _ _ => rfl, by simp [start], by simp [start],
    by simp [start], by simp [start, CsnPhase.curCsn], by simp [start, CsnPhase.curCsn]⟩

/-- A csn is held in the new phase of the thread, or by another thread. -/
lemma held_setPhase {phase : CsnPhase} {t csn : ℕ}
    (ht : ((hist.setPhase thread phase).phase t).curCsn = some csn) :
    t = thread ∧ phase.curCsn = some csn ∨ t ≠ thread ∧ (hist.phase t).curCsn = some csn := by
  by_cases heq : t = thread
  · subst heq
    exact .inl ⟨rfl, by simpa [CsnHistory.setPhase] using ht⟩
  · exact .inr ⟨heq, by simpa [CsnHistory.setPhase, heq] using ht⟩

/-- It stays when a thread moves on without a new csn. -/
lemma Inv.setPhase {phase : CsnPhase} (h : hist.Inv) (hup : hist.mgr ≠ none)
    (hcur : ∀ csn, phase.curCsn = some csn → (hist.phase thread).curCsn = some csn) :
    (hist.setPhase thread phase).Inv := by
  have hheld : ∀ t csn, ((hist.setPhase thread phase).phase t).curCsn = some csn →
      (hist.phase t).curCsn = some csn := by
    intro t csn ht
    rcases held_setPhase ht with ⟨rfl, hnew⟩ | ⟨-, hold⟩
    · exact hcur csn hnew
    · exact hold
  refine ⟨h.le_stored, h.nodup, fun hdown => absurd hdown hup, h.reserved, h.issued_lt, ?_, ?_, ?_⟩
  · exact fun mgr hmgr t csn ht => h.held_lt mgr hmgr t csn (hheld t csn ht)
  · exact fun t csn ht => h.held_new t csn (hheld t csn ht)
  · exact fun t t' csn ht ht' => h.held_inj t t' csn (hheld t csn ht) (hheld t' csn ht')

/-- It stays when the reservation is stored. -/
lemma Inv.stored {mgr mgr' : CsnMgr} {stored : ℕ} (h : hist.Inv) (hmgr : hist.mgr = some mgr)
    (hstored : hist.stored ≤ stored) (hnext : mgr'.nextCsn = mgr.nextCsn)
    (hreserved : mgr'.maxReservedCsn ≤ stored) :
    ({ hist with mgr := some mgr', stored := stored } : CsnHistory).Inv := by
  have hsome : ∀ m, some mgr' = some m → m.nextCsn = mgr.nextCsn ∧ m.maxReservedCsn ≤ stored := by
    intro m hm
    rw [← some.inj hm]
    exact ⟨hnext, hreserved⟩
  refine ⟨?_, h.nodup, fun hdown => absurd hdown (by simp), fun m hm => (hsome m hm).2, ?_, ?_,
    h.held_new, h.held_inj⟩
  · exact fun r hr hadv => ⟨(h.le_stored r hr hadv).1,
      Nat.le_trans (h.le_stored r hr hadv).2 hstored⟩
  · intro m hm csn hcsn
    rw [(hsome m hm).1]
    exact h.issued_lt mgr hmgr csn hcsn
  · intro m hm t csn ht
    rw [(hsome m hm).1]
    exact h.held_lt mgr hmgr t csn ht

/-- A thread takes the next csn. -/
lemma Inv.fetch {mgr : CsnMgr} (h : hist.Inv) (hmgr : hist.mgr = some mgr)
    (hfits : mgr.nextCsn + 1 < 2 ^ 64) :
    ({ hist.setPhase thread (.fetched mgr.nextCsn) with
        mgr := some mgr.fetchAddNextCsn } : CsnHistory).Inv := by
  have hnext : mgr.fetchAddNextCsn.nextCsn = mgr.nextCsn + 1 := Nat.mod_eq_of_lt hfits
  -- the csn just taken is above all others
  refine ⟨h.le_stored, h.nodup, fun hdown => absurd hdown (by simp), ?_, ?_, ?_, ?_, ?_⟩
  · intro m hm
    rw [← some.inj hm]
    exact h.reserved mgr hmgr
  · intro m hm csn hcsn
    rw [← some.inj hm, hnext]
    exact Nat.lt_succ_of_lt (h.issued_lt mgr hmgr csn hcsn)
  · intro m hm t csn ht
    rw [← some.inj hm, hnext]
    rcases held_setPhase ht with ⟨_, ⟨⟩⟩ | ⟨_, hold⟩
    · exact Nat.lt_succ_self _
    · exact Nat.lt_succ_of_lt (h.held_lt mgr hmgr t csn hold)
  · intro t csn ht
    rcases held_setPhase ht with ⟨_, ⟨⟩⟩ | ⟨_, hold⟩
    · exact fun hmem => absurd (h.issued_lt mgr hmgr _ hmem) (Nat.lt_irrefl _)
    · exact h.held_new t csn hold
  · intro t t' csn ht ht'
    rcases held_setPhase ht with ⟨rfl, ⟨⟩⟩ | ⟨_, hold⟩
    · rcases held_setPhase ht' with ⟨rfl, _⟩ | ⟨_, hold'⟩
      · rfl
      · exact absurd (h.held_lt mgr hmgr t' _ hold') (Nat.lt_irrefl _)
    · rcases held_setPhase ht' with ⟨_, ⟨⟩⟩ | ⟨_, hold'⟩
      · exact absurd (h.held_lt mgr hmgr t _ hold) (Nat.lt_irrefl _)
      · exact h.held_inj t t' csn hold hold'

/-- A thread returns a csn the reservation covers. -/
lemma Inv.finish {mgr : CsnMgr} {curCsn : ℕ} (h : hist.Inv) (hmgr : hist.mgr = some mgr)
    (hphase : hist.phase thread = .waiting curCsn) (hle : curCsn ≤ mgr.maxReservedCsn) :
    ({ hist.setPhase thread .idle with
        returned := ⟨true, curCsn, hist.stored⟩ :: hist.returned } : CsnHistory).Inv := by
  have hcur : (hist.phase thread).curCsn = some curCsn := by
    rw [hphase]
    rfl
  have hidle : (hist.setPhase thread .idle).Inv :=
    h.setPhase (by simp [hmgr]) (by simp [CsnPhase.curCsn])
  refine ⟨?_, ?_, hidle.down, hidle.reserved, ?_, hidle.held_lt, ?_, hidle.held_inj⟩
  · intro r hr hadv
    rcases mem_cons.mp hr with rfl | hold
    · exact ⟨Nat.le_trans hle (h.reserved mgr hmgr), Nat.le_refl _⟩
    · exact h.le_stored r hold hadv
  · exact nodup_cons.mpr ⟨h.held_new thread curCsn hcur, h.nodup⟩
  · intro m hm csn hcsn
    rcases mem_cons.mp hcsn with rfl | hold
    · exact h.held_lt m hm thread _ hcur
    · exact h.issued_lt m hm csn hold
  · intro t csn ht hmem
    -- no other thread holds this csn
    obtain ⟨_, ⟨⟩⟩ | ⟨hne, hold⟩ := held_setPhase ht
    rcases mem_cons.mp hmem with rfl | hmem
    · exact hne (h.held_inj t thread _ hold hcur)
    · exact h.held_new t csn hold hmem

/-- One step of any thread, a crash or a restart. -/
theorem Inv.step (h : hist.Inv) (event : CsnEvent) (hfits : hist.fits event)
    (hstep : hist.step event = some hist') : hist'.Inv := by
  cases event with
  | crash =>
    -- the threads and what they held are gone; issued csns and the stored reservation stay
    rw [← some.inj hstep]
    exact ⟨h.le_stored, h.nodup, fun _ _ => rfl, by simp, by simp, by simp,
      by simp [CsnPhase.curCsn], by simp [CsnPhase.curCsn]⟩
  | restart increment =>
    dsimp only [CsnHistory.step] at hstep
    split at hstep
    next hdown =>
      -- the counter starts behind the stored reservation
      rw [← some.inj hstep]
      have hnext : (hist.stored + 1) % 2 ^ 64 = hist.stored + 1 :=
        Nat.mod_eq_of_lt (of_decide_eq_true hfits)
      have hidle : ∀ t csn, (hist.phase t).curCsn ≠ some csn := by
        intro t csn
        rw [h.down hdown t]
        simp [CsnPhase.curCsn]
      refine ⟨h.le_stored, h.nodup, by simp, ?_, ?_, fun _ _ t csn ht => absurd ht (hidle t csn),
        fun t csn ht => absurd ht (hidle t csn), fun t _ csn ht => absurd ht (hidle t csn)⟩
      · intro m hm
        rw [← some.inj hm]
        exact Nat.le_refl _
      · -- everything issued before is covered by the reservation on disk
        intro m hm csn hcsn
        rw [← some.inj hm]
        obtain ⟨r, hr, rfl⟩ := mem_map.mp hcsn
        obtain ⟨hmem, hadv⟩ := mem_filter.mp hr
        have hle := h.le_stored r hmem hadv
        show r.csn < (hist.stored + 1) % 2 ^ 64
        omega
    · simp at hstep
  | peek =>
    dsimp only [CsnHistory.step] at hstep
    split at hstep
    · simp at hstep
    next mgr hmgr =>
      -- a csn that is only looked at is recorded, but not as issued
      rw [← some.inj hstep]
      refine ⟨?_, h.nodup, h.down, h.reserved, h.issued_lt, h.held_lt, h.held_new, h.held_inj⟩
      intro r hr hadv
      rcases mem_cons.mp hr with rfl | hold
      · simp at hadv
      · exact h.le_stored r hold hadv
  | fetch thread =>
    dsimp only [CsnHistory.step] at hstep
    split at hstep
    next mgr hmgr _ =>
      rw [← some.inj hstep]
      rw [fits, hmgr] at hfits
      exact h.fetch hmgr (of_decide_eq_true hfits)
    · simp at hstep
  | check thread =>
    dsimp only [CsnHistory.step] at hstep
    split at hstep
    next mgr curCsn hmgr hphase =>
      rw [← some.inj hstep]
      apply h.setPhase (by simp [hmgr])
      intro csn hcsn
      rw [hphase]
      split_ifs at hcsn
      · split at hcsn
        · exact hcsn
        · exact hcsn
      · exact hcsn
    · simp at hstep
  | reserve thread write =>
    dsimp only [CsnHistory.step] at hstep
    split at hstep
    next mgr curCsn csn hmgr hphase =>
      have hspec := mgr.updateMaxReservedCsn_spec write hist.stored csn (h.reserved mgr hmgr)
      split at hstep
      next stored heq =>
        -- the write has failed: the manager stays, and the thread gives its csn up
        rw [heq] at hspec
        rw [← some.inj hstep]
        have hstored := h.stored hmgr hspec.1 rfl (Nat.le_trans (h.reserved mgr hmgr) hspec.1)
        have hidle : (CsnHistory.setPhase _ thread .idle).Inv :=
          hstored.setPhase (by simp) (by simp [CsnPhase.curCsn])
        simpa [CsnHistory.setPhase, hmgr] using hidle
      next mgr' stored heq =>
        rw [heq] at hspec
        rw [← some.inj hstep]
        obtain ⟨hnext, hreserved⟩ := hspec.2 mgr' rfl
        apply (h.stored hmgr hspec.1 hnext hreserved).setPhase (by simp)
        intro csn' hcsn
        rw [hphase]
        exact hcsn
    · simp at hstep
  | finish thread =>
    dsimp only [CsnHistory.step] at hstep
    split at hstep
    next mgr curCsn hmgr hphase =>
      split_ifs at hstep with hgt
      rw [← some.inj hstep]
      exact h.finish hmgr hphase (Nat.le_of_not_lt hgt)
    · simp at hstep

/-- It holds in every reachable history. -/
theorem Reachable.inv {stored : ℕ} (h : Reachable stored hist) : hist.Inv := by
  induction h with
  | start => exact start_inv stored
  | step _ event hfits hstep ih => exact ih.step event hfits hstep

/-- No step of a sequence wraps the counter. -/
def fitsRun : List CsnEvent → CsnHistory → Bool
  | [], _ => true
  | event :: events, hist => hist.fits event && (hist.step event).all (fitsRun events)

lemma Reachable.run {stored : ℕ} {events : List CsnEvent} (h : Reachable stored hist)
    (hfits : fitsRun events hist) (hrun : run events hist = some hist') :
    Reachable stored hist' := by
  induction events generalizing hist with
  | nil =>
    rw [← some.inj hrun]
    exact h
  | cons event events ih =>
    obtain ⟨hist1, hstep, hrest⟩ := bind_eq_some_iff.mp hrun
    rw [fitsRun, hstep, Bool.and_eq_true] at hfits
    exact ih (h.step event hfits.1 hstep) hfits.2 hrest

end CsnHistory

open CsnHistory

/-- In every history of calls, failed writes, crashes and restarts that does not wrap the counter,
an advancing call returns a csn the control file covers at that time, and no two advancing calls
return the same csn. -/
theorem csn_issued_once (stored : ℕ) (hist : CsnHistory) (h : hist.Reachable stored) :
    (∀ r ∈ hist.returned, r.advance = true → r.csn ≤ r.stored) ∧ hist.issued.Nodup :=
  ⟨fun r hr hadv => (h.inv.le_stored r hr hadv).1, h.inv.nodup⟩

/-- A call, a crash, a restart and a call of another thread. -/
def crashBetweenCalls : List CsnEvent :=
  [.restart 10, .fetch 0, .check 0, .reserve 0 .done, .finish 0, .crash,
    .restart 10, .fetch 1, .check 1, .reserve 1 .done, .finish 1]

/-- The calls before and after the crash return 21 and 41. -/
theorem csn_issued_once_after_crash :
    ∃ hist, CsnHistory.run crashBetweenCalls (.start 20) = some hist ∧ hist.issued = [41, 21] ∧
      (∀ r ∈ hist.returned, r.advance = true → r.csn ≤ r.stored) ∧ hist.issued.Nodup := by
  have hfits : (start 20).fitsRun crashBetweenCalls = true := by decide
  have hrun : ((start 20).run crashBetweenCalls).map issued =
      some [41, 21] := by decide
  obtain ⟨hist, hhist, hissued⟩ := Option.map_eq_some_iff.mp hrun
  have hreach : hist.Reachable 20 := Reachable.start.run hfits hhist
  exact ⟨hist, hhist, hissued, csn_issued_once 20 hist hreach⟩

/-- Right after a restart the csn that is looked at is above the reservation; and a counter that
wraps hands out csns a second time. -/
theorem peek_above_reservation_and_wrap :
    ((CsnHistory.start 20).run [.restart 10, .peek]).map CsnHistory.returned =
        some [⟨false, 21, 20⟩] ∧
      ((CsnHistory.start (2 ^ 64 - 1)).run [.restart 10, .fetch 0, .check 0, .finish 0, .crash,
        .restart 10, .fetch 0, .check 0, .finish 0]).map CsnHistory.issued = some [0, 0] := by
  decide

end DStore
