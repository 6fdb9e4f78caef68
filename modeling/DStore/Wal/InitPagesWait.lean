import DStore.Wal.RedoData
import Mathlib.Order.Monotone.Basic

/-!
# Waiting for the pages of an init record

The redo of a record that initialises many pages reads them one after another. While a page cannot
be read it waits, as long as the version of the file is not beyond that of the record. It does not
read again after it has seen a newer version, and versions only grow: such a wait never ends.
-/

namespace DStore

variable {Body Relmap : Type}

/-- What the server answers in the turns of the redo: the page the `k`-th read of a turn finds, and
the version of the file at its `k`-th check. Versions only grow, and a file that stays at the
version of the record is readable after finitely many reads. -/
structure InitAnswers (Body : Type) (filePreVersion : ℕ) where
  read : ℕ → ℕ → Option (RedoPage Body)
  version : ℕ → ℕ → ℕ
  version_mono : ∀ i, Monotone (version i)
  read_current : ∀ i, (∀ k, version i k ≤ filePreVersion) → ∃ k, read i k ≠ none

namespace InitAnswers

variable {filePreVersion : ℕ} (answers : InitAnswers Body filePreVersion) (i : ℕ)

/-- The loop of a turn: the number of the last read, that of the next check, and at most so many
rounds. -/
def waitForPage : ℕ → ℕ → ℕ → Option (RedoPage Body)
  | 0, _, _ => none
  | rounds + 1, reads, checks =>
    match answers.read i reads with
    | some page => some page
    | none =>
      if answers.version i checks ≤ filePreVersion then waitForPage rounds (reads + 1) (checks + 1)
      else waitForPage rounds reads (checks + 1)

/-- As long as the page of the turn cannot be read, the file is not beyond the record. -/
def Current : Prop :=
  ∀ k, (∀ j ≤ k, answers.read i j = none) → answers.version i k ≤ filePreVersion

variable {answers i}

/-- The reads up to the first that finds the page are made. -/
lemma waitForPage_of_read {page : RedoPage Body} (n : ℕ) {m : ℕ}
    (hfail : ∀ j < m + n, answers.read i j = none ∧ answers.version i j ≤ filePreVersion)
    (hread : answers.read i (m + n) = some page) :
    answers.waitForPage i (n + 1) m m = some page := by
  induction n generalizing m with
  | zero => rw [waitForPage, show answers.read i m = _ from hread]
  | succ n ih =>
    obtain ⟨hnone, hle⟩ := hfail m (by omega)
    rw [waitForPage, hnone, if_pos hle]
    rw [show m + (n + 1) = m + 1 + n by omega] at hfail hread
    exact ih hfail hread

/-- After a version beyond that of the record the page is not read again. -/
lemma waitForPage_beyond (rounds : ℕ) {reads checks : ℕ} (hnone : answers.read i reads = none)
    (hlt : filePreVersion < answers.version i checks) :
    answers.waitForPage i rounds reads checks = none := by
  induction rounds generalizing checks with
  | zero => rfl
  | succ rounds ih =>
    rw [waitForPage, hnone, if_neg (not_le.2 hlt)]
    exact ih (hlt.trans_le (answers.version_mono i (Nat.le_succ checks)))

/-- The wait goes on while the page cannot be read and the file is newer. -/
lemma waitForPage_stuck (rounds : ℕ) {k m : ℕ} (hm : m ≤ k)
    (hnone : ∀ j ≤ k, answers.read i j = none) (hlt : filePreVersion < answers.version i k) :
    answers.waitForPage i rounds m m = none := by
  induction rounds generalizing m with
  | zero => rfl
  | succ rounds ih =>
    rw [waitForPage, hnone m hm]
    split_ifs with hle
    · rcases hm.lt_or_eq with hlt' | rfl
      · exact ih hlt'
      · exact absurd hlt (not_lt.2 hle)
    · exact waitForPage_beyond rounds (hnone m hm)
        ((not_le.1 hle).trans_le (answers.version_mono i (Nat.le_succ m)))

/-- A turn ends if the file is not beyond the record while the page cannot be read. -/
lemma Current.ends (h : answers.Current i) :
    ∃ rounds k page, answers.waitForPage i rounds 0 0 = some page ∧
      answers.read i k = some page := by
  have hex : ∃ k, answers.read i k ≠ none := by
    by_contra hnot
    push Not at hnot
    obtain ⟨k, hk⟩ := answers.read_current i fun k => h k fun j _ => hnot j
    exact hk (hnot k)
  classical
  have hfirst : ∀ j < Nat.find hex, answers.read i j = none := fun j hj =>
    not_not.1 (Nat.find_min hex hj)
  obtain ⟨page, hpage⟩ := Option.ne_none_iff_exists'.1 (Nat.find_spec hex)
  refine ⟨Nat.find hex + 1, Nat.find hex, page,
    waitForPage_of_read _ (fun j hj => ?_) (by rwa [Nat.zero_add]), hpage⟩
  rw [Nat.zero_add] at hj
  exact ⟨hfirst j hj, h j fun j' hj' => hfirst j' (hj'.trans_lt hj)⟩

end InitAnswers

namespace RedoEnv

variable (env : RedoEnv Body Relmap) (entry : RedoWalRecordEntry) (record : RedoWalRecord)
  (answers : InitAnswers Body record.filePreVersion.toNat)

/-- What a turn leaves of the page it has read. -/
def initIfReplayable (i : ℕ) (page : RedoPage Body) : RedoPage Body :=
  if env.gate entry.recordEndPlsn ((env.recordBody entry).preWalPointer i) page = .replayable then
    env.initPage entry record i page
  else page

/-- The loop of `WalRecordTbsInitBitmapPages::Redo` and of `WalRecordTbsInitDataPages::Redo`, with
at most so many rounds of each turn: the pages as they were read and as they are left. -/
def redoInitWaiting (rounds : ℕ → ℕ) : ℕ → Option (List (RedoPage Body × RedoPage Body))
  | 0 => some []
  | count + 1 =>
    (redoInitWaiting rounds count).bind fun done =>
      (answers.waitForPage count (rounds count) 0 0).map fun page =>
        done ++ [(page, env.initIfReplayable entry record count page)]

variable {env entry record answers}

/-- If the wait for each page ends, all pages are initialised. -/
lemma redoInitWaiting_eq {rounds : ℕ → ℕ} {count : ℕ} {page : ℕ → RedoPage Body}
    (h : ∀ i < count, answers.waitForPage i (rounds i) 0 0 = some (page i)) :
    env.redoInitWaiting entry record answers rounds count =
      some ((List.range count).map fun i =>
        (page i, env.initIfReplayable entry record i (page i))) := by
  induction count with
  | zero => rfl
  | succ count ih =>
    rw [redoInitWaiting, ih fun i hi => h i (Nat.lt_succ_of_lt hi),
      h count (Nat.lt_succ_self count), List.range_succ, List.map_append]
    rfl

/-- If all ends, so does the wait for each page. -/
lemma turn_ends {rounds : ℕ → ℕ} {count i : ℕ} {done : List (RedoPage Body × RedoPage Body)}
    (h : env.redoInitWaiting entry record answers rounds count = some done) (hi : i < count) :
    answers.Current i := by
  induction count generalizing done with
  | zero => exact absurd hi (Nat.not_lt_zero i)
  | succ count ih =>
    obtain ⟨before, hbefore, h⟩ := Option.bind_eq_some_iff.1 h
    obtain ⟨page, hpage, -⟩ := Option.map_eq_some_iff.1 h
    rcases Nat.lt_succ_iff_lt_or_eq.1 hi with hlt | rfl
    · exact ih hbefore hlt
    · intro k hnone
      by_contra hlt
      rw [InitAnswers.waitForPage_stuck _ (Nat.zero_le k) hnone (not_le.1 hlt)] at hpage
      cases hpage

variable (env entry record answers)

/-- The redo ends, with every listed page read and initialised if and only if it is replayable,
exactly if the file is not beyond the record while a listed page cannot be read. -/
theorem redoInitWaiting_ends_iff :
    (∃ (rounds : ℕ → ℕ) (page : ℕ → RedoPage Body),
      env.redoInitWaiting entry record answers rounds record.pageCount =
        some ((List.range record.pageCount).map fun i =>
          (page i, env.initIfReplayable entry record i (page i))) ∧
      ∀ i < record.pageCount, ∃ k, answers.read i k = some (page i)) ↔
      ∀ i < record.pageCount, answers.Current i := by
  constructor
  · rintro ⟨rounds, page, hdone, -⟩ i hi
    exact turn_ends hdone hi
  · intro h
    have hends : ∀ i, ∃ rounds page, i < record.pageCount →
        answers.waitForPage i rounds 0 0 = some page ∧ ∃ k, answers.read i k = some page := by
      intro i
      by_cases hi : i < record.pageCount
      · obtain ⟨rounds, k, page, hpage, hread⟩ := (h i hi).ends
        exact ⟨rounds, page, fun _ => ⟨hpage, k, hread⟩⟩
      · exact ⟨0, env.zeroPage, fun hlt => absurd hlt hi⟩
    choose rounds page hturn using hends
    exact ⟨rounds, page, redoInitWaiting_eq fun i hi => (hturn i hi).1, fun i hi => (hturn i hi).2⟩

/-- The file is dropped before the page is read, and used again later. -/
def reusedFile : InitAnswers Unit 1 where
  read _ _ := none
  version _ k := k + 1
  version_mono _ := fun _ _ h => Nat.succ_le_succ h
  read_current _ h := absurd (h 1) (by decide)

theorem reusedFile_never_ends : ¬ ∃ (env : RedoEnv Unit Unit) (rounds : _) (done : _),
    env.redoInitWaiting ⟨100, none⟩ ⟨.tbsInitMultipleDataPages, 30, ⟨7, 5⟩, 1, 1, 3⟩ reusedFile
      rounds 1 = some done := by
  rintro ⟨env, rounds, done, h⟩
  exact absurd (turn_ends h Nat.one_pos 1 fun _ _ => rfl) (by decide)

end RedoEnv

end DStore
