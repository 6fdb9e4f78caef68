import Mathlib.Data.List.Range
import DStore.Lib.FairSchedule
import DStore.Undo.TxnSlot

/-!
# The gate for replaying page records

A page is changed by records of several log streams. Each record carries the position the page had
when it was made: the stream, the end of the last record in that stream, and a counter that grows
when the stream changes. During recovery each stream offers its records in log order, and
`GetWalRecordReplayType` decides from the two positions whether a record is to be applied, has been
applied already, or has to wait for a record of another stream.
-/

namespace DStore

open FairSchedule List Function

/-- `WalRecordLsnInfo`, also for the position in a page header. -/
structure WalRecordLsnInfo where
  walId : WalId
  endPlsn : ℕ
  glsn : ℕ
deriving DecidableEq, Repr

/-- `WalRecordReplayType`. -/
inductive WalRecordReplayType where
  | notReplayable
  | replayable
  | noNeedToReplay
deriving DecidableEq, Repr

/-- `WalRecovery::GetWalRecordReplayType`. -/
def getWalRecordReplayType (page pagePreRecordLsnInfo recordLsnInfo : WalRecordLsnInfo) :
    WalRecordReplayType :=
  let replayType : WalRecordReplayType :=
    if recordLsnInfo.glsn > page.glsn then
      if recordLsnInfo.glsn = page.glsn + 1 then
        if pagePreRecordLsnInfo.glsn ≠ page.glsn ∨
            pagePreRecordLsnInfo.endPlsn ≠ page.endPlsn then .notReplayable
        else .replayable
      else .notReplayable
    else if recordLsnInfo.glsn = page.glsn then
      if recordLsnInfo.endPlsn > page.endPlsn then .replayable else .noNeedToReplay
    else .noNeedToReplay
  if replayType = .replayable then
    if pagePreRecordLsnInfo.glsn ≠ page.glsn ∨ pagePreRecordLsnInfo.endPlsn ≠ page.endPlsn ∨
        pagePreRecordLsnInfo.walId ≠ page.walId then .notReplayable
    else .replayable
  else replayType

/-- The position that `SetPagesLSN` gives a page for a record of the stream `walId`. -/
def setPagesLSN (page : WalRecordLsnInfo) (walId : WalId) (recordEndPlsn : ℕ) :
    WalRecordLsnInfo :=
  ⟨walId, recordEndPlsn, if walId = page.walId then page.glsn else page.glsn + 1⟩

/-- The position that the redo of a record gives the page, and that the gate compares. -/
def redoLsn (pagePre : WalRecordLsnInfo) (walId : WalId) (recordEndPlsn : ℕ) :
    WalRecordLsnInfo :=
  ⟨walId, recordEndPlsn, if pagePre.walId ≠ walId then pagePre.glsn + 1 else pagePre.glsn⟩

/-- The position that `Page::Init` retains: it goes through a 16-bit variable for the stream. -/
def pageInitLsn (page : WalRecordLsnInfo) : WalRecordLsnInfo :=
  { page with walId := page.walId.toUInt16.toUInt64 }

/-- A change of the page: the stream it is logged in, the end of its record there, and whether the
page is initialised again before the record is made. -/
structure PageChange where
  walId : WalId
  endPlsn : ℕ
  reinit : Bool
deriving DecidableEq, Repr

/-- The changes of a page from a first position on. -/
structure PageChain where
  start : WalRecordLsnInfo
  change : ℕ → PageChange
  length : ℕ

namespace PageChain

variable (c : PageChain)

/-- The position before change `j`, as the record of the change sees it. -/
def preOf (page : WalRecordLsnInfo) (change : PageChange) : WalRecordLsnInfo :=
  if change.reinit then pageInitLsn page else page

/-- The position of the page after the first `j` changes. -/
def lsn : ℕ → WalRecordLsnInfo
  | 0 => c.start
  | j + 1 =>
    setPagesLSN (preOf (lsn j) (c.change j)) (c.change j).walId (c.change j).endPlsn

/-- The position that the record of change `j` carries. -/
def pre (j : ℕ) : WalRecordLsnInfo := preOf (c.lsn j) (c.change j)

/-- The position that the redo of record `j` leaves. -/
def redo (j : ℕ) : WalRecordLsnInfo :=
  redoLsn (c.pre j) (c.change j).walId (c.change j).endPlsn

/-- Records of one stream end one after another, and behind the first position of the page. -/
structure Logged : Prop where
  order : ∀ i j, i < j → j < c.length → (c.change i).walId = (c.change j).walId →
    (c.change i).endPlsn < (c.change j).endPlsn
  start : ∀ j < c.length, (c.change j).walId = c.start.walId →
    c.start.endPlsn < (c.change j).endPlsn

/-- A recovery: the position in the page, how far each stream is, and the records applied. -/
structure Replay where
  page : WalRecordLsnInfo
  pos : WalId → ℕ
  applied : List ℕ

/-- The next record of a stream. -/
def offered (s : Replay) (walId : WalId) : Option ℕ :=
  (List.range' (s.pos walId) (c.length - s.pos walId)).find? fun j =>
    (c.change j).walId = walId

/-- The answer of the gate for a record. -/
def gate (s : Replay) (j : ℕ) : WalRecordReplayType :=
  getWalRecordReplayType s.page (c.pre j) (c.redo j)

/-- A stream offers its next record; one that is not replayable is offered again. -/
def offer (walId : WalId) (s : Replay) : Replay :=
  match c.offered s walId with
  | none => s
  | some j =>
    match c.gate s j with
    | .notReplayable => s
    | .noNeedToReplay => { s with pos := Function.update s.pos walId (j + 1) }
    | .replayable =>
      { page := c.redo j
        pos := Function.update s.pos walId (j + 1)
        applied := s.applied ++ [j] }

/-- Recovery from a stored page that has the first `k` changes, with the streams read from `pos`
on. -/
def recover (k : ℕ) (pos : WalId → ℕ) : Replay := ⟨c.lsn k, pos, []⟩

/-- Every recovery that is fair to the streams of the page and reads the records behind the stored
page applies exactly these, in order, and is left with none that is not replayable. -/
def ReplaysInOrder : Prop :=
  ∀ k ≤ c.length, ∀ pos : WalId → ℕ,
    (∀ j, k ≤ j → j < c.length → pos (c.change j).walId ≤ j) →
    ∀ schedule : ℕ → WalId,
      (∀ j < c.length, FairTo schedule (c.change j).walId) →
      (∀ t, (run c.offer schedule (c.recover k pos) t).applied <+:
        List.range' k (c.length - k)) ∧
      ∃ T, ∀ t ≥ T, (run c.offer schedule (c.recover k pos) t).applied =
          List.range' k (c.length - k) ∧
        ∀ walId j,
          c.offered (run c.offer schedule (c.recover k pos) t) walId = some j →
          c.gate (run c.offer schedule (c.recover k pos) t) j ≠ .notReplayable

end PageChain

/-! ## The gate -/

namespace WalRecordLsnInfo

variable {a b d : WalRecordLsnInfo}

/-- The order of positions: `operator>` of `WalRecordLsnInfo` turned round. -/
def Before (a b : WalRecordLsnInfo) : Prop :=
  a.glsn < b.glsn ∨ a.glsn = b.glsn ∧ a.endPlsn < b.endPlsn

instance decidableBefore (a b : WalRecordLsnInfo) : Decidable (a.Before b) :=
  inferInstanceAs (Decidable (_ ∨ _))

lemma Before.trans (hab : a.Before b) (hbd : b.Before d) : a.Before d := by
  unfold Before at *
  omega

lemma not_before_self (a : WalRecordLsnInfo) : ¬ a.Before a := by
  unfold Before
  omega

end WalRecordLsnInfo

open WalRecordLsnInfo

/-- What the gate answers, by the order of the lsns. -/
lemma getWalRecordReplayType_eq (page pre record : WalRecordLsnInfo) :
    getWalRecordReplayType page pre record =
      if ¬ page.Before record then .noNeedToReplay
      else if pre = page ∧ record.glsn ≤ page.glsn + 1 then .replayable
      else .notReplayable := by
  by_cases hbefore : page.Before record
  · rw [if_neg (not_not.mpr hbefore)]
    unfold Before at hbefore
    by_cases hpre : pre = page
    · subst hpre
      unfold getWalRecordReplayType
      grind
    · have hne : ¬ (pre.glsn = page.glsn ∧ pre.endPlsn = page.endPlsn ∧
          pre.walId = page.walId) := by
        rintro ⟨hglsn, hplsn, hwal⟩
        apply hpre
        cases pre
        cases page
        simp_all
      rw [if_neg fun h => hpre h.1]
      unfold getWalRecordReplayType
      grind
  · rw [if_pos hbefore]
    unfold Before at hbefore
    unfold getWalRecordReplayType
    grind

/-- The page header keeps 16 bits of the WAL id. -/
lemma pageInitLsn_eq_iff (page : WalRecordLsnInfo) :
    pageInitLsn page = page ↔ page.walId.toNat < 2 ^ 16 := by
  have hmod : page.walId.toUInt16.toUInt64.toNat = page.walId.toNat % 2 ^ 16 := by simp
  constructor
  · intro h
    have hwal : page.walId.toUInt16.toUInt64 = page.walId := congrArg walId h
    rw [hwal] at hmod
    rw [hmod]
    exact Nat.mod_lt _ (by decide)
  · intro h
    have hwal : page.walId.toUInt16.toUInt64 = page.walId := by
      apply UInt64.toNat_inj.mp
      rw [hmod, Nat.mod_eq_of_lt h]
    unfold pageInitLsn
    rw [hwal]

namespace PageChain

variable {c : PageChain} {k m i j : ℕ} {s : Replay} {walId : WalId}

lemma redo_eq_lsn (c : PageChain) (j : ℕ) : c.redo j = c.lsn (j + 1) := by
  rw [redo, lsn, redoLsn, setPagesLSN, pre]
  split_ifs with h1 h2 h2
  · exact absurd h2.symm h1
  · rfl
  · rfl
  · exact absurd (Ne.symm h2) h1

/-- Every record carries the position of the page before it. -/
def Retained (c : PageChain) : Prop := ∀ j < c.length, c.pre j = c.lsn j

/-! ### The positions of a chain -/

section Order

variable (hlog : c.Logged) (hret : c.Retained)
include hlog hret

/-- Each record of the page comes after the one before. -/
lemma lsn_before_succ (hj : j < c.length) : (c.lsn j).Before (c.lsn (j + 1)) := by
  rw [lsn, ← pre, hret j hj, setPagesLSN]
  by_cases hwal : (c.change j).walId = (c.lsn j).walId
  · rw [if_pos hwal]
    refine Or.inr ⟨rfl, ?_⟩
    -- the page's last record in this stream is the previous one
    cases j with
    | zero => exact hlog.start 0 hj hwal
    | succ i => exact hlog.order i (i + 1) (Nat.lt_add_one i) hj hwal.symm
  · rw [if_neg hwal]
    exact Or.inl (Nat.lt_add_one _)

/-- So the lsns of the page are ordered. -/
lemma lsn_before (hij : i < j) (hj : j ≤ c.length) : (c.lsn i).Before (c.lsn j) := by
  induction j, hij using Nat.le_induction with
  | base => exact lsn_before_succ hlog hret hj
  | succ j _ ih => exact (ih (by omega)).trans (lsn_before_succ hlog hret hj)

/-- A record that was applied is skipped. -/
lemma gate_of_lt (hpage : s.page = c.lsn m) (hm : m ≤ c.length) (hj : j < m) :
    c.gate s j = .noNeedToReplay := by
  have hnot : ¬ s.page.Before (c.redo j) := by
    rw [hpage, redo_eq_lsn]
    intro hbefore
    rcases Nat.eq_or_lt_of_le (Nat.succ_le_of_lt hj) with heq | hlt
    · rw [Nat.succ_eq_add_one] at heq
      rw [heq] at hbefore
      exact not_before_self _ hbefore
    · exact not_before_self _ ((lsn_before hlog hret hlt hm).trans hbefore)
  rw [gate, getWalRecordReplayType_eq, if_pos hnot]

/-- The next record is let through. -/
lemma gate_of_eq (hpage : s.page = c.lsn m) (hm : m < c.length) : c.gate s m = .replayable := by
  have hbefore := lsn_before_succ hlog hret hm
  have hglsn : (c.lsn (m + 1)).glsn ≤ (c.lsn m).glsn + 1 := by
    rw [lsn, ← pre, hret m hm, setPagesLSN]
    dsimp only
    split_ifs <;> omega
  rw [gate, getWalRecordReplayType_eq, redo_eq_lsn, hpage, if_neg (not_not.mpr hbefore),
    if_pos ⟨hret m hm, hglsn⟩]

/-- A later record has to wait. -/
lemma gate_of_gt (hpage : s.page = c.lsn m) (hmj : m < j) (hj : j < c.length) :
    c.gate s j = .notReplayable := by
  have hbefore := lsn_before hlog hret (show m < j + 1 by omega) hj
  have hne : c.pre j ≠ c.lsn m := by
    rw [hret j hj]
    intro heq
    have hself := lsn_before hlog hret hmj hj.le
    rw [heq] at hself
    exact not_before_self _ hself
  rw [gate, getWalRecordReplayType_eq, redo_eq_lsn, hpage, if_neg (not_not.mpr hbefore),
    if_neg fun h => hne h.1]

end Order

/-! ### Recovery -/

/-- A worker offers the next record of its stream. -/
lemma offered_eq_some (h : c.offered s walId = some j) :
    s.pos walId ≤ j ∧ j < c.length ∧ (c.change j).walId = walId := by
  have hmem := mem_of_find?_eq_some h
  have hwal := find?_some h
  rw [mem_range'_1] at hmem
  rw [decide_eq_true_eq] at hwal
  exact ⟨hmem.1, by omega, hwal⟩

/-- The worker whose turn it is offers a record that is due or older. -/
lemma exists_offered_le (hpos : s.pos (c.change m).walId ≤ m) (hm : m < c.length) :
    ∃ j ≤ m, c.offered s (c.change m).walId = some j := by
  cases hfind : c.offered s (c.change m).walId with
  | none =>
    have hnone := find?_range'_eq_none.mp hfind m hpos (by omega)
    simp at hnone
  | some j =>
    refine ⟨j, ?_, rfl⟩
    by_contra hlt
    have hbefore := (find?_range'_eq_some.mp hfind).2.2 m hpos (by omega)
    simp at hbefore

/-- Recovery has applied the records from `k` to `m`, and every stream still has its later ones. -/
structure At (c : PageChain) (k m : ℕ) (s : Replay) : Prop where
  le : k ≤ m ∧ m ≤ c.length
  page : s.page = c.lsn m
  applied : s.applied = List.range' k (m - k)
  pos : ∀ j, m ≤ j → j < c.length → s.pos (c.change j).walId ≤ j

section Run

variable (hlog : c.Logged) (hret : c.Retained)

/-- Skipping keeps the state. -/
lemma At.skip (h : At c k m s) (hj : j < m) :
    At c k m { s with pos := update s.pos walId (j + 1) } := by
  refine ⟨h.le, h.page, h.applied, fun i hi hlen => ?_⟩
  dsimp only
  by_cases hwal : (c.change i).walId = walId
  · rw [hwal, update_self]
    omega
  · rw [update_of_ne hwal]
    exact h.pos i hi hlen

/-- Applying the next record moves on by one. -/
lemma At.apply (h : At c k m s) (hm : m < c.length) :
    At c k (m + 1) ⟨c.redo m, update s.pos walId (m + 1), s.applied ++ [m]⟩ := by
  have hle := h.le
  refine ⟨⟨by omega, hm⟩, c.redo_eq_lsn m, ?_, fun i hi hlen => ?_⟩
  · have hlen : m + 1 - k = m - k + 1 := by omega
    have hlast : k + 1 * (m - k) = m := by omega
    rw [hlen, range'_concat, h.applied, hlast]
  · dsimp only
    by_cases hwal : (c.change i).walId = walId
    · rw [hwal, update_self]
      exact hi
    · rw [update_of_ne hwal]
      exact h.pos i (by omega) hlen

include hlog hret

/-- An offer waits, skips or applies. -/
lemma At.offer_cases (h : At c k m s) (walId : WalId) :
    c.offer walId s = s ∧ (∀ j ≤ m, c.offered s walId ≠ some j) ∨
      (∃ j < m, s.pos walId ≤ j ∧
        c.offer walId s = { s with pos := update s.pos walId (j + 1) }) ∨
      At c k (m + 1) (c.offer walId s) := by
  unfold offer
  cases hoffered : c.offered s walId with
  | none => exact Or.inl ⟨rfl, fun _ _ => nofun⟩
  | some j =>
    obtain ⟨hpos, hj, hwal⟩ := offered_eq_some hoffered
    dsimp only
    rcases Nat.lt_trichotomy j m with hlt | rfl | hgt
    · rw [gate_of_lt hlog hret h.page h.le.2 hlt]
      exact Or.inr (Or.inl ⟨j, hlt, hpos, rfl⟩)
    · rw [gate_of_eq hlog hret h.page hj]
      exact Or.inr (Or.inr (h.apply hj))
    · rw [gate_of_gt hlog hret h.page hgt hj]
      refine Or.inl ⟨rfl, fun i hi heq => ?_⟩
      cases heq
      exact absurd hgt (not_lt.mpr hi)

/-- So it stays or moves on by one. -/
lemma At.offer (h : At c k m s) (walId : WalId) :
    At c k m (c.offer walId s) ∨ At c k (m + 1) (c.offer walId s) := by
  rcases h.offer_cases hlog hret walId with ⟨heq, -⟩ | ⟨j, hj, -, heq⟩ | hnext
  · rw [heq]
    exact Or.inl h
  · rw [heq]
    exact Or.inl (h.skip hj)
  · exact Or.inr hnext

section

variable {schedule : ℕ → WalId}
  {start : Replay}
  {t : ℕ}
  (h : At c k m (run c.offer schedule start t))
include h

/-- Once the stream of the next record has its turn often enough, the record is applied. -/
lemma At.eventually_succ (hm : m < c.length)
    (hfair : FairTo schedule (c.change m).walId) :
    ∃ t' ≥ t, At c k (m + 1) (run c.offer schedule start t') := by
  refine eventually_of_helpful (P := At c k m)
    (fun s => m - s.pos (c.change m).walId) hfair ?_ ?_ h
  · intro walId s hs
    rcases hs.offer_cases hlog hret walId with ⟨heq, -⟩ | ⟨j, hj, hpos, heq⟩ | hnext
    · rw [heq]
      exact Or.inr ⟨hs, le_rfl⟩
    · rw [heq]
      refine Or.inr ⟨hs.skip hj, ?_⟩
      dsimp only
      by_cases hwal : (c.change m).walId = walId
      · rw [hwal, update_self]
        omega
      · rw [update_of_ne hwal]
    · exact Or.inl hnext
  · intro s hs
    rcases hs.offer_cases hlog hret (c.change m).walId with ⟨-, hnone⟩ | ⟨j, hj, hpos, heq⟩ | hnext
    · obtain ⟨j, hj, hoffered⟩ := exists_offered_le (hs.pos m le_rfl hm) hm
      exact absurd hoffered (hnone j hj)
    · refine Or.inr ?_
      rw [heq]
      dsimp only
      rw [update_self]
      omega
    · exact Or.inl hnext

/-- Under a fair schedule all records are applied. -/
lemma At.eventually_end
    (hfair : ∀ j < c.length, FairTo schedule (c.change j).walId) :
    ∃ t' ≥ t, At c k c.length (run c.offer schedule start t') := by
  generalize hrest : c.length - m = rest
  induction rest generalizing m t with
  | zero =>
    have hm : m = c.length := by
      have := h.le
      omega
    exact ⟨t, le_rfl, hm ▸ h⟩
  | succ rest ih =>
    have hm : m < c.length := by omega
    obtain ⟨t1, ht1, h1⟩ := h.eventually_succ hlog hret hm (hfair m hm)
    obtain ⟨t2, ht2, h2⟩ := ih h1 (by omega)
    exact ⟨t2, ht1.trans ht2, h2⟩

end

/-- Then nothing more is applied. -/
lemma At.offer_end (h : At c k c.length s) (walId : WalId) : At c k c.length (c.offer walId s) := by
  rcases h.offer hlog hret walId with hsame | hnext
  · exact hsame
  · exact absurd hnext.le.2 (by omega)

/-- Chains whose records carry the page's position are replayed in order. -/
lemma replaysInOrder_of_retained : c.ReplaysInOrder := by
  intro k hk pos hpos schedule hfair
  have hstart : At c k k (c.recover k pos) := by
    refine ⟨⟨le_rfl, hk⟩, rfl, ?_, hpos⟩
    rw [Nat.sub_self]
    rfl
  constructor
  · intro t
    have hat : ∃ m, At c k m (run c.offer schedule (c.recover k pos) t) := by
      apply run_invariant (P := fun s => ∃ m, At c k m s) ⟨k, hstart⟩
      rintro walId s ⟨m, hm⟩
      rcases hm.offer hlog hret walId with hsame | hnext
      · exact ⟨m, hsame⟩
      · exact ⟨m + 1, hnext⟩
    obtain ⟨m, hm⟩ := hat
    have hle := hm.le
    have hsplit : c.length - k = m - k + (c.length - m) := by omega
    rw [hm.applied, hsplit, ← range'_append_1]
    exact prefix_append _ _
  · obtain ⟨T, -, hend⟩ :=
      At.eventually_end hlog hret
        (show At c k k (run c.offer schedule (c.recover k pos) 0) from hstart) hfair
    refine ⟨T, fun t ht => ?_⟩
    have hat := run_stable (P := At c k c.length)
      (fun walId s hs => hs.offer_end hlog hret walId) ht hend
    refine ⟨hat.applied, fun walId j hoffered => ?_⟩
    obtain ⟨-, hj, -⟩ := offered_eq_some hoffered
    rw [gate_of_lt hlog hret hat.page le_rfl hj]
    exact WalRecordReplayType.noConfusion

end Run

/-! ### Records that do not carry the page's position -/

/-- Fair schedules exist. -/
lemma exists_fair_schedule (c : PageChain) :
    ∃ schedule : ℕ → WalId,
      ∀ j < c.length, FairTo schedule (c.change j).walId := by
  refine ⟨fun t => (c.change (t % c.length)).walId, fun j hj t => ⟨t * c.length + j, ?_, ?_⟩⟩
  · have hle : t ≤ t * c.length := Nat.le_mul_of_pos_right t (by omega)
    omega
  · dsimp only
    rw [Nat.mul_add_mod_self_right, Nat.mod_eq_of_lt hj]

/-- If record `j` does not carry the page's position, recovery from the page before it is stuck. -/
lemma not_replaysInOrder (hj : j < c.length) (hpre : c.pre j ≠ c.lsn j) : ¬ c.ReplaysInOrder := by
  intro hreplays
  obtain ⟨schedule, hfair⟩ := c.exists_fair_schedule
  obtain ⟨hstretch, T, hdone⟩ :=
    hreplays j hj.le (fun _ => 0) (fun _ _ _ => Nat.zero_le _) schedule hfair
  -- the first record to be applied would be `j`, on the stored page
  have hstuck : ∀ t, (run c.offer schedule (c.recover j fun _ => 0) t).page =
        c.lsn j ∧
      (run c.offer schedule (c.recover j fun _ => 0) t).applied = [] := by
    intro t
    induction t with
    | zero => exact ⟨rfl, rfl⟩
    | succ t ih =>
      obtain ⟨hpage, happlied⟩ := ih
      have hnext := hstretch (t + 1)
      rw [run] at hnext ⊢
      generalize run c.offer schedule (c.recover j fun _ => 0) t = s at *
      unfold PageChain.offer at hnext ⊢
      cases hoffered : c.offered s (schedule t) with
      | none => exact ⟨hpage, happlied⟩
      | some i =>
        rw [hoffered] at hnext
        dsimp only at hnext ⊢
        cases hgate : c.gate s i with
        | notReplayable => exact ⟨hpage, happlied⟩
        | noNeedToReplay => exact ⟨hpage, happlied⟩
        | replayable =>
          exfalso
          rw [hgate] at hnext
          dsimp only at hnext
          have hi : i = j := by
            have hpos : 0 < c.length - j := by omega
            obtain ⟨n, hn⟩ := Nat.exists_eq_add_of_le' hpos
            rw [happlied, hn, List.range'_succ, List.nil_append] at hnext
            exact (List.cons_prefix_cons.mp hnext).1
          subst hi
          rw [gate, getWalRecordReplayType_eq, hpage] at hgate
          split_ifs at hgate with hbefore hreplay
          exact hpre hreplay.1
  have hempty := (hdone T le_rfl).1
  rw [(hstuck T).2] at hempty
  have hlen := congrArg List.length hempty
  rw [List.length_range', List.length_nil] at hlen
  omega

/-- The records of a page are applied exactly once and in order, by every fair recovery from every
stored page, exactly if the page's stream fits into sixteen bits whenever `Page::Init` is run. -/
theorem replaysInOrder_iff (hlog : c.Logged) :
    c.ReplaysInOrder ↔
      ∀ j < c.length, (c.change j).reinit = true → (c.lsn j).walId.toNat < 2 ^ 16 := by
  constructor
  · intro hreplays j hj hreinit
    by_contra hlt
    apply not_replaysInOrder hj _ hreplays
    rw [pre, preOf, if_pos hreinit]
    exact fun heq => hlt ((pageInitLsn_eq_iff _).mp heq)
  · intro hsmall
    apply replaysInOrder_of_retained hlog
    intro j hj
    rw [pre, preOf]
    split_ifs with hreinit
    · exact (pageInitLsn_eq_iff _).mpr (hsmall j hj hreinit)
    · rfl

/-- Two streams, one of them with a large number, and a new initialisation of the page while the
other one is its last. -/
theorem replaysInOrder_two_streams :
    PageChain.ReplaysInOrder ⟨⟨0, 0, 0⟩, fun j =>
      match j with
      | 0 => ⟨70000, 100, false⟩
      | 1 => ⟨5, 40, false⟩
      | _ => ⟨70000, 200, true⟩, 3⟩ := by
  refine (replaysInOrder_iff ⟨?_, ?_⟩).mpr ?_
  · intro i j hij hj
    have hcases : j = 1 ∧ i = 0 ∨ j = 2 ∧ i = 0 ∨ j = 2 ∧ i = 1 := by
      dsimp only at hj
      omega
    rcases hcases with ⟨rfl, rfl⟩ | ⟨rfl, rfl⟩ | ⟨rfl, rfl⟩ <;> decide
  · intro j hj
    have hcases : j = 0 ∨ j = 1 ∨ j = 2 := by
      dsimp only at hj
      omega
    rcases hcases with rfl | rfl | rfl <;> decide
  · intro j hj
    have hcases : j = 0 ∨ j = 1 ∨ j = 2 := by
      dsimp only at hj
      omega
    rcases hcases with rfl | rfl | rfl <;> decide

/-- One stream whose number needs seventeen bits: after a new initialisation the next record never
becomes replayable. -/
theorem not_replaysInOrder_after_init :
    ¬ PageChain.ReplaysInOrder ⟨⟨0, 0, 0⟩, fun j =>
      match j with
      | 0 => ⟨65537, 100, false⟩
      | _ => ⟨65537, 200, true⟩, 2⟩ :=
  not_replaysInOrder (j := 1) (by decide) (by decide)

end PageChain

end DStore
