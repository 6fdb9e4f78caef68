import DStore.Txn.CsnMgr
import Mathlib.Tactic.Ring

/-!
# Who extends the reservation

After a restart the counter is one above the stored reservation. Only callers whose csn is 1
modulo the increment extend the reservation, each by one increment more than the next such
caller needs; a caller that is not covered by then waits. So the first caller after a restart
must be such a caller, and a failed write is made up for only by the write before it.
-/

namespace DStore

open List CsnState CsnCall CsnMgr

/-- The control-file writes of the advancing calls. -/
def CsnCall.writes (calls : List CsnCall) : List ControlWrite :=
  calls.filterMap fun
    | .peek => none
    | .advance write => some write

/-- The advancing call number `i` extends the reservation itself, or the last call before it that
does, or the one before that, has stored its reservation. -/
def CsnCovered (increment : ℕ) (writes : List ControlWrite) (i : ℕ) : Prop :=
  i % increment = 0 ∨ writes[i / increment * increment]? = some .done ∨
    (increment ≤ i ∧ writes[i / increment * increment - increment]? = some .done)

instance (increment : ℕ) (writes : List ControlWrite) (i : ℕ) :
    Decidable (CsnCovered increment writes i) :=
  inferInstanceAs (Decidable (_ ∨ _ ∨ _))

/-- Whether a run waits depends only on the calls that advance. -/
lemma CsnState.run_waits_iff (calls : List CsnCall) (st : CsnState) :
    .waits ∈ st.run calls ↔
      .waits ∈ st.run ((writes calls).map .advance) := by
  induction calls generalizing st with
  | nil => rfl
  | cons call calls ih =>
    cases call with
    | peek => simpa [run, writes] using ih st
    | advance write =>
      have hwrites : writes (.advance write :: calls) = write :: writes calls := rfl
      rw [hwrites, map_cons, run, run]
      split
      · rfl
      · rw [mem_cons, mem_cons, ih]

/-- The reservation in memory after `blocks` callers were to extend it. -/
def reservedAfter (increment stored : ℕ) (writes : List ControlWrite) : ℕ → ℕ
  | 0 => stored
  | b + 1 =>
    if writes[b * increment]? = some .done then stored + (b + 2) * increment
    else reservedAfter increment stored writes b

lemma CsnState.run_advance (write : ControlWrite) (calls : List CsnCall) (st : CsnState) :
    st.run (.advance write :: calls) =
      if (st.getNextCsnAdvance write).1 = .waits then [.waits]
      else (st.getNextCsnAdvance write).1 :: (st.getNextCsnAdvance write).2.run calls := by
  rw [run]
  split
  next hres => rw [hres, if_pos rfl]
  next result st' hne hres =>
    rw [hres]
    exact (if_neg hne).symm

section Life

variable {increment stored : ℕ} {writes : List ControlWrite}

/-- A reservation covers at most the next increment. -/
lemma reservedAfter_le (increment stored : ℕ) (writes : List ControlWrite) (b : ℕ) :
    reservedAfter increment stored writes b ≤ stored + b * increment + increment := by
  induction b with
  | zero => simp [reservedAfter]
  | succ b ih =>
    rw [reservedAfter]
    split_ifs
    · rw [Nat.add_mul, Nat.add_mul]
      omega
    · rw [Nat.add_mul]
      omega

/-- One that covers more than its first csn covers the whole increment. -/
lemma reservedAfter_eq (b : ℕ)
    (hlt : stored + b * increment + 1 < reservedAfter increment stored writes b) :
    reservedAfter increment stored writes b = stored + b * increment + increment := by
  cases b with
  | zero =>
    rw [reservedAfter] at hlt
    omega
  | succ b =>
    have hold := reservedAfter_le increment stored writes b
    rw [reservedAfter] at hlt ⊢
    rw [Nat.add_mul] at hlt ⊢
    split_ifs at hlt ⊢ with hlast
    · rw [Nat.add_mul]
      omega
    · omega

/-- A csn is covered if the write of its increment was done, or the one before. -/
lemma le_reservedAfter_iff {b i : ℕ} (hlt : b * increment < i)
    (hle : i < b * increment + increment) :
    stored + 1 + i ≤ reservedAfter increment stored writes (b + 1) ↔
      writes[b * increment]? = some .done ∨
        (0 < b ∧ writes[b * increment - increment]? = some .done) := by
  rw [reservedAfter]
  split_ifs with hlast
  · exact iff_of_true (by rw [Nat.add_mul]; omega) (Or.inl hlast)
  · cases b with
    | zero =>
      rw [reservedAfter]
      exact iff_of_false (by omega) (by simp_all)
    | succ b =>
      have hidx : (b + 1) * increment - increment = b * increment := by
        rw [Nat.add_mul]
        omega
      rw [reservedAfter, hidx]
      split_ifs with hbefore
      · refine iff_of_true ?_ (Or.inr ⟨Nat.succ_pos b, hbefore⟩)
        rw [Nat.add_mul] at hle ⊢
        omega
      · have hold := reservedAfter_le increment stored writes b
        refine iff_of_false ?_ (by simp [hlast, hbefore])
        rw [Nat.add_mul] at hlt
        omega

/-- The first call of an increment is the one that reserves. -/
lemma succ_mod_eq_one_iff {n : ℕ} (hincrement : 1 ≤ increment) :
    (n + 1) % increment = 1 ↔ 2 ≤ increment ∧ n % increment = 0 := by
  rcases Nat.lt_or_ge increment 2 with hone | htwo
  · simp [show increment = 1 by omega, Nat.mod_one]
  · have hlt := Nat.mod_lt n (show 0 < increment by omega)
    rw [Nat.add_mod, Nat.mod_eq_of_lt (show 1 < increment by omega)]
    by_cases hlast : n % increment + 1 = increment
    · rw [hlast, Nat.mod_self]
      omega
    · rw [Nat.mod_eq_of_lt (by omega)]
      omega

/-- The state after `i` advancing calls, none of which waits, when `blocks` of them were to
extend the reservation. -/
structure CsnInv (increment stored : ℕ) (writes : List ControlWrite) (i blocks : ℕ)
    (st : CsnState) : Prop where
  increment_eq : st.mgr.csnAssignmentIncrement = increment
  le_blocks : i ≤ blocks * increment
  blocks_lt : blocks * increment < i + increment
  next_eq : st.mgr.nextCsn = stored + 1 + i
  stored_le : st.stored ≤ stored + blocks * increment + increment
  reserved_eq : st.mgr.maxReservedCsn = reservedAfter increment stored writes blocks

variable {i blocks : ℕ} {st : CsnState} (hincrement : 2 ≤ increment)
  (hstored : stored % increment = 0)
  (hfit : stored + i + 2 * increment + 1 < 2 ^ 64)
  (h : CsnInv increment stored writes i blocks st)

include hincrement hfit h in
/-- The next csn does not wrap within the bound. -/
lemma CsnInv.fetchAddNextCsn : (st.mgr.nextCsn + 1) % 2 ^ 64 = stored + 1 + (i + 1) := by
  have hnext := h.next_eq
  rw [Nat.mod_eq_of_lt (by omega)]
  omega

include hincrement hstored hfit h

/-- What the caller at the start of a block asks for, whatever became of the writes before. -/
lemma CsnInv.newMaxReservedCsn (hi : i = blocks * increment) :
    st.mgr.extendsReservation st.mgr.nextCsn ∧
      st.mgr.fetchAddNextCsn.newMaxReservedCsn st.mgr.nextCsn =
        some (stored + blocks * increment + 2 * increment) := by
  obtain ⟨q, hq⟩ := Nat.dvd_of_mod_eq_zero hstored
  have hnext : st.mgr.nextCsn = 1 + increment * (q + blocks) := by
    rw [h.next_eq, hi, hq]
    ring
  have hsum : increment * (q + blocks) = stored + blocks * increment := by
    rw [hq]
    ring
  constructor
  · rw [extendsReservation, h.increment_eq, hnext, Nat.add_mul_mod_self_left,
      Nat.mod_eq_of_lt (by omega)]
    rfl
  · have hdiv : st.mgr.nextCsn / increment = q + blocks := by
      rw [hnext, Nat.add_mul_div_left _ _ (by omega), Nat.div_eq_of_lt (by omega), Nat.zero_add]
    have hmul : (q + blocks + 1) * increment = stored + blocks * increment + increment := by
      rw [Nat.succ_mul, Nat.mul_comm, hsum]
    unfold CsnMgr.newMaxReservedCsn CsnMgr.fetchAddNextCsn
    dsimp only
    rw [h.increment_eq, hdiv, hmul, h.reserved_eq]
    split_ifs with hexhausted hclose
    · rw [Nat.mod_eq_of_lt (show stored + blocks * increment + increment < 2 ^ 64 by omega),
        Nat.mod_eq_of_lt (by omega)]
      congr 1
      omega
    · -- the reservation still covers this block, by the write before
      have hlast : reservedAfter increment stored writes blocks = _ :=
        reservedAfter_eq blocks (by omega)
      rw [hlast, Nat.mod_eq_of_lt (by omega)]
      congr 1
      omega
    · have hlast : reservedAfter increment stored writes blocks = _ :=
        reservedAfter_eq blocks (by omega)
      omega

/-- The caller at the start of a block extends the reservation. -/
lemma CsnInv.advance_boundary {write : ControlWrite} (hwrite : writes[i]? = some write)
    (hi : i = blocks * increment) :
    (st.getNextCsnAdvance write).1 ≠ .waits ∧
      CsnInv increment stored writes (i + 1) (blocks + 1) (st.getNextCsnAdvance write).2 := by
  obtain ⟨hextends, hnew⟩ := h.newMaxReservedCsn hincrement hstored hfit hi
  have hfetch := h.fetchAddNextCsn hincrement hfit
  have hmax := reservedAfter_le increment stored writes blocks
  have hstoredLe := h.stored_le
  have hnextEq := h.next_eq
  have hblocks : (blocks + 1) * increment = blocks * increment + increment := Nat.succ_mul _ _
  set new := stored + blocks * increment + 2 * increment with hnewEq
  -- the new reservation is above both the one in memory and the one on disk
  have hgt : new > st.mgr.maxReservedCsn := by
    rw [h.reserved_eq]
    omega
  have hnot : ¬ new ≤ st.stored := by omega
  have hreserved : reservedAfter increment stored writes (blocks + 1) =
      if write = .done then new else reservedAfter increment stored writes blocks := by
    simp only [reservedAfter, ← hi, hwrite, Option.some.injEq, Nat.add_mul]
    split_ifs <;> omega
  have hextends' : st.mgr.fetchAddNextCsn.extendsReservation st.mgr.nextCsn := hextends
  have hgt' : new > st.mgr.fetchAddNextCsn.maxReservedCsn := hgt
  unfold getNextCsnAdvance updateMaxReservedCsn setMaxReservedCSN
  simp only [hextends', hnew, hgt', hnot, if_true, if_false]
  cases write with
  | done =>
    rw [if_pos rfl] at hreserved
    refine ⟨?_, h.increment_eq, by omega, by omega, hfetch, ?_, hreserved.symm⟩
    · have hcovered : ¬ st.mgr.nextCsn > new := by omega
      simp [waitReserved, hcovered]
    · show new ≤ _
      omega
  | failedOld =>
    rw [if_neg (by decide)] at hreserved
    refine ⟨by simp, h.increment_eq, by omega, by omega, hfetch, ?_,
      h.reserved_eq.trans hreserved.symm⟩
    show st.stored ≤ _
    omega
  | failedNew =>
    rw [if_neg (by decide)] at hreserved
    refine ⟨by simp, h.increment_eq, by omega, by omega, hfetch, ?_,
      h.reserved_eq.trans hreserved.symm⟩
    show new ≤ _
    omega

/-- Any other caller waits unless it is covered. -/
lemma CsnInv.advance_inner (write : ControlWrite) (hi : i < blocks * increment) :
    ((st.getNextCsnAdvance write).1 = .waits ↔ ¬ CsnCovered increment writes i) ∧
      CsnInv increment stored writes (i + 1) blocks (st.getNextCsnAdvance write).2 := by
  have hfetch := h.fetchAddNextCsn hincrement hfit
  have hlt := h.blocks_lt
  obtain ⟨b, rfl⟩ : ∃ b, blocks = b + 1 := by
    cases blocks with
    | zero => omega
    | succ b => exact ⟨b, rfl⟩
  have hblocks : (b + 1) * increment = b * increment + increment := Nat.succ_mul _ _
  have hdiv : i / increment = b := by
    apply Nat.div_eq_of_lt_le
    · omega
    · omega
  have hmod : i % increment = i - b * increment := by
    rw [Nat.mod_eq_sub_div_mul, hdiv]
  -- this caller does not extend the reservation
  have hextends : st.mgr.fetchAddNextCsn.extendsReservation st.mgr.nextCsn = false := by
    apply decide_eq_false
    show st.mgr.nextCsn % st.mgr.csnAssignmentIncrement ≠ 1
    rw [h.increment_eq, h.next_eq, Nat.add_right_comm, ne_eq, succ_mod_eq_one_iff (by omega),
      Nat.add_mod, hstored, Nat.zero_add, Nat.mod_mod, hmod]
    omega
  have hcovered : CsnCovered increment writes i ↔ st.mgr.nextCsn ≤ st.mgr.maxReservedCsn := by
    rw [h.next_eq, h.reserved_eq, le_reservedAfter_iff (by omega) (by omega), CsnCovered,
      hdiv, hmod]
    have hpos : increment ≤ i ↔ 0 < b := by
      constructor
      · intro hle
        apply Nat.pos_of_ne_zero
        rintro rfl
        omega
      · intro hb
        have := Nat.le_mul_of_pos_left increment hb
        omega
    rw [hpos, or_iff_right (by omega)]
  unfold getNextCsnAdvance
  simp only [hextends, Bool.false_eq_true, if_false]
  refine ⟨?_, h.increment_eq, by omega, by omega, hfetch, h.stored_le, h.reserved_eq⟩
  rw [hcovered, waitReserved]
  show (if st.mgr.nextCsn > st.mgr.maxReservedCsn then CsnResult.waits else _) = _ ↔ _
  split_ifs with hgt
  · simp [hgt]
  · simp [hgt]

omit hfit h in
/-- The calls left to make, after `done` of them. -/
lemma CsnInv.run_waits {rest done : List ControlWrite} (hwrites : writes = done ++ rest)
    (hfit : stored + writes.length + 2 * increment < 2 ^ 64)
    (h : CsnInv increment stored writes done.length blocks st) :
    .waits ∉ st.run (rest.map .advance) ↔
      ∀ j, done.length ≤ j → j < writes.length → CsnCovered increment writes j := by
  induction rest generalizing done blocks st with
  | nil =>
    rw [append_nil] at hwrites
    simp only [map_nil, run, not_mem_nil, not_false_iff, true_iff]
    intro j hge hlt
    rw [hwrites] at hlt
    omega
  | cons write rest ih =>
    have hlen : writes.length = done.length + (rest.length + 1) := by
      rw [hwrites, length_append, length_cons]
    have hget : writes[done.length]? = some write := by
      rw [hwrites]
      simp
    have hsplit : writes = (done ++ [write]) ++ rest := by simpa using hwrites
    have hstep : (done ++ [write]).length = done.length + 1 := by simp
    have hfit' : stored + done.length + 2 * increment + 1 < 2 ^ 64 := by omega
    have hsucc : (∀ j, done.length ≤ j → j < writes.length → CsnCovered increment writes j) ↔
        CsnCovered increment writes done.length ∧
          ∀ j, done.length + 1 ≤ j → j < writes.length → CsnCovered increment writes j := by
      constructor
      · exact fun hall => ⟨hall _ le_rfl (by omega), fun j hge => hall j (by omega)⟩
      · rintro ⟨hfirst, hrest⟩ j hge hlt
        rcases Nat.eq_or_lt_of_le hge with heq | hgt
        · rw [← heq]
          exact hfirst
        · exact hrest j hgt hlt
    rw [map_cons, hsucc, run_advance]
    rcases Nat.lt_or_eq_of_le h.le_blocks with hinner | hboundary
    · obtain ⟨hwaits, hinv⟩ := h.advance_inner hincrement hstored hfit' write hinner
      rw [← hstep] at hinv
      split_ifs with hres
      · exact iff_of_false (by simp) fun hcovered => hwaits.mp hres hcovered.1
      · have hcovered := not_not.mp fun hnot => hres (hwaits.mpr hnot)
        rw [mem_cons, not_or, ih hsplit hinv, hstep]
        exact and_congr (iff_of_true (Ne.symm hres) hcovered) Iff.rfl
    · obtain ⟨hres, hinv⟩ := h.advance_boundary hincrement hstored hfit' hget hboundary
      rw [← hstep] at hinv
      have hcovered : CsnCovered increment writes done.length := by
        left
        rw [hboundary]
        exact Nat.mul_mod_left blocks increment
      rw [if_neg hres, mem_cons, not_or, ih hsplit hinv, hstep]
      exact and_congr (iff_of_true (Ne.symm hres) hcovered) Iff.rfl

end Life

/-- A restart with the reservation `stored` on disk. -/
def restartCsn (increment stored : ℕ) : CsnState :=
  ⟨initializeFrom increment stored, stored⟩

/-- After a restart, no advancing call of a single thread waits for good exactly when there is
none, or the increment is at least two and divides the stored reservation and no caller depends
on two writes in a row that failed. -/
theorem getNextCsn_never_waits_iff (increment stored : ℕ) (calls : List CsnCall)
    (hincrement : 1 ≤ increment)
    (hfit : stored + (CsnCall.writes calls).length + 2 * increment < 2 ^ 64) :
    .waits ∉ (restartCsn increment stored).run calls ↔
      CsnCall.writes calls = [] ∨ (2 ≤ increment ∧ stored % increment = 0 ∧
        ∀ i, i < (CsnCall.writes calls).length →
          CsnCovered increment (CsnCall.writes calls) i) := by
  rw [run_waits_iff]
  generalize writes calls = writes at hfit ⊢
  have hnext : (stored + 1) % 2 ^ 64 = stored + 1 := Nat.mod_eq_of_lt (by omega)
  cases writes with
  | nil => simp [run]
  | cons write rest =>
    rw [or_iff_right (List.cons_ne_nil write rest)]
    by_cases hstart : 2 ≤ increment ∧ stored % increment = 0
    · have hinv : CsnInv increment stored (write :: rest) 0 0 (restartCsn increment stored) :=
        ⟨rfl, by omega, by omega, hnext, by show stored ≤ _; omega, rfl⟩
      rw [CsnInv.run_waits hstart.1 hstart.2 (List.nil_append _).symm hfit hinv]
      simp only [List.length_nil, Nat.zero_le, true_implies, hstart.1, hstart.2, true_and]
    · -- the first caller is above the reservation and does not extend it
      have hextends : (initializeFrom increment stored).fetchAddNextCsn.extendsReservation
          (stored + 1) = false := by
        apply decide_eq_false
        show (stored + 1) % increment ≠ 1
        exact fun hmod => hstart ((succ_mod_eq_one_iff hincrement).mp hmod)
      have hwaits : ((restartCsn increment stored).getNextCsnAdvance write).1 = .waits := by
        unfold getNextCsnAdvance
        have hcur : (restartCsn increment stored).mgr.nextCsn = stored + 1 := hnext
        simp only [hcur]
        rw [show (restartCsn increment stored).mgr = initializeFrom increment stored from rfl,
          hextends]
        exact if_pos (Nat.lt_succ_self stored)
      rw [List.map_cons, run_advance, if_pos hwaits]
      exact iff_of_false (by simp) fun hall => hstart ⟨hall.1, hall.2.1⟩

/-- With the increment 2 and one failed write between two that succeed, nobody waits. -/
theorem getNextCsn_returns_after_failed_write :
    .waits ∉ (restartCsn 2 20).run
      [.advance .done, .advance .done, .peek, .advance .failedOld, .advance .done,
        .advance .done] :=
  (getNextCsn_never_waits_iff 2 20 _ (by decide) (by decide)).mpr (Or.inr (by decide))

/-- The first call waits for good with the increment 1, and with an increment that does not
divide the stored reservation; the second one does when the first write fails. -/
theorem getNextCsn_waits_forever :
    .waits ∈ (restartCsn 1 20000).run [.advance .done] ∧
      .waits ∈ (restartCsn 30000 20000).run [.advance .done] ∧
      .waits ∈ (restartCsn 10000 20000).run [.advance .failedOld, .advance .done] := by
  decide

end DStore
