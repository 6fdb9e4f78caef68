import Mathlib.Order.Interval.Finset.Nat

/-!
# Rings of pages

An unbounded sequence of ids laid out on a ring of `P` pages with `N` slots each: id `i`
is at slot `i % N` of page `i / N % P`. Inside a window of `P * N` consecutive ids the
layout is injective.
-/

namespace PagedRing

variable {N P : ℕ}

/-- The page of id `i`. -/
def page (N P i : ℕ) : ℕ := i / N % P

/-- The position of id `i` on its page. -/
def slot (N i : ℕ) : ℕ := i % N

/-- Two ids of one window that share page and slot are the same id. -/
theorem eq_of_mem_window {a i j : ℕ} (hi : a ≤ i ∧ i < a + P * N) (hj : a ≤ j ∧ j < a + P * N)
    (hpage : page N P i = page N P j) (hslot : slot N i = slot N j) : i = j := by
  have hmod : i % (P * N) = j % (P * N) := by
    rw [Nat.mul_comm, Nat.mod_mul, Nat.mod_mul]
    exact congrArg₂ (fun s p => s + N * p) hslot hpage
  exact Nat.mod_injOn_Ico a (P * N) (Finset.coe_Ico a _ ▸ hi) (Finset.coe_Ico a _ ▸ hj) hmod

/-- Between two ids of one page lie exactly the ids whose slots lie between theirs. -/
theorem slot_mem_iff {a b s : ℕ} (hN : 0 < N) (hdiv : a / N = b / N) :
    (slot N a ≤ s ∧ s < slot N b) ↔
      ∃ i, a ≤ i ∧ i < b ∧ i / N = a / N ∧ slot N i = s := by
  have ha : N * (a / N) + a % N = a := Nat.div_add_mod a N
  have hb : N * (b / N) + b % N = b := Nat.div_add_mod b N
  constructor
  · rintro ⟨hlo, hhi⟩
    have hs : s < N := lt_trans hhi (Nat.mod_lt _ hN)
    refine ⟨N * (a / N) + s, ?_, ?_, ?_, ?_⟩
    · simp only [slot] at hlo; omega
    · simp only [slot] at hhi; rw [hdiv]; omega
    · rw [Nat.mul_add_div hN, Nat.div_eq_of_lt hs, Nat.add_zero]
    · rw [slot, Nat.mul_add_mod, Nat.mod_eq_of_lt hs]
  · rintro ⟨i, hai, hib, hidiv, rfl⟩
    have hi : N * (i / N) + i % N = i := Nat.div_add_mod i N
    rw [hidiv] at hi
    rw [← hdiv] at hb
    simp only [slot]
    omega

/-! ## Finding the next id from per-page counters -/

/-- Follow the counters `c` from index `i` while they grow, for at most `left` indices. -/
def climb (c : ℕ → ℕ) : ℕ → ℕ → ℕ → ℕ
  | 0, _, cur => cur
  | left + 1, i, cur => if c i ≤ cur then cur else climb c left (i + 1) (c i)

/-- With the ids below `n` in use, `c k` is one above the last of them on page `k`. -/
structure LastOnPage (N P n : ℕ) (c : ℕ → ℕ) : Prop where
  le : ∀ k, k < P → c k ≤ n
  last : ∀ k, k < P → c k ≠ 0 → page N P (c k - 1) = k
  above : ∀ l, l < n → l < c (page N P l)

namespace LastOnPage

variable {n : ℕ} {c : ℕ → ℕ}

/-- No id of page `k` in use lies beyond the current lap. -/
theorem le_lap (h : LastOnPage N P n c) (hN : 0 < N) {k : ℕ} (hk : k < P) :
    c k ≤ ((n - 1) / N / P * P + k + 1) * N := by
  rcases Nat.eq_zero_or_pos (c k) with hzero | hpos
  · omega
  have hle : c k - 1 ≤ n - 1 := Nat.sub_le_sub_right (h.le k hk) 1
  have hpage : (c k - 1) / N % P = k := h.last k hk (by omega)
  have hquot : (c k - 1) / N / P ≤ (n - 1) / N / P :=
    Nat.div_le_div_right (Nat.div_le_div_right hle)
  have hdm : (c k - 1) / N / P * P + (c k - 1) / N % P = (c k - 1) / N :=
    Nat.div_add_mod' _ _
  have hmul := Nat.mul_le_mul_right P hquot
  have hlap : (c k - 1) / N + 1 ≤ (n - 1) / N / P * P + k + 1 := by omega
  have hlt : c k - 1 < ((c k - 1) / N + 1) * N := by
    rw [Nat.mul_comm]
    exact Nat.lt_mul_div_succ _ hN
  have := Nat.mul_le_mul_right N hlap
  omega

/-- The pages up to the current one have an id of the current lap. -/
theorem lap_lt (h : LastOnPage N P n c) (hN : 0 < N) (hn : 0 < n) {k : ℕ}
    (hk : k ≤ (n - 1) / N % P) (hP : k < P) : ((n - 1) / N / P * P + k) * N < c k := by
  have hdm : (n - 1) / N / P * P + (n - 1) / N % P = (n - 1) / N := Nat.div_add_mod' _ _
  have hquot : (n - 1) / N / P * P + k ≤ (n - 1) / N := by omega
  have hle : ((n - 1) / N / P * P + k) * N ≤ n - 1 :=
    Nat.le_trans (Nat.mul_le_mul_right N hquot) (Nat.div_mul_le_self _ _)
  have hpage : page N P (((n - 1) / N / P * P + k) * N) = k := by
    rw [page, Nat.mul_div_cancel _ hN, Nat.mul_add_mod_self_right, Nat.mod_eq_of_lt hP]
  have habove := h.above _ (show ((n - 1) / N / P * P + k) * N < n by omega)
  rwa [hpage] at habove

/-- The counters grow up to the page of the last id in use, and no further. -/
theorem climb_eq (h : LastOnPage N P n c) (hN : 0 < N) (hP : 0 < P) : climb c P 0 0 = n := by
  rcases Nat.eq_zero_or_pos n with rfl | hn
  · obtain ⟨left, rfl⟩ := Nat.exists_eq_succ_of_ne_zero (Nat.ne_of_gt hP)
    rw [climb, if_pos (h.le 0 hP)]
  have hK : (n - 1) / N % P < P := Nat.mod_lt _ hP
  have hmain : ∀ d i cur, i + d = (n - 1) / N % P → cur ≤ ((n - 1) / N / P * P + i) * N →
      climb c (P - i) i cur = n := by
    intro d
    induction d with
    | zero =>
      intro i cur hi hcur
      have hgrow := h.lap_lt hN hn (k := i) (by omega) (by omega)
      have hlast : c i = n := by
        have habove := h.above (n - 1) (by omega)
        rw [page, show (n - 1) / N % P = i by omega] at habove
        have := h.le i (by omega)
        omega
      rw [show P - i = P - i - 1 + 1 by omega, climb, if_neg (by omega), hlast]
      -- the page after the last one still counts an earlier lap
      rcases Nat.eq_zero_or_pos (P - i - 1) with hzero | hpos
      · rw [hzero, climb]
      · rw [show P - i - 1 = P - i - 2 + 1 by omega, climb, if_pos (h.le (i + 1) (by omega))]
    | succ d ih =>
      intro i cur hi hcur
      have hgrow := h.lap_lt hN hn (k := i) (by omega) (by omega)
      rw [show P - i = P - (i + 1) + 1 by omega, climb, if_neg (by omega)]
      exact ih (i + 1) (c i) (by omega) (h.le_lap hN (by omega))
  exact hmain _ 0 0 (Nat.zero_add _) (Nat.zero_le _)

end LastOnPage

end PagedRing
