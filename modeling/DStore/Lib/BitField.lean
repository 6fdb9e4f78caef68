import Mathlib.Data.Nat.Bitwise

/-!
# Bit fields of a machine word

A word is a natural; the field of width `w` at bit `lo` is `v / 2 ^ lo % 2 ^ w`. Setting a
field truncates the value to the field's width and keeps every other bit.
-/

namespace BitField

/-- The field of width `w` at bit `lo`. -/
def get (lo w v : ℕ) : ℕ := v / 2 ^ lo % 2 ^ w

/-- `v` with the field of width `w` at bit `lo` set to `x`, truncated to the field. -/
def set (lo w x v : ℕ) : ℕ := 2 ^ lo * (2 ^ w * (v / 2 ^ (lo + w)) + x % 2 ^ w) + v % 2 ^ lo

theorem get_lt (lo w v : ℕ) : get lo w v < 2 ^ w := Nat.mod_lt _ (Nat.two_pow_pos w)

/-- The bits of a field are those of the word, shifted. -/
lemma testBit_get (lo w v i : ℕ) : (get lo w v).testBit i =
    (decide (i < w) && v.testBit (lo + i)) := by
  rw [get, Nat.testBit_mod_two_pow, Nat.testBit_div_two_pow, Nat.add_comm]

/-- Setting a field changes its bits only. -/
lemma testBit_set (lo w x v i : ℕ) :
    (set lo w x v).testBit i =
      if i < lo then v.testBit i
      else if i < lo + w then x.testBit (i - lo) else v.testBit i := by
  rw [set, Nat.testBit_two_pow_mul_add _ (Nat.mod_lt _ (Nat.two_pow_pos lo))]
  by_cases hlo : i < lo
  · simp [hlo, Nat.testBit_mod_two_pow]
  · rw [if_neg hlo, if_neg hlo,
      Nat.testBit_two_pow_mul_add _ (Nat.mod_lt _ (Nat.two_pow_pos w))]
    by_cases hw : i < lo + w
    · rw [if_pos (by omega), if_pos hw, Nat.testBit_mod_two_pow]
      simp [show i - lo < w by omega]
    · rw [if_neg (by omega), if_neg hw, Nat.testBit_div_two_pow]
      congr 1
      omega

/-- A field reads back what was stored, truncated to its width. -/
theorem get_set_self (lo w x v : ℕ) : get lo w (set lo w x v) = x % 2 ^ w := by
  refine Nat.eq_of_testBit_eq fun i => ?_
  rw [testBit_get, testBit_set, Nat.testBit_mod_two_pow]
  by_cases hi : i < w
  · simp [hi]
  · simp [hi]

/-- A field is untouched by a store to a disjoint one. -/
theorem get_set_of_disjoint {lo w lo' w' : ℕ} (h : lo' + w' ≤ lo ∨ lo + w ≤ lo') (x v : ℕ) :
    get lo' w' (set lo w x v) = get lo' w' v := by
  refine Nat.eq_of_testBit_eq fun i => ?_
  rw [testBit_get, testBit_get, testBit_set]
  by_cases hi : i < w'
  · simp only [hi, decide_true, Bool.true_and]
    rcases h with h | h
    · rw [if_pos (by omega)]
    · rw [if_neg (by omega), if_neg (by omega)]
  · simp [hi]

/-- Storing a field inside a word of `n` bits stays inside the word. -/
theorem set_lt {lo w n : ℕ} (h : lo + w ≤ n) (x : ℕ) {v : ℕ} (hv : v < 2 ^ n) :
    set lo w x v < 2 ^ n := by
  refine Nat.lt_pow_two_of_testBit _ fun i hi => ?_
  rw [testBit_set, if_neg (by omega), if_neg (by omega)]
  exact Nat.testBit_lt_two_pow (lt_of_lt_of_le hv (Nat.pow_le_pow_right (by decide) hi))

/-- Storing a field's own value changes nothing. -/
theorem set_get_self (lo w v : ℕ) : set lo w (get lo w v) v = v := by
  refine Nat.eq_of_testBit_eq fun i => ?_
  rw [testBit_set]
  split_ifs with h1 h2
  · rfl
  · rw [testBit_get, decide_eq_true (by omega : i - lo < w), Bool.true_and]
    congr 1
    omega
  · rfl

/-- The last store to a field wins. -/
theorem set_set (lo w x y v : ℕ) : set lo w x (set lo w y v) = set lo w x v := by
  refine Nat.eq_of_testBit_eq fun i => ?_
  rw [testBit_set, testBit_set, testBit_set]
  split_ifs <;> rfl

end BitField
