import Mathlib.Data.Nat.Bitwise
import Mathlib.Tactic.Ring

/-!
# Variable-length integers

A number is stored in groups of seven bits, low group first; every byte but the last has its
high bit set. The writer produces one byte per group. The reader accumulates into a word of `w`
bits and looks at a bounded number of bytes; it also reports how many bytes it has consumed.
-/

namespace Varint

/-- The bytes of `num`; `fuel` bounds their number. -/
def encode : ℕ → ℕ → List UInt8
  | 0, _ => []
  | fuel + 1, num =>
    if num / 128 = 0 then [UInt8.ofNat num]
    else UInt8.ofNat (num % 128 + 128) :: encode fuel (num / 128)

/-- Read from byte `i` on: the word and the number of bytes consumed. When no byte without
high bit turns up in time, the count is one more than the number of bytes looked at. -/
def decodeLoop (w : ℕ) : ℕ → ℕ → ℕ → List UInt8 → ℕ × ℕ
  | 0, i, num, _ => (num, i + 1)
  | fuel + 1, i, num, buf =>
    let byte := (buf.headD 0).toNat
    let num := num ||| (byte % 128 * 2 ^ (7 * i)) % 2 ^ w
    if byte < 128 then (num, i + 1) else decodeLoop w fuel (i + 1) num buf.tail

/-- Read a word of `w` bits from at most `maxByte` bytes. -/
def decode (w maxByte : ℕ) (buf : List UInt8) : ℕ × ℕ := decodeLoop w maxByte 0 0 buf

/-! ## Length -/

section Length

variable {fuel num : ℕ}

/-- At least one byte is written. -/
lemma encode_length_pos (hfuel : 0 < fuel) : 0 < (encode fuel num).length := by
  cases fuel with
  | zero => omega
  | succ fuel =>
    rw [encode]
    split
    · simp
    · simp

lemma div_lt_pow (hnum : num < 128 ^ (fuel + 1)) (hzero : num / 128 ≠ 0) :
    0 < fuel ∧ num / 128 < 128 ^ fuel := by
  have hrest : num / 128 < 128 ^ fuel := by
    rw [Nat.div_lt_iff_lt_mul (by decide), ← Nat.pow_succ]
    exact hnum
  refine ⟨Nat.pos_of_ne_zero fun h => ?_, hrest⟩
  rw [h] at hrest
  omega

/-- `k` bytes are enough exactly for numbers of `k` groups. -/
theorem encode_length_le_iff {k : ℕ} (hnum : num < 128 ^ fuel) (hk : 0 < k) :
    (encode fuel num).length ≤ k ↔ num < 128 ^ k := by
  induction fuel generalizing num k with
  | zero =>
    have hzero : num = 0 := by simpa using hnum
    rw [hzero]
    exact iff_of_true (Nat.zero_le k) (Nat.pow_pos (by decide))
  | succ fuel ih =>
    rw [encode]
    by_cases hzero : num / 128 = 0
    · rw [if_pos hzero]
      have hpow : 128 ≤ 128 ^ k := Nat.le_self_pow (by omega) 128
      exact iff_of_true hk (by omega)
    · rw [if_neg hzero, List.length_cons]
      obtain ⟨hfuel, hrest⟩ := div_lt_pow hnum hzero
      obtain ⟨k, rfl⟩ := Nat.exists_eq_add_of_le' hk
      rcases Nat.eq_zero_or_pos k with rfl | hpos
      · have hlen : 0 < (encode fuel (num / 128)).length := encode_length_pos hfuel
        exact iff_of_false (by omega) (by simp; omega)
      · rw [Nat.pow_succ, ← Nat.div_lt_iff_lt_mul (by decide), ← ih hrest hpos]
        omega

end Length

/-! ## Reading back -/

section RoundTrip

variable {w fuel num : ℕ}

lemma decodeLoop_cons {i acc : ℕ} (byte : UInt8) (buf : List UInt8) :
    decodeLoop w (fuel + 1) i acc (byte :: buf) =
      let num := acc ||| (byte.toNat % 128 * 2 ^ (7 * i)) % 2 ^ w
      if byte.toNat < 128 then (num, i + 1) else decodeLoop w fuel (i + 1) num buf :=
  rfl

/-- The loop of the reader on the bytes of the writer: `acc` holds the groups before. -/
lemma decodeLoop_encode {i acc : ℕ} (rest : List UInt8) (hfuel : 0 < fuel)
    (hnum : num < 128 ^ fuel) (hacc : acc < 2 ^ (7 * i)) (hfit : num * 2 ^ (7 * i) + acc < 2 ^ w) :
    decodeLoop w fuel i acc (encode fuel num ++ rest) =
      (num * 2 ^ (7 * i) + acc, i + (encode fuel num).length) := by
  induction fuel generalizing num i acc with
  | zero => omega
  | succ fuel ih =>
    -- the group goes above the bits read so far
    have hor : ∀ b, b < 128 → b * 2 ^ (7 * i) < 2 ^ w →
        acc ||| (b * 2 ^ (7 * i)) % 2 ^ w = b * 2 ^ (7 * i) + acc := by
      intro b _ hb
      rw [Nat.mod_eq_of_lt hb, Nat.or_comm, Nat.mul_comm, Nat.two_pow_add_eq_or_of_lt hacc]
    rw [encode]
    by_cases hzero : num / 128 = 0
    · have hlt : num < 128 := by omega
      rw [if_pos hzero]
      have hbyte : (UInt8.ofNat num).toNat = num := by
        rw [UInt8.toNat_ofNat']
        exact Nat.mod_eq_of_lt (by omega)
      rw [List.singleton_append, decodeLoop_cons, hbyte, if_pos hlt, Nat.mod_eq_of_lt hlt,
        hor num hlt (by omega), List.length_singleton]
    · obtain ⟨hfuel', hrest⟩ := div_lt_pow hnum hzero
      have hsplit : num * 2 ^ (7 * i) =
          num / 128 * 2 ^ (7 * (i + 1)) + num % 128 * 2 ^ (7 * i) := by
        have hdiv : num = 128 * (num / 128) + num % 128 := (Nat.div_add_mod num 128).symm
        rw [show 7 * (i + 1) = 7 * i + 7 by ring, Nat.pow_add]
        nth_rewrite 1 [hdiv]
        ring
      have hmod : num % 128 < 128 := Nat.mod_lt num (by decide)
      rw [if_neg hzero]
      have hbyte : (UInt8.ofNat (num % 128 + 128)).toNat = num % 128 + 128 := by
        rw [UInt8.toNat_ofNat']
        exact Nat.mod_eq_of_lt (by omega)
      rw [List.cons_append, decodeLoop_cons, hbyte, if_neg (by omega), Nat.add_mod_right,
        Nat.mod_eq_of_lt hmod, hor _ hmod (by omega), ih hfuel' hrest]
      · rw [hsplit, List.length_cons]
        simp only [Prod.mk.injEq]
        omega
      · have hle : num % 128 * 2 ^ (7 * i) ≤ 127 * 2 ^ (7 * i) :=
          Nat.mul_le_mul_right _ (by omega)
        rw [show 7 * (i + 1) = 7 * i + 7 by ring, Nat.pow_add]
        omega
      · omega

/-- The reader gets the number back and consumes exactly the bytes of the writer, whatever
follows them. -/
theorem decode_encode (rest : List UInt8) (hfuel : 0 < fuel) (hnum : num < 128 ^ fuel)
    (hw : num < 2 ^ w) :
    decode w fuel (encode fuel num ++ rest) = (num, (encode fuel num).length) := by
  rw [decode, decodeLoop_encode rest hfuel hnum (by simp) (by simpa using hw)]
  simp

/-- If byte `k` has no high bit and no value, the number read has at most `k` groups. -/
theorem decodeLoop_lt {i acc k : ℕ} {buf : List UInt8} (hacc : acc < 2 ^ (7 * i))
    (hzero : (buf.drop k).headD 0 = 0) : (decodeLoop w fuel i acc buf).1 < 2 ^ (7 * (i + k)) := by
  induction fuel generalizing i acc k buf with
  | zero => exact lt_of_lt_of_le hacc (Nat.pow_le_pow_right (by decide) (by omega))
  | succ fuel ih =>
    unfold decodeLoop
    dsimp only
    cases k with
    | zero =>
      rw [List.drop_zero] at hzero
      rw [hzero, if_pos (by decide)]
      simpa using hacc
    | succ k =>
      have hgroup : ((buf.headD 0).toNat % 128 * 2 ^ (7 * i)) % 2 ^ w < 2 ^ (7 * (i + 1)) := by
        have hmod : (buf.headD 0).toNat % 128 < 128 := Nat.mod_lt _ (by decide)
        refine lt_of_le_of_lt (Nat.mod_le _ _) ?_
        rw [show 7 * (i + 1) = 7 + 7 * i by ring, Nat.pow_add]
        exact Nat.mul_lt_mul_of_pos_right hmod (Nat.two_pow_pos _)
      have hor : acc ||| ((buf.headD 0).toNat % 128 * 2 ^ (7 * i)) % 2 ^ w < 2 ^ (7 * (i + 1)) :=
        Nat.or_lt_two_pow (lt_of_lt_of_le hacc (Nat.pow_le_pow_right (by decide) (by omega))) hgroup
      split_ifs
      · exact lt_of_lt_of_le hor (Nat.pow_le_pow_right (by decide) (by omega))
      · rw [show i + (k + 1) = i + 1 + k by ring]
        refine ih hor ?_
        rwa [← List.drop_one, List.drop_drop, Nat.add_comm]

/-- The reader stays within the bytes it may look at exactly if one of them has no high bit. -/
theorem decodeLoop_consumed_le_iff {i acc : ℕ} {buf : List UInt8} :
    (decodeLoop w fuel i acc buf).2 ≤ i + fuel ↔ ∃ j < fuel, (buf.getD j 0).toNat < 128 := by
  induction fuel generalizing i acc buf with
  | zero => simp [decodeLoop]
  | succ fuel ih =>
    cases buf with
    | nil => exact iff_of_true (by simp [decodeLoop]) ⟨0, by omega, by decide⟩
    | cons byte buf =>
      rw [decodeLoop_cons]
      dsimp only
      split_ifs with hlast
      · exact iff_of_true (by omega) ⟨0, by omega, hlast⟩
      · rw [show i + (fuel + 1) = i + 1 + fuel by ring, ih]
        constructor
        · rintro ⟨j, hj, hbyte⟩
          exact ⟨j + 1, by omega, hbyte⟩
        · rintro ⟨j, hj, hbyte⟩
          cases j with
          | zero => exact absurd hbyte hlast
          | succ j => exact ⟨j, by omega, hbyte⟩

end RoundTrip

end Varint
