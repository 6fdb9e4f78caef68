import Mathlib.Data.Nat.Digits.Defs

/-!
# Byte-addressed memory

A memory is a total function from addresses to bytes. Words are little endian; `blit` copies
between memories, `copy` is `memmove` (the source is read before anything is written, so the
ranges may overlap). Every operation comes with what it stores and with its frame.
-/

/-- A byte-addressed memory. -/
abbrev ByteMem := ℕ → UInt8

namespace ByteMem

variable {m m' src : ByteMem} {off off' n v i dst a lo hi : ℕ}

/-- The little-endian word of `n` bytes at `off`. -/
def readLE (m : ByteMem) (off : ℕ) : ℕ → ℕ
  | 0 => 0
  | n + 1 => (m off).toNat + 256 * readLE m (off + 1) n

/-- Store the `n` low bytes of `v` at `off`, little endian. -/
def writeLE (m : ByteMem) (off n v : ℕ) : ByteMem := fun a =>
  if off ≤ a ∧ a < off + n then UInt8.ofNat (v / 256 ^ (a - off)) else m a

/-- Copy `n` bytes at `off` of the memory `src` to `dst`. -/
def blit (m : ByteMem) (dst : ℕ) (src : ByteMem) (off n : ℕ) : ByteMem := fun a =>
  if dst ≤ a ∧ a < dst + n then src (off + (a - dst)) else m a

/-- `memmove`: copy `n` bytes from `src` to `dst`. -/
def copy (m : ByteMem) (dst src n : ℕ) : ByteMem := m.blit dst m src n

/-- The `n` bytes at `off`. -/
def load (m : ByteMem) (off n : ℕ) : List UInt8 := (List.range n).map fun i => m (off + i)

/-- A byte string as a memory, at address 0. -/
def ofBytes (bs : List UInt8) : ByteMem := fun a => bs.getD a 0

/-- `m'` is `m` except in `[lo, hi)`. -/
def SameOutside (lo hi : ℕ) (m m' : ByteMem) : Prop := ∀ a, a < lo ∨ hi ≤ a → m' a = m a

/-! ## Byte ranges -/

@[simp] theorem length_load (m : ByteMem) (off n : ℕ) : (load m off n).length = n := by
  simp [load]

theorem getD_load (hi : i < n) (d : UInt8) : (load m off n).getD i d = m (off + i) := by
  simp [load, hi]

/-- Two ranges hold the same bytes exactly when they agree byte by byte. -/
theorem load_eq_iff : load m off n = load m' off' n ↔ ∀ i, i < n → m (off + i) = m' (off' + i) := by
  rw [load, load, List.map_inj_left]
  simp only [List.mem_range]

/-- Equal bytes give equal contents. -/
theorem load_congr (h : ∀ i, i < n → m (off + i) = m' (off' + i)) : load m off n = load m' off' n :=
  load_eq_iff.mpr h

@[simp] theorem ofBytes_load (hi : i < n) : ofBytes (load m off n) i = m (off + i) :=
  getD_load hi 0

/-! ## Words -/

/-- A word has its bytes as digits. -/
theorem readLE_eq_ofDigits (m : ByteMem) (off n : ℕ) :
    readLE m off n = Nat.ofDigits 256 ((load m off n).map UInt8.toNat) := by
  induction n generalizing off with
  | zero => rfl
  | succ n ih =>
    have hload : load m off (n + 1) = m off :: load m (off + 1) n := by
      simp [load, List.range_succ_eq_map, Nat.add_right_comm, Nat.add_assoc]
    rw [readLE, ih, hload, List.map_cons, Nat.ofDigits_cons]

/-- A word reads only the bytes it covers. -/
theorem readLE_congr (h : ∀ i, i < n → m (off + i) = m' (off' + i)) :
    readLE m off n = readLE m' off' n := by
  rw [readLE_eq_ofDigits, readLE_eq_ofDigits, load_congr h]

theorem digit_lt {l : List UInt8} : ∀ d ∈ l.map UInt8.toNat, d < 256 := by
  intro d hd
  obtain ⟨b, -, rfl⟩ := List.mem_map.1 hd
  exact b.toNat_lt

/-- A word of `n` bytes is below `256 ^ n`. -/
theorem readLE_lt (m : ByteMem) (off n : ℕ) : readLE m off n < 256 ^ n := by
  have hlt := Nat.ofDigits_lt_base_pow_length (by decide) (digit_lt (l := load m off n))
  rwa [← readLE_eq_ofDigits, List.length_map, length_load] at hlt

/-- A write changes the bytes of its word only. -/
theorem sameOutside_writeLE (m : ByteMem) (off n v : ℕ) :
    SameOutside off (off + n) m (writeLE m off n v) := by
  intro a ha
  rw [writeLE, if_neg (by omega)]

/-- A word reads back what was stored, truncated to its width. -/
theorem readLE_writeLE_self (m : ByteMem) (off n v : ℕ) :
    readLE (writeLE m off n v) off n = v % 256 ^ n := by
  -- the tail of a stored word is the stored tail
  have hgen : ∀ k j, j + k = n →
      readLE (writeLE m off n v) (off + j) k = v / 256 ^ j % 256 ^ k := by
    intro k
    induction k with
    | zero => intro j _; simp [readLE, Nat.mod_one]
    | succ k ih =>
      intro j hj
      have htail := ih (j + 1) (by omega)
      rw [readLE, show off + j + 1 = off + (j + 1) by omega, htail, writeLE,
        if_pos (by omega), Nat.add_sub_cancel_left, UInt8.toNat_ofNat']
      rw [pow_succ 256 j, ← Nat.div_div_eq_div_mul, pow_succ' 256 k, Nat.mod_mul]
  simpa using hgen n 0 (by omega)

/-- A word is untouched by a store to a disjoint range. -/
theorem readLE_writeLE_of_disjoint {n' : ℕ} (h : off' + n' ≤ off ∨ off + n ≤ off') :
    readLE (writeLE m off n v) off' n' = readLE m off' n' := by
  exact readLE_congr fun i hi => sameOutside_writeLE m off n v _ (by omega)

/-- A word determines the bytes it covers. -/
theorem eq_of_readLE_eq (h : readLE m off n = readLE m' off' n) :
    ∀ i, i < n → m (off + i) = m' (off' + i) := by
  rw [readLE_eq_ofDigits, readLE_eq_ofDigits] at h
  have hdigits := Nat.ofDigits_inj_of_len_eq (by decide) (by simp) digit_lt digit_lt h
  exact load_eq_iff.1 ((List.map_inj_right fun _ _ => UInt8.toNat_inj.1).1 hdigits)

/-! ## Copies -/

theorem blit_of_mem (h1 : dst ≤ a) (h2 : a < dst + n) :
    blit m dst src off n a = src (off + (a - dst)) := by
  rw [blit, if_pos ⟨h1, h2⟩]

/-- A copied byte is that of the source. -/
theorem blit_add (hi : i < n) :
    blit m dst src off n (dst + i) = src (off + i) := by
  rw [blit_of_mem (by omega) (by omega), Nat.add_sub_cancel_left]

/-- A byte outside of the copied range stays. -/
theorem blit_of_not_mem (h : a < dst ∨ dst + n ≤ a) :
    blit m dst src off n a = m a := by
  rw [blit, if_neg (by omega)]

/-- Copies that all write the bytes of `f` leave `f` wherever one of them wrote, and wherever it
was already. -/
theorem foldl_blit_eq {ι : Type*} {f : ByteMem} {dst len : ι → ℕ} {src : ι → ByteMem} {l : List ι}
    (hsrc : ∀ x ∈ l, ∀ i, i < len x → src x i = f (dst x + i))
    (h : m a = f a ∨ ∃ x ∈ l, dst x ≤ a ∧ a < dst x + len x) :
    l.foldl (fun m x => m.blit (dst x) (src x) 0 (len x)) m a = f a := by
  induction l generalizing m with
  | nil => simpa using h
  | cons x l ih =>
    refine ih (fun y hy => hsrc y (List.mem_cons_of_mem _ hy)) ?_
    show blit m (dst x) (src x) 0 (len x) a = f a ∨ _
    by_cases hx : dst x ≤ a ∧ a < dst x + len x
    · left
      rw [blit_of_mem hx.1 hx.2, Nat.zero_add, hsrc x List.mem_cons_self _ (by omega),
        Nat.add_sub_cancel' hx.1]
    · rcases h with h | ⟨y, hy, hya⟩
      · exact Or.inl (by rw [blit_of_not_mem (by omega), h])
      · rcases List.mem_cons.mp hy with rfl | hy
        · exact absurd hya hx
        · exact Or.inr ⟨y, hy, hya⟩

/-! ## Frames -/

theorem SameOutside.refl (lo hi : ℕ) (m : ByteMem) : SameOutside lo hi m m := fun _ _ => rfl

theorem SameOutside.trans {m'' : ByteMem} (h : SameOutside lo hi m m')
    (h' : SameOutside lo hi m' m'') : SameOutside lo hi m m'' :=
  fun a ha => (h' a ha).trans (h a ha)

/-- A change within a range is one within a larger range. -/
theorem SameOutside.mono {lo' hi' : ℕ} (h : SameOutside lo hi m m') (hlo : lo' ≤ lo)
    (hhi : hi ≤ hi') : SameOutside lo' hi' m m' :=
  fun a ha => h a (by omega)

/-- A loop of framed steps is framed. -/
theorem sameOutside_foldl {ι : Type*} {step : ByteMem → ι → ByteMem} {l : List ι}
    (h : ∀ x ∈ l, ∀ m, SameOutside lo hi m (step m x)) (m : ByteMem) :
    SameOutside lo hi m (l.foldl step m) := by
  induction l generalizing m with
  | nil => exact SameOutside.refl lo hi m
  | cons x l ih =>
    exact (h x List.mem_cons_self m).trans
      (ih (fun y hy => h y (List.mem_cons_of_mem _ hy)) (step m x))

/-- A copy changes its range only. -/
theorem sameOutside_blit (m : ByteMem) (dst : ℕ) (src : ByteMem) (off n : ℕ) :
    SameOutside dst (dst + n) m (blit m dst src off n) :=
  fun _ ha => blit_of_not_mem ha

end ByteMem
