import DStore.Lib.ByteMem

/-!
# Byte streams over a chain of pages

A stream of bytes laid out over the pages `chain 0`, `chain 1`, …: every page has `H` bytes of
header and `F` bytes of content, so byte `x` of the stream is byte `H + x % F` of page
`chain (x / F)`. The end of the content of one page and the start of the next one are the same
position.
-/

namespace PageStream

variable {α : Type*} {H F : ℕ} {chain : ℕ → α} {mem mem' mem'' : α → ByteMem} {x y : ℕ}

/-- Where byte `x` is. -/
def cell (H F : ℕ) (chain : ℕ → α) (x : ℕ) : α × ℕ := (chain (x / F), H + x % F)

/-- Byte `x`. -/
def byte (H F : ℕ) (chain : ℕ → α) (mem : α → ByteMem) (x : ℕ) : UInt8 :=
  mem (chain (x / F)) (H + x % F)

/-- The `n` bytes from position `x` on. -/
def bytes (H F : ℕ) (chain : ℕ → α) (mem : α → ByteMem) (x n : ℕ) : List UInt8 :=
  (List.range n).map fun i => byte H F chain mem (x + i)

/-- Offset `off` of page `p` is position `x`, on the pages from `lo` on. -/
def At (H F : ℕ) (chain : ℕ → α) (lo : ℕ) (p : α) (off x : ℕ) : Prop :=
  ∃ k, lo ≤ k ∧ p = chain k ∧ H ≤ off ∧ off ≤ H + F ∧ x + H = k * F + off

/-- A position inside a page. -/
theorem div_mod_of_eq {k i : ℕ} (hi : i < F) (hx : x = k * F + i) : x / F = k ∧ x % F = i := by
  refine (Nat.div_mod_unique (by omega)).2 ⟨?_, hi⟩
  rw [hx, Nat.mul_comm, Nat.add_comm]

/-- The cell of a position from its page and its offset in it. -/
theorem cell_of_eq {k i : ℕ} (hi : i < F) (hx : x = k * F + i) :
    cell H F chain x = (chain k, H + i) := by
  obtain ⟨hdiv, hmod⟩ := div_mod_of_eq hi hx
  rw [cell, hdiv, hmod]

/-- The normal form of a position: on the page whose content it starts or is inside of. -/
theorem at_self {lo : ℕ} (hF : 0 < F) (hlo : lo ≤ x / F) :
    At H F chain lo (chain (x / F)) (H + x % F) x := by
  refine ⟨x / F, hlo, rfl, Nat.le_add_right _ _, ?_, ?_⟩
  · have := Nat.mod_lt x hF
    omega
  · have := Nat.div_add_mod' x F
    omega

/-- Positions on pages that differ are in different cells. -/
theorem eq_of_cell_eq {lo hi : ℕ} (hinj : Set.InjOn chain (Set.Ico lo hi))
    (hx : lo ≤ x / F ∧ x / F < hi) (hy : lo ≤ y / F ∧ y / F < hi)
    (h : cell H F chain x = cell H F chain y) : x = y := by
  obtain ⟨hpage, hoff⟩ := Prod.mk.inj h
  have hdiv := hinj hx hy hpage
  have hmod : x % F = y % F := Nat.add_left_cancel hoff
  rw [← Nat.div_add_mod x F, ← Nat.div_add_mod y F, hdiv, hmod]

@[simp] theorem length_bytes (n : ℕ) : (bytes H F chain mem x n).length = n := by simp [bytes]

/-- A read may be made in two parts. -/
theorem bytes_add (m n : ℕ) :
    bytes H F chain mem x (m + n) =
      bytes H F chain mem x m ++ bytes H F chain mem (x + m) n := by
  simp [bytes, List.range_add, Nat.add_assoc]

/-- Reads agree where the bytes do. -/
theorem bytes_congr {chain' : ℕ → α} {n : ℕ}
    (h : ∀ i, i < n → byte H F chain' mem' (x + i) = byte H F chain mem (x + i)) :
    bytes H F chain' mem' x n = bytes H F chain mem x n :=
  List.map_congr_left fun i hi => h i (List.mem_range.mp hi)

/-- A part of one page as a part of the stream. -/
theorem bytes_eq_load {k off n : ℕ} (hlow : H ≤ off) (hroom : off + n ≤ H + F)
    (hx : x + H = k * F + off) : bytes H F chain mem x n = (mem (chain k)).load off n := by
  refine List.map_congr_left fun i hi => ?_
  have hi' : i < n := List.mem_range.mp hi
  obtain ⟨hdiv, hmod⟩ := div_mod_of_eq (x := x + i) (k := k) (i := off - H + i) (F := F)
    (by omega) (by omega)
  rw [byte, hdiv, hmod, show H + (off - H + i) = off + i by omega]

/-! ## Writing -/

/-- `mem'` is `mem` with `bs` written from position `x` on. -/
structure Puts (H F : ℕ) (chain : ℕ → α) (mem mem' : α → ByteMem) (x : ℕ) (bs : List UInt8) :
    Prop where
  stored : bytes H F chain mem' x bs.length = bs
  frame : ∀ p off, (∀ i, i < bs.length → cell H F chain (x + i) ≠ (p, off)) →
    mem' p off = mem p off

/-- Bytes of the stream that are in no written cell. -/
theorem Puts.byte_eq {bs : List UInt8} (h : Puts H F chain mem mem' x bs)
    (hy : ∀ i, i < bs.length → cell H F chain (x + i) ≠ cell H F chain y) :
    byte H F chain mem' y = byte H F chain mem y :=
  h.frame _ _ hy

/-- Two writes, one after the other. -/
theorem Puts.append {bs cs : List UInt8} (h : Puts H F chain mem mem' x bs)
    (h' : Puts H F chain mem' mem'' (x + bs.length) cs)
    (hdisjoint : ∀ i j, i < bs.length → j < cs.length →
      cell H F chain (x + bs.length + j) ≠ cell H F chain (x + i)) :
    Puts H F chain mem mem'' x (bs ++ cs) where
  stored := by
    rw [List.length_append, bytes_add, h'.stored]
    congr 1
    rw [← h.stored, length_bytes]
    refine bytes_congr fun i hi => ?_
    exact h'.byte_eq fun j hj => hdisjoint i j hi hj
  frame p off hout := by
    rw [List.length_append] at hout
    rw [h'.frame p off fun i hi => ?_, h.frame p off fun i hi => hout i (by omega)]
    have := hout (bs.length + i) (by omega)
    rwa [← Nat.add_assoc] at this

/-- A write inside one page. -/
theorem puts_page [DecidableEq α] {k off : ℕ} {bs : List UInt8} (hlow : H ≤ off)
    (hroom : off + bs.length ≤ H + F) (hx : x + H = k * F + off) :
    Puts H F chain mem
      (Function.update mem (chain k) ((mem (chain k)).blit off (ByteMem.ofBytes bs) 0 bs.length))
      x bs where
  stored := by
    rw [bytes_eq_load hlow hroom hx, Function.update_self]
    refine List.ext_getElem (ByteMem.length_load _ _ _) fun i hi hi' => ?_
    rw [ByteMem.length_load] at hi
    simp [ByteMem.load, ByteMem.blit_add hi, ByteMem.ofBytes, hi]
  frame p o hout := by
    by_cases hp : p = chain k
    · subst hp
      rw [Function.update_self]
      refine ByteMem.blit_of_not_mem ?_
      by_contra hin
      have hcell := hout (o - off) (by omega)
      refine hcell ?_
      rw [cell_of_eq (k := k) (i := o - H) (by omega) (by omega),
        show H + (o - H) = o by omega]
    · rw [Function.update_of_ne hp]

end PageStream
