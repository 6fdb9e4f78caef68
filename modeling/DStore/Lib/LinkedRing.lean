import Mathlib.Data.List.Cycle

/-!
# Doubly linked rings

A ring of nodes linked by `next` and `prev`, laid out along the naturals: node `chain i` for
`lo ≤ i < hi`, with `chain hi` the first node again. Moving the first node forward and putting new
nodes into the ring leave the nodes already passed where they are.
-/

variable {α : Type*} {next prev next' prev' : α → α} {chain : ℕ → α} {lo hi : ℕ}

/-- The nodes `chain lo`, …, `chain (hi - 1)` are distinct and linked to a ring in this order. -/
structure LinkedRing (next prev : α → α) (chain : ℕ → α) (lo hi : ℕ) : Prop where
  lt : lo < hi
  inj : Set.InjOn chain (Set.Ico lo hi)
  wrap : chain hi = chain lo
  next_eq : ∀ i, lo ≤ i → i < hi → next (chain i) = chain (i + 1)
  prev_eq : ∀ i, lo ≤ i → i < hi → prev (chain (i + 1)) = chain i

namespace LinkedRing

open List

variable {i j a m : ℕ}

/-- The nodes of the ring. -/
def Mem (chain : ℕ → α) (lo hi : ℕ) (a : α) : Prop := ∃ i, lo ≤ i ∧ i < hi ∧ chain i = a

section

variable (h : LinkedRing next prev chain lo hi)
include h

theorem mem_of_le (hlo : lo ≤ i) (hhi : i ≤ hi) : Mem chain lo hi (chain i) := by
  rcases Nat.lt_or_ge i hi with hlt | hge
  · exact ⟨i, hlo, hlt, rfl⟩
  · obtain rfl : i = hi := Nat.le_antisymm hhi hge
    exact ⟨lo, Nat.le_refl lo, h.lt, h.wrap.symm⟩

/-- Only the links of the ring's own nodes matter. -/
theorem congr (hnext : ∀ i, lo ≤ i → i < hi → next' (chain i) = next (chain i))
    (hprev : ∀ i, lo ≤ i → i < hi → prev' (chain i) = prev (chain i)) :
    LinkedRing next' prev' chain lo hi where
  lt := h.lt
  inj := h.inj
  wrap := h.wrap
  next_eq i hlo hhi := (hnext i hlo hhi).trans (h.next_eq i hlo hhi)
  prev_eq i hlo hhi := by
    rw [← h.prev_eq i hlo hhi]
    rcases Nat.lt_or_ge (i + 1) hi with hlt | hge
    · exact hprev (i + 1) (by omega) hlt
    · rw [show i + 1 = hi by omega, h.wrap]
      exact hprev lo (Nat.le_refl lo) h.lt

/-- The node after node `i` is the first one exactly at the end. -/
theorem succ_eq_first_iff (hlo : lo ≤ i)
    (hhi : i < hi) : chain (i + 1) = chain lo ↔ i + 1 = hi := by
  constructor
  · intro heq
    by_contra hne
    have hi' : i + 1 < hi := by omega
    have := h.inj ⟨by omega, hi'⟩ ⟨Nat.le_refl lo, h.lt⟩ heq
    omega
  · intro heq
    rw [heq, h.wrap]

/-- Different nodes have different successors. -/
theorem succ_inj (hi1 : lo ≤ i) (hi2 : i < hi) (hj1 : lo ≤ j) (hj2 : j < hi)
    (heq : chain (i + 1) = chain (j + 1)) : i = j := by
  have hnodes : chain i = chain j := by
    rw [← h.prev_eq i hi1 hi2, ← h.prev_eq j hj1 hj2, heq]
  exact h.inj ⟨hi1, hi2⟩ ⟨hj1, hj2⟩ hnodes

end

/-! ## Moving the first node -/

/-- The layout that goes on past `hi`. -/
def advance (chain : ℕ → α) (lo hi i : ℕ) : α :=
  if i ≤ hi then chain i else chain (i - (hi - lo))

/-- Rotation leaves the places before the end. -/
theorem advance_of_le (h : i ≤ hi) : advance chain lo hi i = chain i := if_pos h

/-- With the first `k` nodes passed, the ring starts `k` further. -/
theorem rotate {k : ℕ} (h : LinkedRing next prev chain lo hi) (hk : lo + k < hi) :
    LinkedRing next prev (advance chain lo hi) (lo + k) (hi + k) := by
  have hlt := h.lt
  -- every node of the new layout is one of the old layout
  have hold : ∀ i, lo + k ≤ i → i < hi + k → ∃ j, lo ≤ j ∧ j < hi ∧
      advance chain lo hi i = chain j ∧ advance chain lo hi (i + 1) = chain (j + 1) ∧
      (j = i ∨ j + (hi - lo) = i) := by
    intro i hlo hhi
    unfold advance
    rcases Nat.lt_trichotomy i hi with hi' | rfl | hi'
    · exact ⟨i, by omega, hi', by rw [if_pos (by omega)], by rw [if_pos (by omega)], Or.inl rfl⟩
    · refine ⟨lo, Nat.le_refl lo, hlt, ?_, ?_, Or.inr (by omega)⟩
      · rw [if_pos (Nat.le_refl _), h.wrap]
      · rw [if_neg (by omega), show i + 1 - (i - lo) = lo + 1 by omega]
    · refine ⟨i - (hi - lo), by omega, by omega, ?_, ?_, Or.inr (by omega)⟩
      · rw [if_neg (by omega)]
      · rw [if_neg (by omega), show i + 1 - (hi - lo) = i - (hi - lo) + 1 by omega]
  refine ⟨by omega, ?_, ?_, ?_, ?_⟩
  · rintro i ⟨hilo, hihi⟩ i' ⟨hilo', hihi'⟩ heq
    obtain ⟨j, hjlo, hjhi, hj, -, hji⟩ := hold i hilo hihi
    obtain ⟨j', hjlo', hjhi', hj', -, hji'⟩ := hold i' hilo' hihi'
    rw [hj, hj'] at heq
    have := h.inj ⟨hjlo, hjhi⟩ ⟨hjlo', hjhi'⟩ heq
    omega
  · unfold advance
    rcases Nat.eq_zero_or_pos k with rfl | hpos
    · rw [Nat.add_zero, Nat.add_zero, if_pos (Nat.le_refl _), if_pos (by omega), h.wrap]
    · rw [if_neg (by omega), if_pos (by omega), show hi + k - (hi - lo) = lo + k by omega]
  · intro i hilo hihi
    obtain ⟨j, hjlo, hjhi, hj, hj', -⟩ := hold i hilo hihi
    rw [hj, hj']
    exact h.next_eq j hjlo hjhi
  · intro i hilo hihi
    obtain ⟨j, hjlo, hjhi, hj, hj', -⟩ := hold i hilo hihi
    rw [hj, hj']
    exact h.prev_eq j hjlo hjhi

/-! ## Putting nodes into the ring -/

/-- The layout with `m` nodes `q` after node `a`. -/
def insert (chain : ℕ → α) (a m : ℕ) (q : ℕ → α) (i : ℕ) : α :=
  if i ≤ a then chain i else if i ≤ a + m then q (i - (a + 1)) else chain (i - m)

variable {q : ℕ → α}

/-- Places up to the insertion stay. -/
theorem insert_of_le (h : i ≤ a) : insert chain a m q i = chain i :=
  if_pos h

/-- The new pages follow. -/
theorem insert_new (hj : j < m) : insert chain a m q (a + 1 + j) = q j := by
  unfold insert
  rw [if_neg (by omega), if_pos (by omega), show a + 1 + j - (a + 1) = j by omega]

/-- The later places move up. -/
theorem insert_add (hi' : a < i) : insert chain a m q (i + m) = chain i := by
  unfold insert
  rw [if_neg (by omega), if_neg (by omega), Nat.add_sub_cancel]

/-- The three parts of the layout. -/
theorem insert_cases (h : i < hi + m) :
    i ≤ a ∨ (∃ j, j < m ∧ i = a + 1 + j) ∨ ∃ j, a < j ∧ j < hi ∧ i = j + m := by
  rcases Nat.lt_or_ge a i with h1 | h1
  · rcases Nat.lt_or_ge (a + m) i with h2 | h2
    · exact Or.inr (Or.inr ⟨i - m, by omega, by omega, by omega⟩)
    · exact Or.inr (Or.inl ⟨i - (a + 1), by omega, by omega⟩)
  · exact Or.inl h1

/-- A node of the new layout is an old or a new one. -/
theorem insert_old_or_new (hlo : lo ≤ a) (ha : a < hi) (hi1 : lo ≤ i) (hi2 : i < hi + m) :
    (∃ j, lo ≤ j ∧ j < hi ∧ insert chain a m q i = chain j ∧ i = if j ≤ a then j else j + m) ∨
      ∃ j, j < m ∧ insert chain a m q i = q j ∧ i = a + 1 + j := by
  rcases insert_cases (a := a) hi2 with h | ⟨j, hj, rfl⟩ | ⟨j, hja, hjhi, rfl⟩
  · exact Or.inl ⟨i, hi1, by omega, insert_of_le h, (if_pos h).symm⟩
  · exact Or.inr ⟨j, hj, insert_new hj, rfl⟩
  · exact Or.inl ⟨j, by omega, hjhi, insert_add hja, (if_neg (by omega)).symm⟩

/-- Nodes `q 0`, …, `q (m - 1)` that are not on the ring, put between node `a` and its
successor. -/
theorem insertAfter (h : LinkedRing next prev chain lo hi) (hm : 0 < m) (hlo : lo ≤ a)
    (hhi : a < hi) (hfresh : ∀ i, lo ≤ i → i < hi → ∀ j, j < m → chain i ≠ q j)
    (hq : Set.InjOn q (Set.Iio m)) (hnext : next' (chain a) = q 0)
    (hprev : prev' (chain (a + 1)) = q (m - 1))
    (hkeepNext : ∀ i, lo ≤ i → i < hi → i ≠ a → next' (chain i) = next (chain i))
    (hkeepPrev : ∀ i, lo ≤ i → i < hi → i ≠ a → prev' (chain (i + 1)) = prev (chain (i + 1)))
    (hnewNext : ∀ j, j < m → next' (q j) = if j + 1 = m then chain (a + 1) else q (j + 1))
    (hnewPrev : ∀ j, j < m → prev' (q j) = if j = 0 then chain a else q (j - 1)) :
    LinkedRing next' prev' (insert chain a m q) lo (hi + m) := by
  have hlt := h.lt
  have hlink : ∀ i, lo ≤ i → i < hi + m →
      next' (insert chain a m q i) = insert chain a m q (i + 1) ∧
        prev' (insert chain a m q (i + 1)) = insert chain a m q i := by
    intro i hilo hihi
    rcases insert_cases (a := a) hihi with hia | ⟨j, hj, rfl⟩ | ⟨j, hja, hjhi, rfl⟩
    · rw [insert_of_le hia]
      rcases Nat.lt_or_eq_of_le hia with hia | rfl
      · rw [insert_of_le hia, hkeepNext i hilo (by omega) (by omega),
          hkeepPrev i hilo (by omega) (by omega)]
        exact ⟨h.next_eq i hilo (by omega), h.prev_eq i hilo (by omega)⟩
      · have hfirst : insert chain i m q (i + 1) = q 0 := insert_new hm
        rw [hfirst, hnewPrev 0 hm]
        exact ⟨hnext, if_pos rfl⟩
    · rw [insert_new hj, hnewNext j hj]
      rcases Nat.lt_or_ge (j + 1) m with hlast | hlast
      · rw [Nat.add_assoc (a + 1), insert_new hlast, hnewPrev (j + 1) hlast, if_neg (by omega),
          if_neg (by omega)]
        exact ⟨rfl, rfl⟩
      · rw [show a + 1 + j + 1 = a + 1 + m by omega, insert_add (by omega), hprev,
          if_pos (by omega), show m - 1 = j by omega]
        exact ⟨rfl, rfl⟩
    · rw [insert_add hja, show j + m + 1 = j + 1 + m by omega, insert_add (by omega),
        hkeepNext j (by omega) hjhi (by omega), hkeepPrev j (by omega) hjhi (by omega)]
      exact ⟨h.next_eq j (by omega) hjhi, h.prev_eq j (by omega) hjhi⟩
  refine ⟨by omega, ?_, ?_, fun i hilo hihi => (hlink i hilo hihi).1,
    fun i hilo hihi => (hlink i hilo hihi).2⟩
  · rintro i ⟨hilo, hihi⟩ i' ⟨hilo', hihi'⟩ heq
    rcases insert_old_or_new hlo hhi hilo hihi with ⟨j, hjlo, hjhi, hj, hij⟩ | ⟨j, hjm, hj, hij⟩ <;>
      rcases insert_old_or_new hlo hhi hilo' hihi' with
        ⟨j', hjlo', hjhi', hj', hij'⟩ | ⟨j', hjm', hj', hij'⟩ <;>
      rw [hj, hj'] at heq
    · rw [hij, hij', h.inj ⟨hjlo, hjhi⟩ ⟨hjlo', hjhi'⟩ heq]
    · exact absurd heq (hfresh j hjlo hjhi j' hjm')
    · exact absurd heq.symm (hfresh j' hjlo' hjhi' j hjm)
    · rw [hij, hij', hq hjm hjm' heq]
  · rw [insert_add hhi, insert_of_le hlo, h.wrap]

/-! ## The ring as a cycle -/

/-- The nodes as a cycle. -/
def toCycle (chain : ℕ → α) (lo hi : ℕ) : Cycle α :=
  ((List.range' lo (hi - lo)).map chain : List α)

theorem mem_toCycle {a : α} : a ∈ toCycle chain lo hi ↔ Mem chain lo hi a := by
  unfold toCycle Mem
  rw [Cycle.mem_coe_iff, mem_map]
  constructor
  · rintro ⟨i, hi', rfl⟩
    rw [mem_range'_1] at hi'
    exact ⟨i, hi'.1, by omega, rfl⟩
  · rintro ⟨i, hlo, hhi, rfl⟩
    exact ⟨i, mem_range'_1.mpr ⟨hlo, by omega⟩, rfl⟩

theorem toCycle_nodup (h : LinkedRing next prev chain lo hi) : (toCycle chain lo hi).Nodup := by
  unfold toCycle
  rw [Cycle.nodup_coe_iff]
  refine List.Nodup.map_on (fun i hi' j hj' heq => ?_) nodup_range'
  rw [mem_range'_1] at hi' hj'
  have hlt := h.lt
  exact h.inj ⟨hi'.1, by omega⟩ ⟨hj'.1, by omega⟩ heq

/-- Neighbours on the cycle are linked both ways. -/
theorem toCycle_chain (h : LinkedRing next prev chain lo hi) :
    (toCycle chain lo hi).Chain fun a b => next a = b ∧ prev b = a := by
  have hlt := h.lt
  have hwhole : List.IsChain (fun a b => next a = b ∧ prev b = a)
      ((range' lo (hi - lo + 1)).map chain) := by
    rw [isChain_map, isChain_iff_getElem]
    intro i hi'
    rw [length_range'] at hi'
    simp only [getElem_range', Nat.one_mul]
    exact ⟨h.next_eq (lo + i) (by omega) (by omega), h.prev_eq (lo + i) (by omega) (by omega)⟩
  unfold toCycle
  rw [show hi - lo = hi - lo - 1 + 1 by omega, range'_succ, map_cons,
    Cycle.chain_coe_cons]
  rw [show hi - lo + 1 = (hi - lo - 1 + 1) + 1 by omega, range'_concat, map_append,
    range'_succ, map_cons] at hwhole
  rw [show lo + 1 * (hi - lo - 1 + 1) = hi by omega] at hwhole
  simpa [h.wrap] using hwhole

section

variable {r : α → α → Prop} {c : Cycle α} {a : α} (h : c.Chain r) (ha : a ∈ c)
include h ha

/-- A chained cycle can be read from any of its elements on, back to that element. -/
lemma exists_rotation_of_chain :
    ∃ l : List α, c = (a :: l : List α) ∧ List.IsChain r (a :: (l ++ [a])) := by
  induction c using Quotient.inductionOn with
  | h l =>
    obtain ⟨s, t, rfl⟩ := append_of_mem (Cycle.mem_coe_iff.mp ha)
    have hrot : ((s ++ a :: t : List α) : Cycle α) = (a :: (t ++ s) : List α) :=
      Cycle.coe_eq_coe.mpr ⟨s.length, by simp⟩
    change Cycle.Chain r ((s ++ a :: t : List α) : Cycle α) at h
    rw [hrot, Cycle.chain_coe_cons] at h
    exact ⟨t ++ s, hrot, h⟩

/-- A set that holds one element of a chained cycle and all its successors holds the cycle. -/
theorem forall_mem_of_chain {P : α → Prop} (hP : P a) (hstep : ∀ x y, P x → r x y → P y) :
    ∀ b ∈ c, P b := by
  obtain ⟨l, rfl, hchain⟩ := exists_rotation_of_chain h ha
  intro b hb
  refine hchain.cons_induction P _ (fun x y hxy hx => hstep x y hx hxy) hP b ?_
  rcases mem_cons.mp (Cycle.mem_coe_iff.mp hb) with rfl | hb
  · exact mem_append_right _ mem_cons_self
  · exact mem_append_left _ hb

/-- Every element of a chained cycle has a successor on it. -/
theorem exists_mem_of_chain : ∃ b ∈ c, r a b := by
  obtain ⟨l, rfl, hchain⟩ := exists_rotation_of_chain h ha
  cases l with
  | nil => exact ⟨a, ha, (isChain_cons_cons.mp hchain).1⟩
  | cons b rest =>
    refine ⟨b, Cycle.mem_coe_iff.mpr ?_, (isChain_cons_cons.mp hchain).1⟩
    exact mem_cons_of_mem _ mem_cons_self

end

end LinkedRing
