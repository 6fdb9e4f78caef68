import Mathlib.Algebra.GroupWithZero.Nat
import Mathlib.Data.List.Nodup
import Mathlib.Order.Interval.Finset.Nat
import Mathlib.Order.Lattice.Nat

/-!
# A ring of finished segments

A line is cut into segments, one after the other. Each is finished at some time, in any order, and
then its end is stored in a ring, in the slot of its start. A scanner follows the ends from its
position on as long as they lead forward. Slots are never cleared. If a segment is stored only while
its start is less than a turn ahead of the scanner, then the scanner passes only finished segments,
and stops only at one that is not finished.
-/

namespace SegmentRing

open List

/-- The scanner: follow the ends from `pos` on. -/
def scan (n : ℕ) [NeZero n] (slots : ℕ → ℕ) (pos : ℕ) : ℕ :=
  if pos < slots (pos % n) then scan n slots (slots (pos % n)) else pos
termination_by (Finset.range n).sup slots - pos
decreasing_by
  -- a slot is below the greatest one, and the position rises
  have hmem : pos % n ∈ Finset.range n := Finset.mem_range.2 (Nat.mod_lt _ (Nat.pos_of_neZero n))
  have hle : slots (pos % n) ≤ (Finset.range n).sup slots := Finset.le_sup hmem
  omega

/-- The segments lead from `a` to `b`. -/
def Chain : ℕ → List (ℕ × ℕ) → ℕ → Prop
  | a, [], b => a = b
  | a, (p, e) :: segs, b => a = p ∧ p < e ∧ Chain e segs b

namespace Chain

variable {a b c p e p' e' : ℕ} {segs segs' : List (ℕ × ℕ)}

section

variable (h : Chain a segs b)
include h

/-- Chains that meet are one chain. -/
lemma append (h' : Chain b segs' c) : Chain a (segs ++ segs') c := by
  induction segs generalizing a with
  | nil =>
    obtain rfl : a = b := h
    exact h'
  | cons seg segs ih => exact ⟨h.1, h.2.1, ih h.2.2⟩

/-- A chain runs upwards. -/
lemma le : a ≤ b := by
  induction segs generalizing a with
  | nil => exact le_of_eq h
  | cons seg segs ih =>
    have hrest := ih h.2.2
    have hseg := h.2.1
    have ha : a = seg.1 := h.1
    omega

/-- Its segments lie inside and are not empty. -/
lemma bounds (hmem : (p, e) ∈ segs) : a ≤ p ∧ p < e ∧ e ≤ b := by
  induction segs generalizing a with
  | nil => cases hmem
  | cons seg segs ih =>
    obtain ⟨ha, hlt, hrest⟩ := h
    rcases mem_cons.1 hmem with rfl | hmem
    · exact ⟨ha.le, hlt, hrest.le⟩
    · have hin := ih hrest hmem
      omega

/-- The segments stand in the order of their starts. -/
lemma starts_sorted : (segs.map Prod.fst).Pairwise (· < ·) := by
  induction segs generalizing a with
  | nil => exact List.Pairwise.nil
  | cons seg segs ih =>
    obtain ⟨ha, hseg, hrest⟩ := h
    rw [map_cons, pairwise_cons]
    refine ⟨fun p hp => ?_, ih hrest⟩
    obtain ⟨seg', hmem, rfl⟩ := mem_map.1 hp
    have hin := hrest.bounds hmem
    omega

section

variable (hmem : (p, e) ∈ segs)
include hmem

/-- A segment ends before a later one starts. -/
lemma end_le (hmem' : (p', e') ∈ segs) (hlt : p < p') : e ≤ p' := by
  induction segs generalizing a with
  | nil => cases hmem
  | cons seg segs ih =>
    obtain ⟨ha, hseg, hrest⟩ := h
    rcases mem_cons.1 hmem with heq | htail <;> rcases mem_cons.1 hmem' with heq' | htail'
    · exact absurd (congrArg Prod.fst (heq.trans heq'.symm)) hlt.ne
    · exact (congrArg Prod.snd heq).le.trans (hrest.bounds htail').1
    · have hin := hrest.bounds htail
      have hstart : p' = seg.1 := congrArg Prod.fst heq'
      omega
    · exact ih hrest htail htail'

/-- A segment is known by its start. -/
lemma end_unique (hmem' : (p, e') ∈ segs) : e = e' := by
  have hnodup : (segs.map Prod.fst).Nodup := h.starts_sorted.imp ne_of_lt
  exact congrArg Prod.snd (inj_on_of_nodup_map hnodup hmem hmem' rfl)

/-- A segment is the last one or has a successor. -/
lemma next : e = b ∨ ∃ e', (e, e') ∈ segs := by
  induction segs generalizing a with
  | nil => cases hmem
  | cons seg segs ih =>
    obtain ⟨ha, hseg, hrest⟩ := h
    rcases mem_cons.1 hmem with rfl | hmem
    · cases segs with
      | nil => exact Or.inl hrest
      | cons seg' segs =>
        obtain rfl : e = seg'.1 := hrest.1
        exact Or.inr ⟨seg'.2, mem_cons_of_mem _ mem_cons_self⟩
    · rcases ih hrest hmem with hlast | ⟨e', hmem'⟩
      · exact Or.inl hlast
      · exact Or.inr ⟨e', mem_cons_of_mem _ hmem'⟩

end

/-- Every position lies in a segment. -/
lemma exists_mem {x : ℕ} (ha : a ≤ x) (hb : x < b) : ∃ p e, (p, e) ∈ segs ∧ p ≤ x ∧ x < e := by
  induction segs generalizing a with
  | nil =>
    obtain rfl : a = b := h
    omega
  | cons seg segs ih =>
    obtain ⟨hstart, hseg, hrest⟩ := h
    rcases Nat.lt_or_ge x seg.2 with hlt | hge
    · exact ⟨seg.1, seg.2, mem_cons_self, hstart ▸ ha, hlt⟩
    · obtain ⟨p, e, hmem, hin⟩ := ih hrest hge
      exact ⟨p, e, mem_cons_of_mem _ hmem, hin⟩

end

end Chain

/-- The scanner is at `pos`, the segments lead from `first` to `last`, and `done` are the starts of
the finished ones. The finished segments from `pos` on are stored and less than a turn ahead; every
other slot leads nowhere. -/
structure Inv (n first : ℕ) (segs : List (ℕ × ℕ)) (last : ℕ) (done : ℕ → Prop) (slots : ℕ → ℕ)
    (pos : ℕ) : Prop where
  chain : Chain first segs last
  node : pos = last ∨ ∃ e, (pos, e) ∈ segs
  passed : ∀ p e, (p, e) ∈ segs → p < pos → done p
  stored : ∀ p e, (p, e) ∈ segs → done p → pos ≤ p → slots (p % n) = e ∧ p < pos + n
  slot : ∀ i, i < n → slots i ≤ pos ∨ ∃ p, (p, slots i) ∈ segs ∧ done p ∧ pos ≤ p ∧ p % n = i

namespace Inv

variable {n first last pos p e : ℕ} {segs : List (ℕ × ℕ)} {done done' : ℕ → Prop} {slots : ℕ → ℕ}

/-- At the start nothing is finished. -/
lemma start (done : ℕ → Prop) (hslots : ∀ i, i < n → slots i ≤ first) :
    Inv n first [] first done slots first where
  chain := rfl
  node := Or.inl rfl
  passed := nofun
  stored := nofun
  slot := fun i hi => Or.inl (hslots i hi)

section

variable (h : Inv n first segs last done slots pos)
include h

/-- The position has passed no unfinished segment. -/
lemma pos_le (hmem : (p, e) ∈ segs) (hp : ¬done p) : pos ≤ p := by
  by_contra hlt
  exact hp (h.passed p e hmem (not_le.1 hlt))

/-- The position stays within the chain. -/
lemma pos_le_last : pos ≤ last := by
  rcases h.node with heq | ⟨e, hmem⟩
  · exact heq.le
  · have hin := h.chain.bounds hmem
    omega

/-- Only whether the segments of the chain are done counts. -/
lemma congr (hdone : ∀ p e, (p, e) ∈ segs → (done' p ↔ done p)) :
    Inv n first segs last done' slots pos where
  chain := h.chain
  node := h.node
  passed := fun p e hmem hlt => (hdone p e hmem).2 (h.passed p e hmem hlt)
  stored := fun p e hmem hp hle => h.stored p e hmem ((hdone p e hmem).1 hp) hle
  slot := by
    intro i hi
    rcases h.slot i hi with hle | ⟨p, hmem, hp, hrest⟩
    · exact Or.inl hle
    · exact Or.inr ⟨p, hmem, (hdone p _ hmem).2 hp, hrest⟩

end

/-- New segments may be added at the end. -/
lemma extend {segs' : List (ℕ × ℕ)} {last' : ℕ} (h : Inv n first segs last done slots pos)
    (hchain : Chain last segs' last') (hdone : ∀ p e, (p, e) ∈ segs' → ¬done p) :
    Inv n first (segs ++ segs') last' done slots pos where
  chain := h.chain.append hchain
  node := by
    rcases h.node with rfl | ⟨e', hmem⟩
    · cases segs' with
      | nil => exact Or.inl hchain
      | cons seg segs' =>
        obtain rfl : pos = seg.1 := hchain.1
        exact Or.inr ⟨seg.2, mem_append_right _ mem_cons_self⟩
    · exact Or.inr ⟨e', mem_append_left _ hmem⟩
  passed := by
    intro p e' hmem hp
    rcases mem_append.1 hmem with hmem | hmem
    · exact h.passed p e' hmem hp
    · have hle := h.pos_le_last
      have hin := hchain.bounds hmem
      omega
  stored := by
    intro p e' hmem hp hle
    rcases mem_append.1 hmem with hmem | hmem
    · exact h.stored p e' hmem hp hle
    · exact absurd hp (hdone p e' hmem)
  slot := by
    intro i hi
    rcases h.slot i hi with hle | ⟨p, hmem, hrest⟩
    · exact Or.inl hle
    · exact Or.inr ⟨p, mem_append_left _ hmem, hrest⟩

/-- Within one lap a slot belongs to one position. -/
lemma eq_of_mod_eq {q : ℕ} (hp : pos ≤ p) (hp' : p < pos + n) (hq : pos ≤ q) (hq' : q < pos + n)
    (hmod : p % n = q % n) : p = q :=
  Nat.mod_injOn_Ico pos n (Finset.mem_coe.2 (Finset.mem_Ico.2 ⟨hp, hp'⟩))
    (Finset.mem_coe.2 (Finset.mem_Ico.2 ⟨hq, hq'⟩)) hmod

/-- Finishing a segment less than a lap ahead writes its end into its slot. -/
lemma finish (h : Inv n first segs last done slots pos) (hmem : (p, e) ∈ segs) (hp : ¬done p)
    (hahead : p < pos + n) :
    Inv n first segs last (fun q => done q ∨ q = p) (Function.update slots (p % n) e) pos where
  chain := h.chain
  node := h.node
  passed := fun q e' hq hlt => Or.inl (h.passed q e' hq hlt)
  stored := by
    intro q e' hq hdone hle
    rcases hdone with hdone | rfl
    · -- another segment of the same turn keeps its slot
      have hstored := h.stored q e' hq hdone hle
      have hne : q % n ≠ p % n := by
        intro hmod
        have heq := eq_of_mod_eq hle hstored.2 (h.pos_le hmem hp) hahead hmod
        exact hp (heq ▸ hdone)
      rw [Function.update_of_ne hne]
      exact hstored
    · rw [Function.update_self]
      exact ⟨h.chain.end_unique hmem hq, hahead⟩
  slot := by
    intro i hi
    by_cases hpi : i = p % n
    · rw [hpi, Function.update_self]
      exact Or.inr ⟨p, hmem, Or.inr rfl, h.pos_le hmem hp, rfl⟩
    · rw [Function.update_of_ne hpi]
      rcases h.slot i hi with hle | ⟨q, hq, hdone, hrest⟩
      · exact Or.inl hle
      · exact Or.inr ⟨q, hq, Or.inl hdone, hrest⟩

variable [NeZero n]

section

variable (h : Inv n first segs last done slots pos)
include h

/-- A slot that lies ahead holds the end of the finished segment at the position. -/
lemma step (hlt : pos < slots (pos % n)) : (pos, slots (pos % n)) ∈ segs ∧ done pos := by
  rcases h.slot (pos % n) (Nat.mod_lt _ (Nat.pos_of_neZero n)) with hle | ⟨p, hmem, hp, hle, hmod⟩
  · omega
  · have hstored := h.stored p _ hmem hp hle
    have heq := eq_of_mod_eq hle hstored.2 le_rfl (by have := Nat.pos_of_neZero n; omega) hmod
    exact ⟨heq ▸ hmem, heq ▸ hp⟩

/-- So the position may move there. -/
lemma advance (hlt : pos < slots (pos % n)) :
    Inv n first segs last done slots (slots (pos % n)) := by
  obtain ⟨hmem, hdone⟩ := h.step hlt
  generalize slots (pos % n) = e at hmem hlt ⊢
  -- no other segment starts up to the end of this one
  have hbetween : ∀ p e', (p, e') ∈ segs → pos ≤ p → p < e → p = pos := by
    intro p e' hp hle hlt'
    rcases hle.eq_or_lt with heq | hlt''
    · exact heq.symm
    · have := h.chain.end_le hmem hp hlt''
      omega
  refine ⟨h.chain, h.chain.next hmem, fun p e' hp hlt' => ?_, fun p e' hp hd hle => ?_,
    fun i hi => ?_⟩
  · rcases Nat.lt_or_ge p pos with hbefore | hle
    · exact h.passed p e' hp hbefore
    · exact hbetween p e' hp hle hlt' ▸ hdone
  · have hstored := h.stored p e' hp hd (by omega)
    exact ⟨hstored.1, by omega⟩
  · rcases h.slot i hi with hle | ⟨p, hp, hd, hle, hmod⟩
    · exact Or.inl (by omega)
    · rcases Nat.lt_or_ge p e with hlt' | hle'
      · obtain rfl := hbetween p _ hp hle hlt'
        exact Or.inl (h.chain.end_unique hp hmem).le
      · exact Or.inr ⟨p, hp, hd, hle', hmod⟩

/-- The scanner stops where no segment is finished. -/
theorem scan :
    Inv n first segs last done slots (scan n slots pos) ∧ pos ≤ SegmentRing.scan n slots pos ∧
      ¬ SegmentRing.scan n slots pos < slots (SegmentRing.scan n slots pos % n) := by
  fun_induction SegmentRing.scan n slots pos with
  | case1 pos hlt ih =>
    obtain ⟨hinv, hle, hstop⟩ := ih (h.advance hlt)
    exact ⟨hinv, hlt.le.trans hle, hstop⟩
  | case2 pos hstop => exact ⟨h, le_rfl, hstop⟩

/-- When all segments are finished, the scanner comes to the end. -/
theorem scan_eq_last
    (hall : ∀ p e, (p, e) ∈ segs → done p) : SegmentRing.scan n slots pos = last := by
  obtain ⟨hinv, -, hstop⟩ := h.scan
  rcases hinv.node with hlast | ⟨e, hmem⟩
  · exact hlast
  · have hstored := hinv.stored _ e hmem (hall _ e hmem) le_rfl
    have hlt := (hinv.chain.bounds hmem).2.1
    exact absurd (hstored.1 ▸ hlt) hstop

end

end Inv

end SegmentRing
