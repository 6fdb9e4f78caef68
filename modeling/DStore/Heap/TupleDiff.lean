import DStore.Heap.Undo

/-!
# Diffs of in-place updates

An in-place update logs only the bytes in which the old and the new tuple differ. The two
tuples are aligned at their ends: a diff section is an interval of distances to the end of
the data. At most `MAX_DIFF_POS_NUM / 2` sections are kept; what is left over goes into the
last one.
-/

namespace DStore

open HeapDiskTuple ByteMem

/-- Advance `index` while `p` holds, at most `n` times. -/
def scanWhile (p : ℕ → Bool) : ℕ → ℕ → ℕ
  | 0, index => index
  | n + 1, index => if p index then scanWhile p n (index + 1) else index

/-- The loop of `GetDiffBetweenTuples`: the sections found, and the index reached. `same i`
compares the bytes at distance `i`. -/
def diffLoop (same : ℕ → Bool) (shortLen longLen : ℕ) : ℕ → ℕ → List (ℕ × ℕ) × ℕ
  | 0, index => ([], index)
  | n + 1, index =>
    let start := scanWhile same (shortLen - index) index
    let stop := scanWhile (fun i => !same i) (shortLen - start) start
    let stop := if stop ≥ shortLen then longLen else stop
    if start = stop then ([], stop)
    else
      let rest := diffLoop same shortLen longLen n stop
      ((start, stop) :: rest.1, rest.2)

/-- Move the end of the last section. -/
def extendLast (longLen : ℕ) : List (ℕ × ℕ) → List (ℕ × ℕ)
  | [] => []
  | [(start, _)] => [(start, longLen)]
  | section₁ :: section₂ :: rest => section₁ :: extendLast longLen (section₂ :: rest)

/-- `MAX_DIFF_POS_NUM / NUM_DIFF_STEP`. -/
def maxDiffNum : ℕ := 5

/-- `GetDiffBetweenTuples` (`m_diffPos`). -/
def getDiffBetweenTuples (same : ℕ → Bool) (oldLen newLen : ℕ) : List (ℕ × ℕ) :=
  let shortLen := min oldLen newLen
  let longLen := max oldLen newLen
  let found := diffLoop same shortLen longLen maxDiffNum 0
  if found.2 < shortLen then extendLast longLen found.1 else found.1

/-- The sections `GetTupleDiffSize` cuts to the data of one of the tuples (`m_tupDiffPos`). -/
def getTupleDiffPos (tupDataSize : ℕ) : List (ℕ × ℕ) → List (ℕ × ℕ)
  | [] => []
  | (start, stop) :: rest =>
    if stop > tupDataSize then
      if tupDataSize = start then [] else (start, tupDataSize) :: getTupleDiffPos tupDataSize rest
    else (start, stop) :: getTupleDiffPos tupDataSize rest

/-- `UndoDataHeapInplaceUpdate::GenerateUndoData`: the old bytes of the sections, for old data
that ends at `dataEnd`. -/
def generateUndoData (old : ByteMem) (dataEnd : ℕ) (diffPos : List (ℕ × ℕ)) : List DiffSection :=
  diffPos.map fun pos => ⟨pos.1, pos.2, old.load (dataEnd - pos.2) (pos.2 - pos.1)⟩

/-- The diff sections in the undo record of an in-place update: the old tuple is at `off`, the
new one at the start of its own memory. -/
def inplaceDiffs (old : ByteMem) (off oldLen : ℕ) (new : ByteMem) (newLen : ℕ) :
    List DiffSection :=
  let same i := old (off + oldLen - 1 - i) == new (newLen - 1 - i)
  generateUndoData old (off + oldLen)
    (getTupleDiffPos (oldLen - heapDiskTupHeaderSize)
      (getDiffBetweenTuples same (oldLen - heapDiskTupHeaderSize) (newLen - heapDiskTupHeaderSize)))

/-! ## The sections cover every difference -/

/-- The scan passes only what satisfies `p`, and stops at the first that does not. -/
lemma scanWhile_spec (p : ℕ → Bool) (n index : ℕ) :
    index ≤ scanWhile p n index ∧ scanWhile p n index ≤ index + n ∧
      (∀ i, index ≤ i → i < scanWhile p n index → p i) ∧
      (scanWhile p n index < index + n → p (scanWhile p n index) = false) := by
  induction n generalizing index with
  | zero =>
    rw [scanWhile]
    exact ⟨le_rfl, le_rfl, fun i hle hlt => absurd hlt (by omega), fun hlt => absurd hlt (by omega)⟩
  | succ n ih =>
    rw [scanWhile]
    split_ifs with hp
    · obtain ⟨hge, hle, hpassed, hstop⟩ := ih (index + 1)
      refine ⟨by omega, by omega, fun i hi hlt => ?_, fun hlt => hstop (by omega)⟩
      by_cases heq : i = index
      · rwa [heq]
      · exact hpassed i (by omega) hlt
    · exact ⟨le_rfl, by omega, fun i hle hlt => absurd hlt (by omega), fun _ => by simpa using hp⟩

/-- Some section contains the distance `d`. -/
def Covered (diffPos : List (ℕ × ℕ)) (d : ℕ) : Prop := ∃ pos ∈ diffPos, pos.1 ≤ d ∧ d < pos.2

variable {diffPos : List (ℕ × ℕ)} {d shortLen longLen index : ℕ}

/-- A position is covered by the first section or by a later one. -/
lemma covered_cons {pos : ℕ × ℕ} :
    Covered (pos :: diffPos) d ↔ (pos.1 ≤ d ∧ d < pos.2) ∨ Covered diffPos d := by
  simp [Covered]

/-- The sections are in order, not empty, and start within the common length. -/
def SectionsFrom (shortLen : ℕ) : ℕ → List (ℕ × ℕ) → Prop
  | _, [] => True
  | index, (start, stop) :: rest =>
    index ≤ start ∧ start < stop ∧ start ≤ shortLen ∧ SectionsFrom shortLen stop rest

/-- What the loop of `GetDiffBetweenTuples` finds from `index` on. -/
structure DiffFound (same : ℕ → Bool) (shortLen longLen budget index : ℕ)
    (found : List (ℕ × ℕ) × ℕ) : Prop where
  sections : SectionsFrom shortLen index found.1
  covers : ∀ d, index ≤ d → d < found.2 → Covered found.1 d ∨ (d < shortLen ∧ same d = true)
  -- either everything was scanned, or the budget is used up inside the common length
  finished : found.2 = longLen ∨ (found.2 < shortLen ∧ found.1.length = budget)
  stop_le : index ≤ found.2 ∧ ∀ pos ∈ found.1, pos.2 ≤ found.2

/-- One round of the loop: where the section starts and stops. -/
lemma diffLoop_round (same : ℕ → Bool) (hlen : shortLen ≤ longLen)
    (hindex : index ≤ shortLen ∨ index = longLen) :
    ∃ start stop, (∀ n, diffLoop same shortLen longLen (n + 1) index =
        if start = stop then ([], stop)
        else ((start, stop) :: (diffLoop same shortLen longLen n stop).1,
          (diffLoop same shortLen longLen n stop).2)) ∧
      index ≤ start ∧ start ≤ stop ∧ (start = stop → stop = longLen) ∧
      (start ≠ stop → start ≤ shortLen) ∧ (stop < shortLen ∨ stop = longLen) ∧
      ∀ d, index ≤ d → d < start → d < shortLen ∧ same d := by
  obtain ⟨hstart_ge, hstart_le, hsame, hdiff⟩ := scanWhile_spec same (shortLen - index) index
  set start := scanWhile same (shortLen - index) index
  obtain ⟨hmid_ge, hmid_le, -, hstop⟩ := scanWhile_spec (fun i => !same i) (shortLen - start) start
  set mid := scanWhile (fun i => !same i) (shortLen - start) start
  refine ⟨start, if mid ≥ shortLen then longLen else mid, fun n => rfl, hstart_ge, ?_⟩
  have hpassed : ∀ d, index ≤ d → d < start → d < shortLen ∧ same d := by
    intro d h1 h2
    exact ⟨by omega, hsame d h1 h2⟩
  by_cases hend : mid ≥ shortLen
  · rw [if_pos hend]
    exact ⟨by omega, fun _ => rfl, fun hne => by omega, Or.inr rfl, hpassed⟩
  · rw [if_neg hend]
    refine ⟨hmid_ge, fun heq => ?_, fun _ => by omega, Or.inl (by omega), hpassed⟩
    -- the bytes at `start` differ, so the section is not empty
    have hstop := hstop (by omega)
    rw [← heq, hdiff (by omega)] at hstop
    exact absurd hstop (by decide)

/-- The loop finds every difference within its budget of sections. -/
lemma diffLoop_found (same : ℕ → Bool) (hlen : shortLen ≤ longLen) (budget index : ℕ)
    (hindex : index ≤ shortLen ∨ index = longLen)
    (hbudget : budget = 0 → index < shortLen ∨ index = longLen) :
    DiffFound same shortLen longLen budget index (diffLoop same shortLen longLen budget index) := by
  induction budget generalizing index with
  | zero =>
    refine ⟨trivial, fun d h1 h2 => ?_, ?_, le_rfl,
      fun pos hpos => absurd hpos (by simp [diffLoop])⟩
    · exact absurd h2 (by rw [diffLoop]; omega)
    · rcases hbudget rfl with h | h
      · exact Or.inr ⟨h, rfl⟩
      · exact Or.inl h
  | succ budget ih =>
    obtain ⟨start, stop, hloop, h1, h2, heq, hshort, hstop, hpassed⟩ :=
      diffLoop_round same hlen hindex
    rw [hloop]
    by_cases hss : start = stop
    · rw [if_pos hss]
      refine ⟨trivial, fun d hd1 hd2 => ?_, Or.inl (heq hss), by show index ≤ stop; omega,
        fun pos hpos => absurd hpos (by simp)⟩
      exact Or.inr (hpassed d hd1 (by rw [hss]; exact hd2))
    · rw [if_neg hss]
      have hrest := ih stop (by omega) (fun _ => hstop)
      obtain ⟨hstop_le, hrest_le⟩ := hrest.stop_le
      refine ⟨⟨h1, by omega, hshort hss, hrest.sections⟩, fun d hd1 hd2 => ?_, ?_,
        by show index ≤ (diffLoop same shortLen longLen budget stop).2; omega, ?_⟩
      · rw [covered_cons]
        by_cases hd : d < start
        · exact Or.inr (hpassed d hd1 hd)
        by_cases hd' : d < stop
        · exact Or.inl (Or.inl ⟨by show start ≤ d; omega, hd'⟩)
        · rcases hrest.covers d (by omega) hd2 with hc | hc
          · exact Or.inl (Or.inr hc)
          · exact Or.inr hc
      · rcases hrest.finished with h | ⟨h, hlength⟩
        · exact Or.inl h
        · exact Or.inr ⟨h, by simp [hlength]⟩
      · exact List.forall_mem_cons.mpr ⟨hstop_le, hrest_le⟩

/-- Sections cover no position before the start. -/
lemma SectionsFrom.le_of_covered (h : SectionsFrom shortLen index diffPos)
    (hc : Covered diffPos d) : index ≤ d := by
  induction diffPos generalizing index with
  | nil => simp [Covered] at hc
  | cons pos rest ih =>
    obtain ⟨h1, h2, _, hrest⟩ := h
    rcases covered_cons.mp hc with hpos | hc
    · exact le_trans h1 hpos.1
    · have := ih hrest hc
      omega

/-- Moving the end of the last section from `stop` to `longLen` covers the rest. -/
lemma extendLast_spec {stop : ℕ} (hlen : stop ≤ longLen) (hne : diffPos ≠ [])
    (hstop : ∀ pos ∈ diffPos, pos.2 ≤ stop) (h : SectionsFrom shortLen index diffPos) :
    SectionsFrom shortLen index (extendLast longLen diffPos) ∧
      ∀ d, Covered diffPos d ∨ (stop ≤ d ∧ d < longLen) →
        Covered (extendLast longLen diffPos) d := by
  induction diffPos generalizing index with
  | nil => exact absurd rfl hne
  | cons pos rest ih =>
    obtain ⟨start, posStop⟩ := pos
    obtain ⟨h1, h2, h3, hrest⟩ := h
    have hle : posStop ≤ stop := hstop (start, posStop) (by simp)
    cases rest with
    | nil =>
      refine ⟨⟨h1, by omega, h3, trivial⟩, fun d hd => ?_⟩
      rw [extendLast, covered_cons]
      rw [covered_cons] at hd
      rcases hd with (⟨hd1, hd2⟩ | hd) | ⟨hd1, hd2⟩
      · exact Or.inl ⟨hd1, by show d < longLen; omega⟩
      · simp [Covered] at hd
      · exact Or.inl ⟨by show start ≤ d; omega, hd2⟩
    | cons pos' rest =>
      have hih := ih (by simp) (fun pos hpos => hstop pos (List.mem_cons_of_mem _ hpos)) hrest
      refine ⟨⟨h1, h2, h3, hih.1⟩, fun d hd => ?_⟩
      rw [extendLast, covered_cons]
      rw [covered_cons] at hd
      rcases hd with (hd | hd) | hd
      · exact Or.inl hd
      · exact Or.inr (hih.2 d (Or.inl hd))
      · exact Or.inr (hih.2 d (Or.inr hd))

/-- Outside the sections of `GetDiffBetweenTuples` the tuples agree. -/
theorem getDiffBetweenTuples_covers (same : ℕ → Bool) (oldLen newLen : ℕ) :
    SectionsFrom (min oldLen newLen) 0 (getDiffBetweenTuples same oldLen newLen) ∧
      ∀ d, d < max oldLen newLen → Covered (getDiffBetweenTuples same oldLen newLen) d ∨
        (d < min oldLen newLen ∧ same d) := by
  have hlen : min oldLen newLen ≤ max oldLen newLen := by omega
  have hfound := diffLoop_found same hlen maxDiffNum 0 (Or.inl (Nat.zero_le _))
    (fun h => absurd h (by decide))
  rw [getDiffBetweenTuples]
  set found := diffLoop same (min oldLen newLen) (max oldLen newLen) maxDiffNum 0
  rcases hfound.finished with hend | ⟨hbudget, hcount⟩
  · rw [if_neg (by omega)]
    exact ⟨hfound.sections, fun d hd => hfound.covers d (Nat.zero_le d) (by omega)⟩
  · rw [if_pos hbudget]
    have hne : found.1 ≠ [] := fun h => by rw [h] at hcount; exact absurd hcount (by decide)
    have hext := extendLast_spec (show found.2 ≤ max oldLen newLen by omega) hne hfound.stop_le.2
      hfound.sections
    refine ⟨hext.1, fun d hd => ?_⟩
    by_cases hd' : d < found.2
    · rcases hfound.covers d (Nat.zero_le d) hd' with hc | hc
      · exact Or.inl (hext.2 d (Or.inl hc))
      · exact Or.inr hc
    · exact Or.inl (hext.2 d (Or.inr ⟨by omega, hd⟩))

/-- Cutting the sections to one tuple loses nothing of that tuple. -/
lemma getTupleDiffPos_spec {tupDataSize : ℕ} (hle : shortLen ≤ tupDataSize)
    (h : SectionsFrom shortLen index diffPos) :
    (∀ pos ∈ getTupleDiffPos tupDataSize diffPos, pos.1 < pos.2 ∧ pos.2 ≤ tupDataSize) ∧
      ∀ d, d < tupDataSize → Covered diffPos d →
        Covered (getTupleDiffPos tupDataSize diffPos) d := by
  induction diffPos generalizing index with
  | nil => exact ⟨fun pos hpos => absurd hpos (by simp [getTupleDiffPos]), fun d _ hc => hc⟩
  | cons pos rest ih =>
    obtain ⟨start, stop⟩ := pos
    obtain ⟨_, h2, h3, hrest⟩ := h
    obtain ⟨hpos, hcov⟩ := ih hrest
    rw [getTupleDiffPos]
    by_cases hclip : stop > tupDataSize
    · rw [if_pos hclip]
      by_cases hempty : tupDataSize = start
      · rw [if_pos hempty]
        refine ⟨fun pos hpos => absurd hpos (by simp), fun d hd hc => ?_⟩
        -- later sections start behind this one
        rcases covered_cons.mp hc with ⟨hd1, _⟩ | hc
        · exact absurd hd1 (by show ¬ start ≤ d; omega)
        · have := hrest.le_of_covered hc
          omega
      · rw [if_neg hempty]
        refine ⟨List.forall_mem_cons.mpr ⟨⟨by show start < tupDataSize; omega, le_rfl⟩, hpos⟩,
          fun d hd hc => ?_⟩
        rw [covered_cons]
        rcases covered_cons.mp hc with ⟨hd1, _⟩ | hc
        · exact Or.inl ⟨hd1, hd⟩
        · exact Or.inr (hcov d hd hc)
    · rw [if_neg hclip]
      refine ⟨List.forall_mem_cons.mpr ⟨⟨h2, by show stop ≤ tupDataSize; omega⟩, hpos⟩,
        fun d hd hc => ?_⟩
      rw [covered_cons]
      rcases covered_cons.mp hc with hd' | hc
      · exact Or.inl hd'
      · exact Or.inr (hcov d hd hc)

/-! ## Undoing an in-place update -/

section Align

variable {m : ByteMem} {off oldLen newLen : ℕ}

/-- Aligned tuples are compared from their ends. -/
lemma alignTupleData_fromEnd (hsize : getTupleSize m off = newLen)
    (hold : d < oldLen - heapDiskTupHeaderSize) (hnew : d < newLen - heapDiskTupHeaderSize) :
    alignTupleData oldLen m off (off + oldLen - 1 - d) = m (off + newLen - 1 - d) := by
  rw [alignTupleData, hsize]
  by_cases hlt : newLen < oldLen
  · rw [if_pos hlt, copy, blit_of_mem (by omega) (by omega)]
    congr 1
    omega
  by_cases hgt : oldLen < newLen
  · rw [if_neg hlt, if_pos hgt, copy, blit_of_mem (by omega) (by omega)]
    congr 1
    omega
  · rw [if_neg hlt, if_neg hgt, show oldLen = newLen by omega]

/-- The alignment moves data bytes only. -/
lemma alignTupleData_sameOutside (hold : heapDiskTupHeaderSize ≤ oldLen)
    (hsize : getTupleSize m off = newLen) (hnew : heapDiskTupHeaderSize ≤ newLen) :
    SameOutside (off + heapDiskTupHeaderSize) (off + max oldLen newLen) m
      (alignTupleData oldLen m off) := by
  rw [alignTupleData, hsize]
  by_cases hlt : newLen < oldLen
  · rw [if_pos hlt]
    exact (sameOutside_blit m _ m _ _).mono (by omega) (by omega)
  by_cases hgt : oldLen < newLen
  · rw [if_neg hlt, if_pos hgt]
    exact (sameOutside_blit m _ m _ _).mono (by omega) (by omega)
  · rw [if_neg hlt, if_neg hgt]
    exact SameOutside.refl _ _ m

end Align

section InplaceUndo

variable {old new m : ByteMem} {off oldLen newLen : ℕ}

/-- The sections of the undo record: not empty, inside the old data, with the old bytes. -/
lemma inplaceDiffs_spec (old new : ByteMem) (off oldLen newLen : ℕ) :
    (∀ diff ∈ inplaceDiffs old off oldLen new newLen,
      diff.start < diff.stop ∧ diff.stop ≤ oldLen - heapDiskTupHeaderSize ∧
      diff.bytes = old.load (off + oldLen - diff.stop) (diff.stop - diff.start)) ∧
    ∀ d, d < oldLen - heapDiskTupHeaderSize →
      (∃ diff ∈ inplaceDiffs old off oldLen new newLen, diff.start ≤ d ∧ d < diff.stop) ∨
      (d < newLen - heapDiskTupHeaderSize ∧ old (off + oldLen - 1 - d) = new (newLen - 1 - d)) := by
  set same : ℕ → Bool := fun i => old (off + oldLen - 1 - i) == new (newLen - 1 - i) with hsame
  obtain ⟨hsections, hcovers⟩ := getDiffBetweenTuples_covers same
    (oldLen - heapDiskTupHeaderSize) (newLen - heapDiskTupHeaderSize)
  obtain ⟨hpos, hcut⟩ := getTupleDiffPos_spec (Nat.min_le_left _ _) hsections
  constructor
  · intro diff hdiff
    obtain ⟨pos, hmem, rfl⟩ := List.mem_map.mp hdiff
    exact ⟨(hpos pos hmem).1, (hpos pos hmem).2, rfl⟩
  · intro d hd
    rcases hcovers d (by omega) with hc | ⟨hd', heq⟩
    · obtain ⟨pos, hmem, hle, hlt⟩ := hcut d hd hc
      exact Or.inl ⟨_, List.mem_map.mpr ⟨pos, hmem, rfl⟩, hle, hlt⟩
    · exact Or.inr ⟨by omega, by simpa [hsame] using heq⟩

/-- The sections are not empty and lie in data of `dataLen` bytes. -/
def DiffsWithin (dataLen : ℕ) (diffs : List DiffSection) : Prop :=
  ∀ diff ∈ diffs, diff.start < diff.stop ∧ diff.stop ≤ dataLen

/-- The sections lie within the data of the tuple. -/
lemma inplaceDiffs_within (old new : ByteMem) (off oldLen newLen : ℕ) :
    DiffsWithin (oldLen - heapDiskTupHeaderSize) (inplaceDiffs old off oldLen new newLen) := by
  intro diff hdiff
  obtain ⟨hlt, hle, _⟩ := (inplaceDiffs_spec old new off oldLen newLen).1 diff hdiff
  exact ⟨hlt, hle⟩

variable {diffs : List DiffSection} (hwithin : DiffsWithin (oldLen - heapDiskTupHeaderSize) diffs)
include hwithin

/-- Applying the sections changes data bytes only. -/
lemma applyDiffs_sameOutside (hold : heapDiskTupHeaderSize ≤ oldLen) (m : ByteMem) :
    SameOutside (off + heapDiskTupHeaderSize) (off + oldLen) m
      (applyDiffs diffs (off + oldLen) m) := by
  apply sameOutside_foldl
  intro diff hdiff m
  obtain ⟨hlt, hle⟩ := hwithin diff hdiff
  exact (sameOutside_blit m _ _ _ _).mono (by omega) (by omega)

/-- The header stays while the data are put back. -/
lemma header_applyDiffs (hold : heapDiskTupHeaderSize ≤ oldLen)
    (hnew : heapDiskTupHeaderSize ≤ getTupleSize m off) :
    header (applyDiffs diffs (off + oldLen) (alignTupleData oldLen m off)) off =
      header m off := by
  apply header_congr
  intro i hi
  rw [applyDiffs_sameOutside hwithin hold _ _ (Or.inl (by omega)),
    alignTupleData_sameOutside hold rfl hnew _ (Or.inl (by omega))]

omit hwithin

/-- Then the header gets the old fields, but for the locker. -/
lemma header_undoActionOnTuple (oldTdId oldInfo : ℕ) (oldXid : Xid) (diffs : List DiffSection) :
    header (undoActionOnTuple oldTdId oldInfo oldLen oldXid diffs m off) off =
      ⟨oldTdId % 256,
        getLockerTdId (applyDiffs diffs (off + oldLen) (alignTupleData oldLen m off))
          off,
        oldLen % 256 ^ 2, oldXid, oldInfo % 256 ^ 4⟩ := by
  rw [undoActionOnTuple, header_setXid, header_setTupleSize,
    header_setInfo, header_setTdId]
  rfl

variable (m off oldLen) in
lemma headerEdit_undoActionOnTuple (oldTdId oldInfo : ℕ) (oldXid : Xid) (diffs : List DiffSection) :
    HeapDiskTuple.HeaderEdit off (applyDiffs diffs (off + oldLen) (alignTupleData oldLen m off))
      (undoActionOnTuple oldTdId oldInfo oldLen oldXid diffs m off) :=
  (((headerEdit_setTdId _ off _).trans (headerEdit_setInfo _ off _)).trans
    (headerEdit_setTupleSize _ off _)).trans (headerEdit_setXid _ off _)

variable (oldTdId oldInfo : ℕ) (oldXid : Xid)

include hwithin in
/-- Nothing outside of the tuple changes. -/
lemma undoActionOnTuple_sameOutside (hold : heapDiskTupHeaderSize ≤ oldLen)
    (hsize : getTupleSize m off = newLen) (hnew : heapDiskTupHeaderSize ≤ newLen) :
    SameOutside off (off + max oldLen newLen) m
      (undoActionOnTuple oldTdId oldInfo oldLen oldXid diffs m off) := by
  have halign := alignTupleData_sameOutside hold hsize hnew
  have hdiffs : SameOutside (off + heapDiskTupHeaderSize) (off + oldLen)
      (alignTupleData oldLen m off)
      (applyDiffs diffs (off + oldLen) (alignTupleData oldLen m off)) :=
    applyDiffs_sameOutside hwithin hold _
  have hheader := headerEdit_undoActionOnTuple m off oldLen oldTdId oldInfo oldXid diffs
  exact ((halign.mono (by omega) (by omega)).trans (hdiffs.mono (by omega) (by omega))).trans
    (hheader.mono (by omega) (by omega))

/-- Undoing an in-place update restores the data. -/
theorem undoActionOnTuple_data (hsize : getTupleSize m off = newLen)
    (htuple : ∀ j, heapDiskTupHeaderSize ≤ j → j < newLen → m (off + j) = new j) {i : ℕ}
    (hi : i < oldLen - heapDiskTupHeaderSize) :
    undoActionOnTuple oldTdId oldInfo oldLen oldXid (inplaceDiffs old off oldLen new newLen) m off
      (off + heapDiskTupHeaderSize + i) = old (off + heapDiskTupHeaderSize + i) := by
  have hheader := headerEdit_undoActionOnTuple m off oldLen oldTdId oldInfo oldXid
    (inplaceDiffs old off oldLen new newLen)
  rw [hheader _ (Or.inr (by omega))]
  obtain ⟨hbytes, hcovers⟩ := inplaceDiffs_spec old new off oldLen newLen
  -- distances are counted from the last byte
  set d := oldLen - 1 - heapDiskTupHeaderSize - i with hd
  have haddr : off + heapDiskTupHeaderSize + i = off + oldLen - 1 - d := by omega
  rw [haddr]
  apply foldl_blit_eq
  · intro diff hdiff j hj
    obtain ⟨_, _, hload⟩ := hbytes diff hdiff
    rw [hload, ofBytes_load hj]
  · rcases hcovers d (by omega) with ⟨diff, hdiff, hle, hlt⟩ | ⟨hnew, heq⟩
    · obtain ⟨_, hstop, _⟩ := hbytes diff hdiff
      exact Or.inr ⟨diff, hdiff, by omega, by omega⟩
    · left
      rw [alignTupleData_fromEnd hsize (by omega) hnew, heq, ← htuple _ (by omega) (by omega)]
      congr 1
      omega

end InplaceUndo

end DStore
