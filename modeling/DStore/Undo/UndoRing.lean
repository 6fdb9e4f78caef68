import DStore.Undo.RecordStream
import DStore.Undo.RingExtend

/-!
# A zone on its ring

The pages of a zone in the order of the ring, from the recycle page on, and the append position as
a position in the stream of their content. Extending the ring and inserting a record keep this
picture: positions once given to a record stay where they are.
-/

namespace DStore

open UndoPages PageStream LinkedRing PageId

/-! ## New pages -/

lemma PageId.plus_plus (p : PageId) (i j : ℕ) : (p.plus i).plus j = p.plus (i + j) := by
  simp only [plus, mk.injEq, true_and]
  rw [UInt32.add_assoc, ← UInt32.ofNat_add]

lemma PageId.plus_succ (p : PageId) (i : ℕ) :
    (⟨(p.plus i).fileId, (p.plus i).blockId + 1⟩ : PageId) = p.plus (i + 1) := by
  rw [← plus_plus]
  rfl

/-- Block numbers do not wrap within an extent. -/
lemma PageId.plus_inj {p : PageId} {i j : ℕ} (hi : i < 2 ^ 32) (hj : j < 2 ^ 32)
    (h : p.plus i = p.plus j) : i = j := by
  have hblock : p.blockId + UInt32.ofNat i = p.blockId + UInt32.ofNat j :=
    congrArg blockId h
  have hnat := congrArg UInt32.toNat (UInt32.add_right_inj _ |>.mp hblock)
  rwa [UInt32.toNat_ofNat', UInt32.toNat_ofNat', Nat.mod_eq_of_lt hi, Nat.mod_eq_of_lt hj] at hnat

/-- The pages of an extent are distinct. -/
lemma extentPage_injOn (firstPageId : PageId) :
    Set.InjOn (extentPage firstPageId) (Set.Iio (undoZoneExtentSize - 1)) := by
  intro i hi j hj h
  have hi' : i < 127 := hi
  have hj' : j < 127 := hj
  exact plus_inj (by omega) (by omega) h

/-- The pages the loop has put into the ring. -/
lemma putNewPagesLoop_new {firstFreePageId next prevPageId : PageId} {readOk : ℕ → Bool}
    {left i j : ℕ} {st : RingWrite} (hbound : i + left ≤ 2 ^ 32)
    (hread : ∀ j, i ≤ j → j < i + left → readOk j) (hij : i ≤ j) (hj : j < i + left) :
    (putNewPagesLoop firstFreePageId next readOk left i prevPageId st).1.pages
        (firstFreePageId.plus j) =
      ⟨{ version := 0
         cur := firstFreePageId.plus j
         prev := if j = i then prevPageId else firstFreePageId.plus (j - 1)
         next := if j + 1 = i + left then next else firstFreePageId.plus (j + 1) },
        fun _ => 0⟩ := by
  induction left generalizing i prevPageId st with
  | zero => omega
  | succ left ih =>
    unfold putNewPagesLoop
    rw [if_neg (by rw [hread i (Nat.le_refl i) (by omega)]; decide)]
    dsimp only
    rcases Nat.eq_or_lt_of_le hij with rfl | hlt
    · -- the pages after this one are other pages
      rw [putNewPagesLoop_spec.2.1 _ fun k hk hk' heq => by
        have := plus_inj (by omega) (by omega) heq
        omega]
      rw [if_pos rfl, plus_succ]
      have hlast : left = 0 ↔ i + 1 = i + (left + 1) := by omega
      simp only [hlast]
      exact Function.update_self _ _ _
    · rw [ih (by omega) (fun k hk hk' => hread k (by omega) (by omega)) hlt (by omega),
        if_neg (show ¬ j = i by omega)]
      have hnext : j + 1 = i + 1 + left ↔ j + 1 = i + (left + 1) := by omega
      simp only [hnext]
      rcases Nat.eq_or_lt_of_le hlt with heq | hgt
      · rw [if_pos heq.symm, show j - 1 = i by omega]
      · rw [if_neg (by omega)]

section Extended

variable {prevPageId firstPageId : PageId} {readOk : ℕ → Bool} {pages : UndoPages}

/-- The pages after an extension on an extent, behind `prevPageId`. -/
def extendedPages (prevPageId firstPageId : PageId) (readOk : ℕ → Bool) (pages : UndoPages) :
    UndoPages :=
  (extendUndoPageRing prevPageId (firstPageId.plus 1) (firstPageId.plus (undoZoneExtentSize - 1))
    readOk ⟨pages, []⟩).1.pages

variable (hread : ∀ i, i < undoZoneExtentSize + 1 → readOk i = true)
include hread

lemma extendedPages_eq :
    extendedPages prevPageId firstPageId readOk pages =
      (putNewPagesIntoRing prevPageId (firstPageId.plus 1) (pages.next prevPageId)
        (fun i => readOk (i + 2))
        { pages := (pages.setNext prevPageId (firstPageId.plus 1)).setPrev (pages.next prevPageId)
            (firstPageId.plus (undoZoneExtentSize - 1))
          wal := [.extendPageRingPrevPage prevPageId (firstPageId.plus 1),
            .extendPageRingNextPage (pages.next prevPageId)
              (firstPageId.plus (undoZoneExtentSize - 1))] }).1.pages := by
  unfold extendedPages extendUndoPageRing
  rw [hread 0 (by decide), hread 1 (by decide), if_neg (by decide), if_neg (by decide)]
  rfl

/-- Pages outside the extent keep all but one link. -/
lemma extendedPages_of_ne {p : PageId}
    (hp : ∀ j, j < undoZoneExtentSize - 1 → p ≠ extentPage firstPageId j) :
    extendedPages prevPageId firstPageId readOk pages p =
      ((pages.setNext prevPageId (firstPageId.plus 1)).setPrev (pages.next prevPageId)
        (firstPageId.plus (undoZoneExtentSize - 1))) p := by
  rw [extendedPages_eq hread, putNewPagesIntoRing_of_ne hp]

/-- The pages of the extent are linked one behind another. -/
lemma extendedPages_new {j : ℕ} (hj : j < undoZoneExtentSize - 1) :
    extendedPages prevPageId firstPageId readOk pages (extentPage firstPageId j) =
      ⟨{ version := 0
         cur := extentPage firstPageId j
         prev := if j = 0 then prevPageId else extentPage firstPageId (j - 1)
         next := if j + 1 = undoZoneExtentSize - 1 then pages.next prevPageId
          else extentPage firstPageId (j + 1) },
        fun _ => 0⟩ := by
  have hzero : undoZoneExtentSize - 1 = 0 + (undoZoneExtentSize - 1) := (Nat.zero_add _).symm
  rw [extendedPages_eq hread, putNewPagesIntoRing, extentPage,
    putNewPagesLoop_new (by decide) (fun k _ hk => hread (k + 2) ?_) (Nat.zero_le j) ?_]
  · rw [← hzero]
    rfl
  · rwa [← hzero]
  · simp only [undoZoneExtentSize_eq] at hk ⊢
    omega

/-- The ring after an extension behind page `chain k`. -/
lemma extendedPages_ring {chain : ℕ → PageId} {lo hi k : ℕ}
    (h : LinkedRing pages.next pages.prev chain lo hi) (hlo : lo ≤ k) (hk : k < hi)
    (hfresh : ∀ i, lo ≤ i → i < hi → ∀ j, j < undoZoneExtentSize - 1 →
      chain i ≠ extentPage firstPageId j) :
    LinkedRing (extendedPages (chain k) firstPageId readOk pages).next
      (extendedPages (chain k) firstPageId readOk pages).prev
      (insert chain k (undoZoneExtentSize - 1) (extentPage firstPageId)) lo
      (hi + (undoZoneExtentSize - 1)) := by
  set pages' := extendedPages (chain k) firstPageId readOk pages with hpages'
  have hlink := h.next_eq k hlo hk
  have hold : ∀ i, lo ≤ i → i < hi → pages' (chain i) =
      ((pages.setNext (chain k) (firstPageId.plus 1)).setPrev (chain (k + 1))
        (firstPageId.plus (undoZoneExtentSize - 1))) (chain i) := by
    intro i hilo hihi
    rw [hpages', extendedPages_of_ne hread (hfresh i hilo hihi), hlink]
  have hnext : ∀ i, lo ≤ i → i < hi → pages'.next (chain i) =
      (pages.setNext (chain k) (firstPageId.plus 1)).next (chain i) := by
    intro i hilo hihi
    rw [next, hold i hilo hihi]
    exact next_setPrev
  have hprev : ∀ i, lo ≤ i → i < hi → pages'.prev (chain i) =
      (pages.setPrev (chain (k + 1)) (firstPageId.plus (undoZoneExtentSize - 1))).prev
        (chain i) := by
    intro i hilo hihi
    rw [prev, hold i hilo hihi]
    show ((pages.setNext _ _).setPrev _ _).prev (chain i) = _
    rw [prev_setPrev, prev_setPrev, prev_setNext]
  have hprevSucc : ∀ i, lo ≤ i → i < hi → pages'.prev (chain (i + 1)) =
      (pages.setPrev (chain (k + 1)) (firstPageId.plus (undoZoneExtentSize - 1))).prev
        (chain (i + 1)) := by
    intro i hilo hihi
    obtain ⟨j, hjlo, hjhi, hj⟩ := h.mem_of_le (show lo ≤ i + 1 by omega) hihi
    rw [← hj]
    exact hprev j hjlo hjhi
  refine h.insertAfter (by decide) hlo hk hfresh (extentPage_injOn firstPageId) ?_ ?_ ?_ ?_ ?_ ?_
  · rw [hnext k hlo hk, next_setNext, if_pos rfl, extentPage, plus_plus]
  · rw [hprevSucc k hlo hk, prev_setPrev, if_pos rfl, extentPage, plus_plus]
    rfl
  · intro i hilo hihi hne
    rw [hnext i hilo hihi, next_setNext, if_neg fun heq =>
      hne (h.inj ⟨hilo, hihi⟩ ⟨hlo, hk⟩ heq)]
  · intro i hilo hihi hne
    rw [hprevSucc i hilo hihi, prev_setPrev, if_neg fun heq =>
      hne (h.succ_inj hilo hihi hlo hk heq)]
  · intro j hj
    rw [next, hpages', extendedPages_new hread hj, hlink]
  · intro j hj
    rw [prev, hpages', extendedPages_new hread hj]

end Extended

/-! ## The zone -/

/-- The pages from the recycle page on are `chain lo`, …, `chain (hi - 1)`, and the append pointer
is position `tail` of their content. -/
structure UndoZone.Layout (zone : UndoZone) (chain : ℕ → PageId) (lo hi tail : ℕ) : Prop where
  ring : LinkedRing zone.pages.next zone.pages.prev chain lo hi
  recycle : zone.undoRecyclePageId = chain lo
  append : At 64 8128 chain lo zone.nextAppendUndoPtr.pageId
    zone.nextAppendUndoPtr.offset.toNat tail

/-- Between calls: the byte at the append position is on a page of the ring, and the page to check
is the one after that. -/
structure UndoZone.OnRing (zone : UndoZone) (chain : ℕ → PageId) (lo hi tail : ℕ) : Prop extends
    zone.Layout chain lo hi tail where
  room : tail / 8128 < hi
  needCheck : zone.needCheckPageId = chain (tail / 8128 + 1)

/-- After `ExtendSpaceIfNeeded`: there is one more page before the recycle page. -/
structure UndoZone.Ready (zone : UndoZone) (chain : ℕ → PageId) (lo hi tail : ℕ) : Prop extends
    zone.Layout chain lo hi tail where
  room : tail / 8128 + 1 < hi
  needCheck : zone.nextAppendUndoPtr.offset.toNat < 8192 →
    zone.needCheckPageId = chain (tail / 8128 + 1)

section Zone

variable {zone : UndoZone} {chain : ℕ → PageId} {lo hi tail : ℕ}

/-- The tail lies behind the start of the chain. -/
lemma UndoZone.Layout.lo_le (h : zone.Layout chain lo hi tail) : lo ≤ tail / 8128 := by
  obtain ⟨k, hlo, -, hlow, hhigh, hx⟩ := h.append
  omega

section

variable (h : zone.OnRing chain lo hi tail)
include h

/-- The check for a full ring compares the tail with the end of the chain. -/
lemma UndoZone.OnRing.needCheck_ne_iff :
    zone.needCheckPageId ≠ zone.undoRecyclePageId ↔ tail / 8128 + 1 < hi := by
  rw [h.needCheck, h.recycle, ne_eq, h.ring.succ_eq_first_iff h.lo_le h.room]
  have := h.room
  omega

/-- A ring that is not full is ready for an insert. -/
lemma UndoZone.OnRing.ready
    (hne : zone.needCheckPageId ≠ zone.undoRecyclePageId) : zone.Ready chain lo hi tail where
  toLayout := h.toLayout
  room := h.needCheck_ne_iff.mp hne
  needCheck _ := h.needCheck

/-- What a successful `ExtendSpaceIfNeeded` does to a zone: room for a record, and all bytes up to
the append position where they were. -/
structure ExtendSpec (chain chain' : ℕ → PageId) (lo hi hi' tail : ℕ) (zone zone' : UndoZone)
    (firstPageId : PageId) : Prop where
  ready : zone'.Ready chain' lo hi' tail
  append : zone'.nextAppendUndoPtr = zone.nextAppendUndoPtr
  kept : ∀ i, i * 8128 < tail → chain' i = chain i
  keptAppend : zone.nextAppendUndoPtr.offset.toNat < 8192 →
    chain' (tail / 8128) = chain (tail / 8128)
  mem : ∀ i, lo ≤ i → i < hi → zone'.pages.mem (chain i) = zone.pages.mem (chain i)
  pages : ∀ i, lo ≤ i → i < hi' → (∃ j, lo ≤ j ∧ j < hi ∧ chain' i = chain j) ∨
    ∃ j, j < undoZoneExtentSize - 1 ∧ chain' i = extentPage firstPageId j

/-- It needs no extension. -/
lemma UndoZone.OnRing.extendSpec_self
    (hne : zone.needCheckPageId ≠ zone.undoRecyclePageId) (firstPageId : PageId) :
    ExtendSpec chain chain lo hi hi tail zone zone firstPageId where
  ready := h.ready hne
  append := rfl
  kept _ _ := rfl
  keptAppend _ := rfl
  mem _ _ _ := rfl
  pages i hlo hhi := Or.inl ⟨i, hlo, hhi, rfl⟩

section

variable {env : ExtendEnv} {firstPageId : PageId} (hextent : env.extent = some firstPageId)
  (hread : ∀ i, i < undoZoneExtentSize + 1 → env.readOk i)
  (hfresh : ∀ i, lo ≤ i → i < hi → ∀ j, j < undoZoneExtentSize - 1 →
    chain i ≠ extentPage firstPageId j)
include hextent hread hfresh

/-- A successful extension puts the new pages between the append page and the recycle page. -/
lemma UndoZone.OnRing.extend (hneed : zone.needCheckPageId = zone.undoRecyclePageId) :
    ∃ zone' wal chain', zone.extendSpaceIfNeeded env = ⟨zone', wal, true⟩ ∧
      ExtendSpec chain chain' lo hi (hi + (undoZoneExtentSize - 1)) tail zone zone'
        firstPageId := by
  obtain ⟨k, hlo, hpage, hlow, hhigh, hx⟩ := h.append
  have hroom := h.room
  have hk : k < hi := by omega
  have hlast : tail / 8128 + 1 = hi := by
    by_contra hne
    exact h.needCheck_ne_iff.mpr (by omega) hneed
  have hresult := extendSpaceIfNeeded_of_some hneed hextent
  dsimp only at hresult
  rw [if_pos (extendUndoPageRing_spec.1.mpr hread)] at hresult
  have hring := extendedPages_ring hread h.ring hlo hk hfresh
  rw [← hpage] at hring
  refine ⟨_, _, insert chain k (undoZoneExtentSize - 1) (extentPage firstPageId),
    hresult, ⟨⟨⟨hring, ?_, ?_⟩, ?_, ?_⟩, rfl, ?_, ?_, ?_, ?_⟩⟩
  · rw [insert_of_le hlo]
    exact h.recycle
  · exact ⟨k, hlo, by rw [insert_of_le (Nat.le_refl k)]; exact hpage, hlow, hhigh, hx⟩
  · simp only [undoZoneExtentSize_eq]
    omega
  · intro hoff
    have hoff' : zone.nextAppendUndoPtr.offset.toNat < 8192 := hoff
    have hzero : insert chain k (undoZoneExtentSize - 1) (extentPage firstPageId)
        (k + 1 + 0) = extentPage firstPageId 0 := insert_new (by decide)
    rw [show tail / 8128 = k by omega, ← Nat.add_zero (k + 1), hzero, extentPage,
      plus_plus]
  · intro i hi'
    exact insert_of_le (by omega)
  · intro hoff
    exact insert_of_le (by omega)
  · intro i hilo hihi
    show (extendedPages _ _ _ _ (chain i)).data = zone.pages.mem (chain i)
    rw [extendedPages_of_ne hread (hfresh i hilo hihi)]
    show mem ((zone.pages.setNext _ _).setPrev _ _) (chain i) = _
    rw [mem_setPrev, mem_setNext]
  · intro i hilo hihi
    rcases insert_old_or_new hlo hk hilo hihi with
      ⟨j, hjlo, hjhi, hj, -⟩ | ⟨j, hjm, hj, -⟩
    · exact Or.inl ⟨j, hjlo, hjhi, hj⟩
    · exact Or.inr ⟨j, hjm, hj⟩

/-- After the call there is room for an insert. -/
lemma UndoZone.OnRing.extendIfNeeded :
    ∃ zone' wal chain' hi', zone.extendSpaceIfNeeded env = ⟨zone', wal, true⟩ ∧
      ExtendSpec chain chain' lo hi hi' tail zone zone' firstPageId := by
  by_cases hneed : zone.needCheckPageId = zone.undoRecyclePageId
  · obtain ⟨zone', wal, chain', hextend, hspec⟩ := h.extend hextent hread hfresh hneed
    exact ⟨zone', wal, chain', _, hextend, hspec⟩
  · exact ⟨zone, [], chain, hi, extendSpaceIfNeeded_of_ne hneed,
      h.extendSpec_self hneed firstPageId⟩

end

end

/-- The extension moves none of the bytes in use. -/
lemma ExtendSpec.byte_eq {chain' : ℕ → PageId} {hi' : ℕ} {zone' : UndoZone} {firstPageId : PageId}
    (h : ExtendSpec chain chain' lo hi hi' tail zone zone' firstPageId) (hroom : tail / 8128 < hi)
    {x : ℕ} (hlo : lo * 8128 ≤ x) (hx : x < tail) :
    byte 64 8128 chain' zone'.pages.mem x =
      byte 64 8128 chain zone.pages.mem x := by
  unfold byte
  rw [h.kept (x / 8128) (by omega), h.mem (x / 8128) (by omega) (by omega)]

/-! ## Inserting a record -/

/-- The pointer to a position. -/
def streamPtr (chain : ℕ → PageId) (x : ℕ) : UndoRecPtr :=
  ⟨chain (x / 8128), UInt16.ofNat (64 + x % 8128)⟩

lemma streamPtr_offset (chain : ℕ → PageId) (x : ℕ) :
    (streamPtr chain x).offset.toNat = 64 + x % 8128 := by
  rw [streamPtr, UInt16.toNat_ofNat', Nat.mod_eq_of_lt (by omega)]

/-- The pointer of a position names its page and offset. -/
lemma streamPtr_at {x : ℕ} (hlo : lo ≤ x / 8128) :
    At 64 8128 chain lo (streamPtr chain x).pageId (streamPtr chain x).offset.toNat
      x := by
  rw [streamPtr_offset]
  exact at_self (by decide) hlo

/-- What `InsertUndoRecord` does to a zone that is ready for the record. -/
structure InsertSpec (chain : ℕ → PageId) (lo hi tail : ℕ) (zone : UndoZone)
    (record : RawUndoRecord) (env : InsertEnv) (result : InsertResult) : Prop where
  within : WritesWithin chain zone.pages result.zone.pages tail record.getRecordSize
  recycle : result.zone.undoRecyclePageId = zone.undoRecyclePageId
  ranges : ∀ p off, InRanges result.written p off →
    ∃ i, i < record.getRecordSize ∧ cell 64 8128 chain (tail + i) = (p, off)
  ending :
    (result.undoRecPtr = zone.nextAppendUndoPtr ∧
      Puts 64 8128 chain zone.pages.mem result.zone.pages.mem tail
        (record.stored env.context) ∧
      result.zone.OnRing chain lo hi (tail + record.getRecordSize) ∧
      result.zone.nextAppendUndoPtr = streamPtr chain (tail + record.getRecordSize)) ∨
    ((env.pageOk = false ∨ ∃ i, env.walOk i = false) ∧ result.undoRecPtr = invalidUndoRecPtr ∧
      result.zone.nextAppendUndoPtr = zone.nextAppendUndoPtr ∧
      result.zone.needCheckPageId = zone.needCheckPageId)

lemma getRecordSize_pos (record : RawUndoRecord) : 0 < record.getRecordSize := by
  rw [RawUndoRecord.getRecordSize]
  omega

/-- A write behind the tail changes none of the bytes in use. -/
lemma WritesWithin.byte_eq {pages pages' : UndoPages} {n x : ℕ}
    (h : WritesWithin chain pages pages' tail n) (hinj : Set.InjOn chain (Set.Ico lo hi))
    (hroom : (tail + n) / 8128 < hi) (hlo : lo * 8128 ≤ x) (hx : x < tail) :
    byte 64 8128 chain pages'.mem x = byte 64 8128 chain pages.mem x := by
  refine h.frame _ _ fun i hi' hcell => ?_
  have := eq_of_cell_eq hinj (x := tail + i) (y := x) ⟨by omega, by omega⟩
    ⟨by omega, by omega⟩ hcell
  omega

/-- Writes leave the links. -/
lemma WritesWithin.ring {pages pages' : UndoPages} {x n : ℕ}
    (h : WritesWithin chain pages pages' x n)
    (hring : LinkedRing pages.next pages.prev chain lo hi) :
    LinkedRing pages'.next pages'.prev chain lo hi :=
  hring.congr (fun _ _ _ => h.next _) (fun _ _ _ => h.prev _)

/-- The insert writes the record at the tail. -/
lemma UndoZone.Ready.insert (h : zone.Ready chain lo hi tail) {record : RawUndoRecord}
    (hsize : record.getRecordSize ≤ undoRecordPageMaxFreeSpace) (env : InsertEnv) :
    ∃ result, zone.insertUndoRecord record env = some result ∧
      InsertSpec chain lo hi tail zone record env result := by
  rw [undoRecordPageMaxFreeSpace_eq] at hsize
  have hroom := h.room
  have hlength : (record.stored env.context).length = record.getRecordSize := length_stored
  have hpos := getRecordSize_pos record
  unfold UndoZone.insertUndoRecord
  by_cases hok : env.pageOk = false
  · rw [if_pos hok]
    exact ⟨_, rfl, WritesWithin.refl _ _ _, rfl, fun p off ⟨r, hr, _⟩ => absurd hr List.not_mem_nil,
      Or.inr ⟨Or.inl hok, rfl, rfl, rfl⟩⟩
  rw [if_neg hok]
  obtain ⟨k, hlo, hpage, hlow, hhigh, hx⟩ := h.append
  refine Exists.imp (fun result hresult => ⟨hpage ▸ hresult.1, ?_⟩)
    (insertLoop_spec rfl h.ring.inj (fun j hjlo hjhi => h.ring.next_eq j hjlo hjhi)
      hlo hx hlow hhigh
      (w := 0) (by omega) (by omega) hpage (by omega) (by split_ifs <;> omega))
  have hloop := hresult.2
  rw [List.drop_zero] at hloop
  have hwithin := hloop.within
  rw [hlength] at hwithin
  refine ⟨hwithin, hloop.recycle, fun p off hin => ?_, ?_⟩
  · rcases hloop.ranges p off hin with ⟨r, hr, -⟩ | hcell
    · exact absurd hr List.not_mem_nil
    · rwa [hlength] at hcell
  · rcases hloop.ending with ⟨hptr, hputs, hnext, hcheck⟩ | ⟨hwal, hptr, hnext, hcheck⟩
    · rw [hlength] at hnext hcheck
      have hnext' : result.zone.nextAppendUndoPtr =
          streamPtr chain (tail + record.getRecordSize) := hnext
      have hend : lo ≤ (tail + record.getRecordSize) / 8128 :=
        Nat.le_trans h.lo_le (Nat.div_le_div_right (Nat.le_add_right _ _))
      refine Or.inl ⟨hptr, hputs, ⟨⟨hwithin.ring h.ring, ?_, ?_⟩, by omega, ?_⟩, hnext'⟩
      · rw [hloop.recycle, h.recycle]
      · rw [hnext']
        exact streamPtr_at hend
      · rw [hcheck]
        split_ifs with hsame
        · rw [h.needCheck (by omega), show tail / 8128 = (tail + record.getRecordSize) / 8128 by
            omega]
        · rfl
    · exact Or.inr ⟨Or.inr hwal, hptr, hnext, hcheck⟩

end Zone

end DStore
