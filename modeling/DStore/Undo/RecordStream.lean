import DStore.Undo.RecordSpace

/-!
# The record space as a stream

With `chain` the pages along the ring, the content of the pages is one stream, and writing a
record, reading it and stepping over it are operations on positions in the stream.
-/

namespace DStore

open PageStream ByteMem List UndoRecordHeader UndoPages RawUndoRecord

/-! ## Writing the parts of a record -/

section Write

variable {src bs cs : List UInt8} {segments : List (List UInt8)} {st : UndoWrite} {m : ByteMem}
  {dst w n : ℕ}

/-- Two copies side by side are one. -/
lemma blit_append {k : ℕ} (hw : w + n = bs.length) :
    (m.blit dst (ofBytes bs) w n).blit (dst + n) (ofBytes cs) 0 k =
      m.blit dst (ofBytes (bs ++ cs)) w (n + k) := by
  funext a
  unfold blit ofBytes
  rcases Nat.lt_or_ge a dst with h1 | h1
  · rw [if_neg (by omega), if_neg (by omega), if_neg (by omega)]
  rcases Nat.lt_or_ge a (dst + n) with h2 | h2
  · rw [if_neg (by omega), if_pos (by omega), if_pos (by omega), getD_append _ _ _ _ (by omega)]
  rcases Nat.lt_or_ge a (dst + n + k) with h3 | h3
  · rw [if_pos (by omega), if_pos (by omega), getD_append_right _ _ _ _ (by omega)]
    congr 1
    omega
  · rw [if_neg (by omega), if_neg (by omega), if_neg (by omega)]

lemma blit_ofBytes_append_left (hw : w + n ≤ bs.length) :
    m.blit dst (ofBytes (bs ++ cs)) w n = m.blit dst (ofBytes bs) w n := by
  funext a
  unfold blit ofBytes
  split_ifs with h
  · rw [getD_append _ _ _ _ (by omega)]
  · rfl

lemma blit_ofBytes_append_right (hw : bs.length ≤ w) :
    m.blit dst (ofBytes (bs ++ cs)) w n =
      m.blit dst (ofBytes cs) (w - bs.length) n := by
  funext a
  unfold blit ofBytes
  split_ifs with h
  · rw [getD_append_right _ _ _ _ (by omega)]
    congr 1
    omega
  · rfl

lemma blit_zero {src : ByteMem} {off : ℕ} : m.blit dst src off 0 = m := by
  funext a
  exact blit_of_not_mem (by omega)

/-- As much of the bytes as fits on the page is written, from where the last page stopped. -/
lemma insertSegments_spec (hroom : st.writePtr ≤ 8192)
    (hw : st.myBytesWritten ≤ segments.flatten.length) :
    (insertSegments segments st).1.page =
        st.page.blit st.writePtr (ofBytes segments.flatten) st.myBytesWritten
          (min (segments.flatten.length - st.myBytesWritten) (8192 - st.writePtr)) ∧
      (insertSegments segments st).1.alreadyWritten = st.alreadyWritten +
        min (segments.flatten.length - st.myBytesWritten) (8192 - st.writePtr) ∧
      ((insertSegments segments st).2 ↔
        segments.flatten.length - st.myBytesWritten ≤ 8192 - st.writePtr) := by
  induction segments generalizing st with
  | nil =>
    simp only [flatten_nil, length_nil, Nat.zero_sub, Nat.zero_min] at hw ⊢
    refine ⟨blit_zero.symm, rfl, iff_of_true rfl (Nat.zero_le _)⟩
  | cons src rest ih =>
    rw [flatten_cons, length_append] at hw ⊢
    unfold insertSegments insertUndoBytes
    by_cases hdone : src.length ≤ st.myBytesWritten
    · -- this part is on the pages before
      rw [if_pos hdone]
      have hrest := @ih { st with myBytesWritten := st.myBytesWritten - src.length } hroom
        (by dsimp only; omega)
      dsimp only at hrest ⊢
      rw [blit_ofBytes_append_right hdone]
      rwa [show rest.flatten.length - (st.myBytesWritten - src.length) =
        src.length + rest.flatten.length - st.myBytesWritten by omega] at hrest
    rw [if_neg hdone]
    dsimp only
    by_cases hfull : min (src.length - st.myBytesWritten) (8192 - st.writePtr) = 0
    · rw [if_pos hfull]
      dsimp only
      have hzero : min (src.length + rest.flatten.length - st.myBytesWritten)
          (8192 - st.writePtr) = 0 := by omega
      rw [hzero, blit_zero]
      exact ⟨rfl, rfl, iff_of_false Bool.false_ne_true (by omega)⟩
    rw [if_neg hfull]
    by_cases hpart : min (src.length - st.myBytesWritten) (8192 - st.writePtr) =
        src.length - st.myBytesWritten
    · -- the part is finished, the next one starts behind it
      rw [hpart, beq_self_eq_true]
      dsimp only
      have hrest := @ih ⟨st.page.blit st.writePtr (ofBytes src) st.myBytesWritten
          (src.length - st.myBytesWritten), st.writePtr + (src.length - st.myBytesWritten), 0,
          st.alreadyWritten + (src.length - st.myBytesWritten)⟩
        (by dsimp only; omega) (Nat.zero_le _)
      dsimp only at hrest
      obtain ⟨hpage, hwritten, hfinish⟩ := hrest
      refine ⟨?_, ?_, ?_⟩
      · rw [hpage, blit_append (by omega)]
        congr 1
        omega
      · rw [hwritten]
        omega
      · rw [hfinish]
        omega
    · -- the page ends inside the part
      rw [beq_eq_false_iff_ne.mpr hpart]
      dsimp only
      have hmin : min (src.length - st.myBytesWritten) (8192 - st.writePtr) =
          min (src.length + rest.flatten.length - st.myBytesWritten) (8192 - st.writePtr) := by
        omega
      rw [hmin, blit_ofBytes_append_left (by omega)]
      exact ⟨rfl, rfl, iff_of_false Bool.false_ne_true (by omega)⟩

/-- A copy writes a piece of the bytes. -/
lemma blit_eq_take_drop (hn : w + n ≤ bs.length) :
    m.blit dst (ofBytes bs) w n =
      m.blit dst (ofBytes ((bs.drop w).take n)) 0 ((bs.drop w).take n).length := by
  have hlength : ((bs.drop w).take n).length = n := by
    rw [length_take, length_drop]
    omega
  funext a
  unfold blit ofBytes
  rw [hlength]
  split_ifs with h
  · simp only [getD_eq_getElem?_getD]
    rw [getElem?_take_of_lt (by omega), getElem?_drop, Nat.zero_add]
  · rfl

end Write

/-! ## Inserting a record -/

section Insert

/-- A byte is in one of the ranges. -/
def InRanges (ranges : List ByteRange) (p : PageId) (off : ℕ) : Prop :=
  ∃ r ∈ ranges, r.pageId = p ∧ r.offset ≤ off ∧ off < r.offset + r.size

/-- What the pages keep when the bytes from position `x` on to `x + n` are written: the links, and
all bytes outside. -/
structure WritesWithin (chain : ℕ → PageId) (pages pages' : UndoPages) (x n : ℕ) : Prop where
  header : ∀ p, (pages' p).header = (pages p).header
  frame : ∀ p off, (∀ i, i < n → cell 64 8128 chain (x + i) ≠ (p, off)) →
    pages'.mem p off = pages.mem p off

lemma WritesWithin.refl {chain : ℕ → PageId} (pages : UndoPages) (x n : ℕ) :
    WritesWithin chain pages pages x n := ⟨fun _ => rfl, fun _ _ _ => rfl⟩

section

variable {chain : ℕ → PageId} {pages pages' : UndoPages} {x n : ℕ}
    (h : WritesWithin chain pages pages' x n) (p : PageId)
include h p

lemma WritesWithin.next : pages'.next p = pages.next p := by
  unfold UndoPages.next
  rw [h.header]

lemma WritesWithin.prev : pages'.prev p = pages.prev p := by
  unfold UndoPages.prev
  rw [h.header]

end

variable {chain : ℕ → PageId} {lo hi : ℕ} {record : RawUndoRecord} {env : InsertEnv}
  {recPtr : UndoRecPtr} {checkPageId : PageId}


variable {fuel n : ℕ} {p : PageId} {result : InsertResult} {ptr : UndoRecPtr}
/-- How the loop ends for the rest of a record, `bs`, at position `x` on page `chain k`. -/
structure LoopSpec (chain : ℕ → PageId) (env : InsertEnv) (recPtr : UndoRecPtr)
    (checkPageId : PageId) (k x : ℕ) (bs : List UInt8) (zone : UndoZone)
    (written : List ByteRange) (result : InsertResult) : Prop where
  within : WritesWithin chain zone.pages result.zone.pages x bs.length
  recycle : result.zone.undoRecyclePageId = zone.undoRecyclePageId
  ranges : ∀ p off, InRanges result.written p off → InRanges written p off ∨
    ∃ i, i < bs.length ∧ cell 64 8128 chain (x + i) = (p, off)
  ending :
    (result.undoRecPtr = recPtr ∧
      Puts 64 8128 chain zone.pages.mem result.zone.pages.mem x bs ∧
      result.zone.nextAppendUndoPtr = ⟨chain ((x + bs.length) / 8128),
        UInt16.ofNat (64 + (x + bs.length) % 8128)⟩ ∧
      result.zone.needCheckPageId =
        if (x + bs.length) / 8128 = k then zone.needCheckPageId
        else chain ((x + bs.length) / 8128 + 1)) ∨
    ((∃ i, env.walOk i = false) ∧ result.undoRecPtr = invalidUndoRecPtr ∧
      result.zone.nextAppendUndoPtr = recPtr ∧ result.zone.needCheckPageId = checkPageId)

/-- The zone with the part of a record that fits on page `curId` written there. -/
def writtenZone (record : RawUndoRecord) (env : InsertEnv) (zone : UndoZone) (curId : PageId)
    (startingByte alreadyCopyPre : ℕ) : UndoZone :=
  { zone with
    pages := Function.update zone.pages curId
      { zone.pages curId with
        data := (writeUndoRecord (record.segments env.context) (zone.pages.mem curId)
          startingByte alreadyCopyPre).1.page } }

section Page

variable {zone : UndoZone} {k off w x : ℕ}

lemma writtenZone_header (curId p : PageId) :
    ((writtenZone record env zone curId off w).pages p).header = (zone.pages p).header :=
  apply_update_of_eq UndoRecordPage.header rfl

lemma writtenZone_next (curId p : PageId) :
    (writtenZone record env zone curId off w).pages.next p = zone.pages.next p := by
  unfold UndoPages.next
  rw [writtenZone_header]

lemma writtenZone_mem (curId : PageId) :
    (writtenZone record env zone curId off w).pages.mem =
      Function.update zone.pages.mem curId
        (writeUndoRecord (record.segments env.context) (zone.pages.mem curId) off w).1.page :=
  funext (Function.apply_update (fun _ => UndoRecordPage.data) zone.pages curId _)

/-- A write within one page is a write into the stream. -/
lemma inRanges_page {written : List ByteRange} (hx : x + 64 = k * 8128 + off) (hlow : 64 ≤ off)
    (hroom : off + n ≤ 8192) {o : ℕ} (h : InRanges (written ++ [⟨chain k, off, n⟩]) p o) :
    InRanges written p o ∨
      ∃ i, i < n ∧ cell 64 8128 chain (x + i) = (p, o) := by
  obtain ⟨r, hr, hp, hlo, hhi⟩ := h
  rcases mem_append.mp hr with hold | hnew
  · exact Or.inl ⟨r, hold, hp, hlo, hhi⟩
  · obtain rfl := mem_singleton.mp hnew
    dsimp only at hp hlo hhi
    subst hp
    refine Or.inr ⟨o - off, by omega, ?_⟩
    rw [cell_of_eq (k := k) (i := o - 64) (by omega) (by omega),
      show 64 + (o - 64) = o by omega]

section Rest

-- the rest of the record, from byte `w` on, goes to offset `off` of page `chain k`
variable {n : ℕ} {bs : List UInt8} {written : List ByteRange}
  (hbs : record.stored env.context = bs) (hx : x + 64 = k * 8128 + off) (hlow : 64 ≤ off)
  (hhigh : off ≤ 8192) (hw : w ≤ bs.length)
include hbs hx hlow hhigh hw

variable (chain zone) in
/-- Writing one page puts its piece of the record into the stream. -/
lemma writtenZone_puts :
    Puts 64 8128 chain zone.pages.mem (writtenZone record env zone (chain k) off w).pages.mem x
      ((bs.drop w).take
        (min (bs.length - w) (8192 - off))) := by
  subst hbs
  unfold stored at hw ⊢
  rw [writtenZone_mem, writeUndoRecord, (@insertSegments_spec _ ⟨_, off, w, w⟩ hhigh hw).1]
  dsimp only
  rw [blit_eq_take_drop (by omega)]
  refine puts_page hlow ?_ hx
  rw [length_take, length_drop]
  omega

/-- It writes nothing else. -/
lemma writtenZone_within :
    WritesWithin chain zone.pages (writtenZone record env zone (chain k) off w).pages x
      (bs.drop w).length where
  header p := writtenZone_header (chain k) p
  frame p o hout := by
    refine (writtenZone_puts chain zone hbs hx hlow hhigh hw).frame p o fun i hi => hout i ?_
    rw [length_take] at hi
    omega

/-- If the WAL cannot be written, the loop ends there. -/
lemma loopSpec_walFails (hn : n = min (bs.length - w) (8192 - off))
    (hwal : ∃ i, env.walOk i = false) :
    LoopSpec chain env recPtr checkPageId k x (bs.drop w) zone written
      { zone := { writtenZone record env zone (chain k) off w with
          nextAppendUndoPtr := recPtr
          needCheckPageId := checkPageId }
        undoRecPtr := invalidUndoRecPtr
        written := written ++ [⟨chain k, off, n⟩] } where
  within := writtenZone_within hbs hx hlow hhigh hw
  recycle := rfl
  ranges p o h := by
    refine (inRanges_page hx hlow (by omega) h).imp id ?_
    rintro ⟨i, hi, hcell⟩
    rw [length_drop]
    exact ⟨i, by omega, hcell⟩
  ending := Or.inr ⟨hwal, rfl, rfl, rfl⟩

/-- The record ends on this page. -/
lemma loopSpec_finish (hfits : bs.length - w ≤ 8192 - off)
    (hpages : result.zone.pages = (writtenZone record env zone (chain k) off w).pages)
    (hrecycle : result.zone.undoRecyclePageId = zone.undoRecyclePageId) (hwritten : result.written =
      written ++ [⟨chain k, off, bs.length - w⟩]) (hptr : result.undoRecPtr = recPtr)
    (hnext : result.zone.nextAppendUndoPtr =
      ⟨chain ((x + (bs.length - w)) / 8128),
        UInt16.ofNat (64 + (x + (bs.length - w)) % 8128)⟩) (hcheck : result.zone.needCheckPageId =
      if (x + (bs.length - w)) / 8128 = k then zone.needCheckPageId
      else chain ((x + (bs.length - w)) / 8128 + 1)) :
    LoopSpec chain env recPtr checkPageId k x (bs.drop w) zone written
      result where
  within := by
    rw [hpages]
    exact writtenZone_within hbs hx hlow hhigh hw
  recycle := hrecycle
  ranges p o h := by
    rw [hwritten] at h
    rw [length_drop]
    exact inRanges_page hx hlow (by omega) h
  ending := by
    refine Or.inl ⟨hptr, ?_, ?_, ?_⟩
    · have hputs := writtenZone_puts chain zone hbs hx hlow hhigh hw
      rw [Nat.min_eq_left hfits, take_of_length_le (by rw [length_drop])] at hputs
      rwa [hpages]
    · rw [length_drop]
      exact hnext
    · rw [length_drop]
      exact hcheck

/-- The record goes on to the next page. -/
lemma LoopSpec.switch (hinj : Set.InjOn chain (Set.Ico lo hi)) (hlo : lo ≤ k)
    (hmore : 8192 - off < bs.length - w) (hhi : (x + (bs.length - w)) / 8128 < hi)
    {append : UndoRecPtr} (h : LoopSpec chain env recPtr checkPageId (k + 1) (x + (8192 - off))
      (bs.drop (w + (8192 - off)))
      { writtenZone record env zone (chain k) off w with
        nextAppendUndoPtr := append
        needCheckPageId := chain (k + 2) }
      (written ++ [⟨chain k, off, 8192 - off⟩]) result) :
    LoopSpec chain env recPtr checkPageId k x (bs.drop w) zone written
      result := by
  have hlength : (bs.drop (w + (8192 - off))).length = bs.length - w - (8192 - off) := by
    rw [length_drop]
    omega
  have hend : x + (8192 - off) + (bs.drop (w + (8192 - off))).length = x + (bs.length - w) := by
    rw [hlength]
    omega
  have hsplit : bs.drop w = (bs.drop w).take (8192 - off) ++ bs.drop (w + (8192 - off)) := by
    rw [← drop_drop, take_append_drop]
  have hfirst : ((bs.drop w).take (8192 - off)).length = 8192 - off := by
    rw [length_take, length_drop]
    omega
  refine ⟨⟨fun p => ?_, fun p o hout => ?_⟩, h.recycle, fun p o hin => ?_, ?_⟩
  · rw [h.within.header]
    exact writtenZone_header (chain k) p
  · rw [length_drop] at hout
    rw [h.within.frame p o fun i hi => ?_]
    · exact (writtenZone_within hbs hx hlow hhigh hw).frame p o fun i hi => hout i (by
        rw [length_drop] at hi
        omega)
    · have := hout (8192 - off + i) (by omega)
      rwa [← Nat.add_assoc] at this
  · rw [length_drop]
    rcases h.ranges p o hin with hold | ⟨i, hi, hcell⟩
    · refine (inRanges_page hx hlow (by omega) hold).imp id ?_
      rintro ⟨i, hi, hcell⟩
      exact ⟨i, by omega, hcell⟩
    · rw [Nat.add_assoc] at hcell
      exact Or.inr ⟨8192 - off + i, by omega, hcell⟩
  · refine h.ending.imp ?_ id
    rintro ⟨hptr, hputs, hnext, hcheck⟩
    rw [hend] at hnext hcheck
    rw [length_drop]
    refine ⟨hptr, ?_, hnext, ?_⟩
    · have hpage := writtenZone_puts chain zone hbs hx hlow hhigh hw
      rw [Nat.min_eq_right (Nat.le_of_lt hmore)] at hpage
      rw [hsplit]
      refine hpage.append (by rwa [hfirst]) fun i j hi hj hcell => ?_
      rw [hfirst] at hi hcell
      have := eq_of_cell_eq hinj ⟨by omega, by omega⟩ ⟨by omega, by omega⟩ hcell
      omega
    · rw [hcheck, if_neg (show (x + (bs.length - w)) / 8128 ≠ k by omega)]
      split_ifs with hlast
      · rw [hlast]
      · rfl

end Rest

end Page

/-- The loop writes the rest of the record from its position on, going from page to page along
the links. -/
lemma insertLoop_spec {i : ℕ} {walFinished : Bool} {zone : UndoZone} {k off w x : ℕ}
    {written : List ByteRange} {bs : List UInt8} (hbs : record.stored env.context = bs)
    (hinj : Set.InjOn chain (Set.Ico lo hi))
    (hlinks : ∀ j, lo ≤ j → j < hi → zone.pages.next (chain j) = chain (j + 1)) (hlo : lo ≤ k)
    (hx : x + 64 = k * 8128 + off) (hlow : 64 ≤ off) (hhigh : off ≤ 8192) (hw : w < bs.length)
    (hhi : (x + (bs.length - w)) / 8128 < hi) (happend : zone.nextAppendUndoPtr.pageId = chain k)
    (hend : (recPtr.offset.toNat - 64 + bs.length) % 8128 =
      (x + (bs.length - w)) % 8128) (hfuel : bs.length - w + (if off = 8192 then 1 else 0) ≤ fuel) :
    ∃ result, insertLoop record env recPtr checkPageId fuel i walFinished zone (chain k) off w
        written = some result ∧
      LoopSpec chain env recPtr checkPageId k x (bs.drop w) zone written
        result := by
  induction fuel generalizing i walFinished zone k off w x written with
  | zero => omega
  | succ fuel ih =>
    -- one round fills the page from `off`, or writes what is left of the record
    have hspec : (writeUndoRecord (record.segments env.context) (zone.pages.mem (chain k)) off
          w).1.alreadyWritten =
        w + min (bs.length - w) (8192 - off) ∧
        ((writeUndoRecord (record.segments env.context) (zone.pages.mem (chain k)) off
          w).2 ↔ bs.length - w ≤ 8192 - off) := by
      subst hbs
      exact (@insertSegments_spec _ ⟨_, off, w, w⟩ hhigh (Nat.le_of_lt hw)).2
    obtain ⟨halready, hfinish⟩ := hspec
    unfold insertLoop
    dsimp only
    rw [halready, Nat.add_sub_cancel_left]
    by_cases hwal : (!walFinished && !env.walOk i)
    · rw [if_pos hwal]
      refine ⟨_, rfl, loopSpec_walFails hbs hx hlow hhigh (Nat.le_of_lt hw) rfl ⟨i, ?_⟩⟩
      simp only [Bool.and_eq_true, Bool.not_eq_true'] at hwal
      exact hwal.2
    rw [if_neg hwal]
    by_cases hfits : bs.length - w ≤ 8192 - off
    · rw [if_pos (hfinish.mpr hfits)]
      have hoffset : (recPtr.offset.toNat - undoRecordPageHeaderSize +
          (w + min (bs.length - w) (8192 - off))) %
            undoRecordPageMaxFreeSpace =
          (x + (bs.length - w)) % 8128 := by
        rw [Nat.min_eq_left hfits, Nat.add_sub_cancel' (Nat.le_of_lt hw)]
        exact hend
      rw [hoffset, Nat.min_eq_left hfits]
      by_cases hzero : (x + (bs.length - w)) % 8128 = 0
      · -- the append position is the start of the next page
        have hdiv : (x + (bs.length - w)) / 8128 = k + 1 := by omega
        rw [if_pos hzero]
        refine ⟨_, rfl, loopSpec_finish hbs hx hlow hhigh (Nat.le_of_lt hw)
          hfits rfl rfl rfl rfl ?_ ?_⟩
        · rw [hdiv, hzero]
          show (⟨(writtenZone record env zone (chain k) off w).pages.next (chain k), _⟩ :
            UndoRecPtr) = _
          rw [writtenZone_next, hlinks k hlo (by omega)]
          rfl
        · rw [hdiv, if_neg (by omega)]
          show (writtenZone record env zone (chain k) off w).pages.next
            ((writtenZone record env zone (chain k) off w).pages.next (chain k)) = _
          rw [writtenZone_next, writtenZone_next, hlinks k hlo (by omega),
            hlinks (k + 1) (by omega) (by omega)]
      · have hdiv : (x + (bs.length - w)) / 8128 = k := by omega
        rw [if_neg hzero]
        refine ⟨_, rfl, loopSpec_finish hbs hx hlow hhigh (Nat.le_of_lt hw)
          hfits rfl rfl rfl rfl ?_ ?_⟩
        · rw [hdiv, Nat.add_comm 64]
          show (⟨zone.nextAppendUndoPtr.pageId, _⟩ : UndoRecPtr) = _
          rw [happend]
          rfl
        · rw [hdiv, if_pos rfl]
    -- the rest of the record goes to the start of the next page
    · rw [if_neg fun hsucc => hfits (hfinish.mp hsucc), Nat.min_eq_right (by omega)]
      set zone' := writtenZone record env zone (chain k) off w with hzone'
      have hnext : zone'.pages.next (chain k) = chain (k + 1) := by
        rw [hzone', writtenZone_next, hlinks k hlo (by omega)]
      have hnext' : zone'.pages.next (chain (k + 1)) = chain (k + 2) := by
        rw [hzone', writtenZone_next, hlinks (k + 1) (by omega) (by omega)]
      change ∃ result, insertLoop record env recPtr checkPageId fuel (i + 1) _
        { zone' with
          nextAppendUndoPtr := ⟨zone'.pages.next (chain k), _⟩
          needCheckPageId := zone'.pages.next (zone'.pages.next (chain k)) }
        (zone'.pages.next (chain k)) 64 (w + (8192 - off)) _ = some result ∧ _
      rw [hnext, hnext']
      refine (ih (fun j hjlo hjhi => ?_) (Nat.le_succ_of_le hlo) (x := x + (8192 - off)) (by omega)
        (Nat.le_refl 64) (by decide) (by omega) (by omega) rfl ?_ ?_).imp fun result h =>
          ⟨h.1, h.2.switch hbs hx hlow hhigh (Nat.le_of_lt hw) hinj hlo (by omega) hhi⟩
      · show zone'.pages.next (chain j) = chain (j + 1)
        rw [hzone', writtenZone_next, hlinks j hjlo hjhi]
      · rw [hend]
        congr 1
        omega
      · rw [if_neg (by decide)]
        split_ifs at hfuel with hoff
        · omega
        · omega

end Insert

/-! ## Reading -/

section Read

variable {chain : ℕ → PageId} {lo hi : ℕ} {pages : UndoPages}

section

variable (hlinks : ∀ j, lo ≤ j → j < hi → pages.next (chain j) = chain (j + 1))
include hlinks

/-- A read goes on from its position along the links, for as many bytes as asked for. -/
lemma readUndoBytesStream_spec {size fuel : ℕ}
    {p : PageId} {off x : ℕ} {dest : List UInt8} (hat : At 64 8128 chain lo p off x)
    (hdest : dest.length ≤ size) (hhi : (x + (size - dest.length)) / 8128 < hi)
    (hfuel : size - dest.length + (if off = 8192 then 1 else 0) < fuel) :
    ∃ p' off', readUndoBytesStream pages size fuel p off dest =
        some (dest ++ bytes 64 8128 chain pages.mem x (size - dest.length), p', off') ∧
      At 64 8128 chain lo p' off' (x + (size - dest.length)) := by
  induction fuel generalizing p off x dest with
  | zero => omega
  | succ fuel ih =>
    have hat' := hat
    obtain ⟨k, hlo, rfl, hlow, hhigh, hx⟩ := hat
    unfold readUndoBytesStream
    by_cases hdone : size ≤ dest.length
    · rw [if_pos hdone]
      have hzero : size - dest.length = 0 := by omega
      rw [hzero]
      refine ⟨chain k, off, ?_, hat'⟩
      simp [bytes]
    rw [if_neg hdone]
    dsimp only
    by_cases hpart : min (size - dest.length) (8192 - off) = size - dest.length
    · rw [if_pos hpart, hpart, ← bytes_eq_load hlow (by omega) hx]
      exact ⟨_, _, rfl, k, hlo, rfl, by omega, by omega, by omega⟩
    · rw [if_neg hpart, Nat.min_eq_right (by omega), hlinks k hlo (by omega)]
      -- the rest starts with the next page
      rw [← bytes_eq_load hlow (by omega) hx]
      have hlength : (dest ++ bytes 64 8128 chain pages.mem x (8192 - off)).length =
          dest.length + (8192 - off) := by
        rw [length_append, length_bytes]
      have hnext : At 64 8128 chain lo (chain (k + 1)) 64 (x + (8192 - off)) :=
        ⟨k + 1, by omega, rfl, Nat.le_refl 64, by decide, by omega⟩
      obtain ⟨p', off', hread, hend⟩ := ih hnext (show (dest ++ bytes 64 8128 chain
          pages.mem x (8192 - off)).length ≤ size by omega)
        (by rw [hlength]; omega)
        (by
          rw [hlength, if_neg (by decide)]
          split_ifs at hfuel with hoff
          · omega
          · omega)
      rw [hlength] at hread hend
      refine ⟨p', off', hread.trans ?_, ?_⟩
      · rw [append_assoc, ← bytes_add,
          show 8192 - off + (size - (dest.length + (8192 - off))) = size - dest.length by omega]
      · rwa [show x + (8192 - off) + (size - (dest.length + (8192 - off))) =
          x + (size - dest.length) by omega] at hend

/-- Reading gives the bytes of the stream. -/
lemma readUndoBytesStream_nil {n fuel : ℕ}
    {p : PageId} {off x : ℕ} (hat : At 64 8128 chain lo p off x)
    (hhi : (x + n) / 8128 < hi) (hfuel : n + 1 < fuel) :
    ∃ p' off', readUndoBytesStream pages n fuel p off [] =
        some (bytes 64 8128 chain pages.mem x n, p', off') ∧
      At 64 8128 chain lo p' off' (x + n) := by
  refine readUndoBytesStream_spec hlinks hat (Nat.zero_le n) hhi ?_
  rw [length_nil, Nat.sub_zero]
  split_ifs
  · exact hfuel
  · omega

/-- Following the links counts up the chain. -/
lemma follow_chain {count k : ℕ} (hlo : lo ≤ k) (hhi : k + count ≤ hi) :
    pages.follow count (chain k) = chain (k + count) := by
  induction count generalizing k with
  | zero => rfl
  | succ count ih =>
    rw [follow, hlinks k hlo (by omega), ih (by omega) (by omega),
      show k + 1 + count = k + (count + 1) by omega]

/-- The pointer behind a record is the one of its end in the stream. -/
lemma getNextUndoRecPtr_spec {ptr : UndoRecPtr}
    {x n : ℕ} (hat : At 64 8128 chain lo ptr.pageId ptr.offset.toNat x)
    (hhi : (x + n) / 8128 ≤ hi) :
    pages.getNextUndoRecPtr ptr n =
      ⟨chain ((x + n) / 8128), UInt16.ofNat (64 + (x + n) % 8128)⟩ := by
  obtain ⟨k, hlo, hpage, hlow, hhigh, hx⟩ := hat
  unfold getNextUndoRecPtr
  by_cases hsame : ptr.offset.toNat + n < 8192
  · rw [if_pos hsame, hpage, show (x + n) / 8128 = k by omega,
      show 64 + (x + n) % 8128 = ptr.offset.toNat + n by omega]
  · rw [if_neg hsame]
    simp only [undoRecordPageHeaderSize_eq, undoRecordPageMaxFreeSpace_eq]
    rw [hpage, follow_chain hlinks hlo (by omega),
      show k + (ptr.offset.toNat - 64 + n) / 8128 = (x + n) / 8128 by omega,
      show (ptr.offset.toNat - 64 + n) % 8128 = (x + n) % 8128 by omega, Nat.add_comm 64]

end

end Read

/-! ## The stored form of a record -/

section Stored

variable {record : RawUndoRecord} {context : UndoContext}

@[simp] lemma length_intBytes (n : ℕ) : (intBytes n).length = 4 := length_load _ _ _

/-- The length of the data survives. -/
lemma intOfBytes_intBytes {n : ℕ} (h : n < 2 ^ 32) : intOfBytes (intBytes n) = n := by
  unfold intOfBytes intBytes
  have hread := readLE_writeLE_self (fun _ => 0) 0 4 n
  rw [Nat.mod_eq_of_lt (by omega)] at hread
  rw [← hread]
  refine readLE_congr fun i hi => ?_
  rw [Nat.zero_add, ofBytes_load hi, Nat.zero_add, hread]

/-- The compressed header is short enough for one byte. -/
lemma getCompressedSize_lt (header : UndoRecordHeader) : header.getCompressedSize 0 < 256 := by
  unfold getCompressedSize
  rw [if_neg (by decide)]
  exact Nat.mod_lt _ (by decide)

lemma getCompressedSize_pos (header : UndoRecordHeader) : 0 < header.getCompressedSize 0 := by
  have hlength := header.serializeBytes_length 0
  have hversion := VarintCompress.getUnsigned64CompressedSize_le header.fileVersion
  have hfour : 4 ≤ (header.serializeBytes 0).length := by
    unfold serializeBytes
    simp only [length_cons, length_append]
    omega
  omega

lemma length_serialize_take (header : UndoRecordHeader) (context : UndoContext) :
    ((header.serialize context.bytes).take (header.getCompressedSize 0)).length =
      header.getCompressedSize 0 := by
  have hlt := getCompressedSize_lt header
  have hcontext := context.length_eq
  unfold serialize
  rw [length_take, length_append, length_drop]
  omega

/-- A record is stored as header, length and data. -/
lemma stored_eq : record.stored context =
    (record.header.serialize context.bytes).take (record.header.getCompressedSize 0) ++
      (intBytes record.dataInfo.length ++ record.dataInfo) := by
  simp [stored, segments]

@[simp] lemma length_stored : (record.stored context).length = record.getRecordSize := by
  rw [stored_eq, length_append, length_append, length_serialize_take, length_intBytes,
    getRecordSize]
  omega

/-- The first byte stored is the size of the header. -/
lemma headD_serialize_take (header : UndoRecordHeader) (context : UndoContext) :
    (((header.serialize context.bytes).take (header.getCompressedSize 0)).headD 0).toNat =
      header.getCompressedSize 0 := by
  obtain ⟨size, hsize⟩ := Nat.exists_eq_succ_of_ne_zero
    (Nat.ne_of_gt (getCompressedSize_pos header))
  have hlt := getCompressedSize_lt header
  unfold serialize serializeBytes
  rw [hsize] at hlt ⊢
  simp only [cons_append, take_succ_cons, headD_cons]
  rw [UInt8.toNat_ofNat', Nat.mod_eq_of_lt hlt]

variable {chain : ℕ → PageId} {lo hi : ℕ} {pages : UndoPages}

/-- What is read where a record is stored: its payload, and a header that is deserialized from
the stored bytes and what is behind them in the reader's context. -/
lemma readUndoRecord_spec
    (hlinks : ∀ j, lo ≤ j → j < hi → pages.next (chain j) = chain (j + 1)) {ptr : UndoRecPtr}
    {x : ℕ} (hat : At 64 8128 chain lo ptr.pageId ptr.offset.toNat x)
    (hhi : (x + record.getRecordSize) / 8128 < hi) (hlen : record.dataInfo.length < 2 ^ 16)
    (hstored : bytes 64 8128 chain pages.mem x record.getRecordSize =
      record.stored context) (reader : UndoContext) :
    pages.readUndoRecord ptr reader =
      some (⟨deserialize
        ((record.header.serialize context.bytes).take (record.header.getCompressedSize 0) ++
          reader.bytes.drop (record.header.getCompressedSize 0)), record.dataInfo⟩,
        record.getRecordSize) := by
  set size := record.header.getCompressedSize 0 with hsize
  set len := record.dataInfo.length with hlenDef
  have hpos := getCompressedSize_pos record.header
  have hrecord : record.getRecordSize = size + (4 + len) := by
    rw [getRecordSize]
    omega
  -- the three parts of the stored bytes
  rw [hrecord, bytes_add, bytes_add, stored_eq] at hstored
  obtain ⟨hheader, htail⟩ := append_inj hstored (by
    rw [length_bytes, length_serialize_take])
  obtain ⟨hint, hdata⟩ := append_inj htail (by
    rw [length_bytes, length_intBytes])
  have hsplit : bytes 64 8128 chain pages.mem x 1 ++
      bytes 64 8128 chain pages.mem (x + 1) (size - 1) =
      (record.header.serialize context.bytes).take size := by
    rw [← bytes_add, Nat.add_sub_cancel' hpos, hheader]
  have hbyte : ((bytes 64 8128 chain pages.mem x 1).headD 0).toNat = size := by
    have hhead := headD_serialize_take record.header context
    rw [← hsize, ← hsplit] at hhead
    simpa [bytes] using hhead
  -- the four reads
  obtain ⟨p1, o1, hread1, hat1⟩ := readUndoBytesStream_nil hlinks hat (n := 1)
    (show (x + 1) / 8128 < hi by omega) (show 1 + 1 < 3 by decide)
  obtain ⟨p2, o2, hread2, hat2⟩ := readUndoBytesStream_nil hlinks hat1 (n := size - 1)
    (show (x + 1 + (size - 1)) / 8128 < hi by omega)
    (show size - 1 + 1 < size + 1 by omega)
  rw [show x + 1 + (size - 1) = x + size by omega] at hat2
  obtain ⟨p3, o3, hread3, hat3⟩ := readUndoBytesStream_nil hlinks hat2 (n := 4)
    (show (x + size + 4) / 8128 < hi by omega) (show 4 + 1 < 6 by decide)
  obtain ⟨p4, o4, hread4, -⟩ := readUndoBytesStream_nil hlinks hat3 (n := len)
    (show (x + size + 4 + len) / 8128 < hi by omega) (show len + 1 < len + 2 by omega)
  unfold readUndoRecord
  rw [hread1]
  dsimp only
  rw [hbyte, hread2]
  dsimp only
  rw [hread3]
  dsimp only
  rw [hint, intOfBytes_intBytes (by omega), Nat.mod_eq_of_lt hlen, hread4]
  dsimp only
  rw [hsplit, hdata, length_serialize_take, hrecord, Nat.add_assoc]

end Stored

end DStore
