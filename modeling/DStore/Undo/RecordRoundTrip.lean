import Mathlib.Tactic.IntervalCases
import DStore.Undo.UndoRing

/-!
# Undo records read back

Records inserted one after another, each after `ExtendSpaceIfNeeded`, and read by any thread
afterwards. The bytes on the pages are those written; the header that is deserialized from them is
the one written exactly if its file version is complete.
-/

namespace DStore

open VarintCompress List PageStream

/-! ## The header a reader gets -/

/-- A zero byte at position `k` ends the number before it. -/
lemma VarintCompress.decompressUnsigned64_lt {buf : List UInt8} {k : ℕ}
    (hzero : (buf.drop k).headD 0 = 0) : (decompressUnsigned64 buf).1.toNat < 2 ^ (7 * k) := by
  have hloop : (Varint.decodeLoop 64 compressed64MaxByte 0 0 buf).1 <
      2 ^ (7 * (0 + k)) := Varint.decodeLoop_lt (by decide) hzero
  rw [Nat.zero_add] at hloop
  unfold decompressUnsigned64 Varint.decode
  dsimp only
  rw [UInt64.toNat_ofNat']
  exact lt_of_le_of_lt (Nat.mod_le _ _) hloop

namespace UndoRecordHeader

variable (header : UndoRecordHeader)

/-- The serialized header with `tail` in the place of the file version. -/
def fieldBytes (serializeSize : ℕ) (tail : List UInt8) : List UInt8 :=
  UInt8.ofNat serializeSize :: header.undoType.toByte ::
    (VarintCompress.compressUnsigned32 header.cid ++
    (header.tdPreInfo.undoRecPtr.serialize ++
    (VarintCompress.compressUnsigned64 (UInt64.ofNat (Xid.zoneId header.tdPreInfo.xid)) ++
    (VarintCompress.compressUnsigned64 (UInt64.ofNat (Xid.logicSlotId header.tdPreInfo.xid)) ++
    (VarintCompress.compressUnsigned64 header.tdPreInfo.csn ++
    (header.tdPreInfo.tdId :: header.tdPreInfo.csnStatus.toByte ::
    (header.txnPreUndoPtr.serialize ++ (header.ctid.serialize ++ tail))))))))

section

variable (serializeSize : ℕ)
include serializeSize

lemma serializeBytes_eq : header.serializeBytes serializeSize =
    header.fieldBytes serializeSize (compressUnsigned64 header.fileVersion) := rfl

lemma fieldBytes_append (tail rest : List UInt8) :
    header.fieldBytes serializeSize tail ++ rest =
      header.fieldBytes serializeSize (tail ++ rest) := by
  simp [fieldBytes]

/-- All fields but the last are read back. -/
lemma deserialize_fieldBytes (tail : List UInt8) :
    deserialize (header.fieldBytes serializeSize tail) =
      { header with fileVersion := (decompressUnsigned64 tail).1 } := by
  simp [deserialize, fieldBytes, Xid.ofParts_parts]

/-- The stored header keeps eight bytes for the last field. -/
lemma length_fieldBytes :
    (header.fieldBytes serializeSize []).length + 8 = header.getCompressedSize 0 := by
  have hlength := header.serializeBytes_length serializeSize
  rw [serializeBytes_eq, ← nil_append (compressUnsigned64 _),
    ← fieldBytes_append, length_append, compressUnsigned64_length] at hlength
  omega

/-- Cutting the header cuts the last field. -/
lemma take_fieldBytes (tail : List UInt8) :
    (header.fieldBytes serializeSize tail).take (header.getCompressedSize 0) =
      header.fieldBytes serializeSize (tail.take 8) := by
  have happend : ∀ rest, header.fieldBytes serializeSize rest =
      header.fieldBytes serializeSize [] ++ rest := fun rest => by
    rw [fieldBytes_append, nil_append]
  rw [happend tail, happend (tail.take 8), ← header.length_fieldBytes serializeSize,
    take_length_add_append]

end

/-- What is stored of the header. -/
lemma serialize_take (context : UndoContext) :
    (header.serialize context.bytes).take (header.getCompressedSize 0) =
      header.fieldBytes (header.getCompressedSize 0)
        ((compressUnsigned64 header.fileVersion ++
          context.bytes.drop
            (header.serializeBytes (header.getCompressedSize 0)).length).take 8) := by
  unfold serialize
  dsimp only
  rw [serializeBytes_eq, fieldBytes_append, take_fieldBytes]

lemma compressUnsigned64_length_le (num : UInt64) :
    (compressUnsigned64 num).length ≤ 8 ↔ num.toNat < 2 ^ 56 :=
  encode_length_iff (lt_of_lt_of_le num.toNat_lt (by decide)) 8 (by decide)

/-- A thread gets the header back, whatever is in its undo context, exactly if the file version
fits into the eight bytes. -/
lemma deserialize_stored_iff (writer : UndoContext) :
    (∀ reader : UndoContext, deserialize
      ((header.serialize writer.bytes).take (header.getCompressedSize 0) ++
        reader.bytes.drop (header.getCompressedSize 0)) = header) ↔
      header.fileVersion.toNat < 2 ^ 56 := by
  rw [← compressUnsigned64_length_le]
  constructor
  · intro h
    by_contra hlong
    -- a context of zeros ends the number after eight groups
    have hzero := h ⟨replicate 8192 0, length_replicate⟩
    rw [serialize_take, fieldBytes_append, deserialize_fieldBytes] at hzero
    have hversion := congrArg UndoRecordHeader.fileVersion hzero
    dsimp only at hversion
    rw [take_append_of_le_length (by omega)] at hversion
    have hlt : (decompressUnsigned64
        ((compressUnsigned64 header.fileVersion).take 8 ++
          (replicate 8192 0).drop (header.getCompressedSize 0))).1.toNat < 2 ^ 56 := by
      refine decompressUnsigned64_lt (k := 8) ?_
      rw [drop_left' (by rw [length_take]; omega), drop_replicate]
      cases 8192 - header.getCompressedSize 0 with
      | zero => rfl
      | succ n => rfl
    rw [hversion] at hlt
    exact hlong ((compressUnsigned64_length_le _).mpr hlt)
  · intro hshort reader
    rw [serialize_take, fieldBytes_append, deserialize_fieldBytes, take_append, append_assoc,
      take_of_length_le hshort, decompress_compressUnsigned64]

end UndoRecordHeader

open UndoRecordHeader

/-! ## Records in turn -/

/-- One record to insert: what is in the writer's undo context, and the extent that
`Segment::Extend` hands out if the ring has to be extended before it. -/
structure UndoInsertCall where
  record : RawUndoRecord
  context : UndoContext
  extent : PageId

/-- The records in turn, each after `ExtendSpaceIfNeeded`, with nothing failing: the zone at the
end and the pointers returned. -/
def UndoZone.insertRecords : List UndoInsertCall → UndoZone → Option (UndoZone × List UndoRecPtr)
  | [], zone => some (zone, [])
  | call :: calls, zone =>
    match (zone.extendSpaceIfNeeded ⟨some call.extent, fun _ => true⟩).zone.insertUndoRecord
        call.record ⟨call.context, true, fun _ => true⟩ with
    | none => none
    | some result =>
      match insertRecords calls result.zone with
      | none => none
      | some (zone, ptrs) => some (zone, result.undoRecPtr :: ptrs)

/-- The extents are not on the ring and do not overlap. -/
structure FreshExtents (chain : ℕ → PageId) (lo hi : ℕ) (calls : List UndoInsertCall) : Prop where
  offRing : ∀ call ∈ calls, ∀ i, lo ≤ i → i < hi → ∀ j, j < undoZoneExtentSize - 1 →
    chain i ≠ extentPage call.extent j
  disjoint : calls.Pairwise fun call call' => ∀ i, i < undoZoneExtentSize - 1 →
    ∀ j, j < undoZoneExtentSize - 1 → extentPage call.extent i ≠ extentPage call'.extent j

/-- Every record reads back in every thread, and the pointer behind it is the one the next record
got. -/
def UndoZone.RoundTrip (final : UndoZone) (calls : List UndoInsertCall)
    (ptrs : List UndoRecPtr) : Prop :=
  ∀ i call, calls[i]? = some call → ∃ ptr, ptrs[i]? = some ptr ∧
    (∀ reader, final.pages.readUndoRecord ptr reader =
      some (call.record, call.record.getRecordSize)) ∧
    (ptrs ++ [final.nextAppendUndoPtr])[i + 1]? =
      some (final.pages.getNextUndoRecPtr ptr call.record.getRecordSize)

section Run

/-- Where a record is at the end: its bytes are at its position, and the next pointer is the
position behind it. -/
structure PlacedAt (chain : ℕ → PageId) (lo tail : ℕ) (final : UndoZone)
    (call : UndoInsertCall) (ptr next : UndoRecPtr) (x : ℕ) : Prop where
  lo_le : lo * 8128 ≤ x
  le_tail : x + call.record.getRecordSize ≤ tail
  at_ptr : At 64 8128 chain lo ptr.pageId ptr.offset.toNat x
  stored : PageStream.bytes 64 8128 chain final.pages.mem x call.record.getRecordSize =
    call.record.stored call.context
  next_eq : next = streamPtr chain (x + call.record.getRecordSize)

/-- The end of a run that started at position `tail` of a zone. -/
structure RecordsSpec (chain chain' : ℕ → PageId) (lo hi' tail tail' : ℕ) (zone final : UndoZone)
    (calls : List UndoInsertCall) (ptrs : List UndoRecPtr) : Prop where
  onRing : final.OnRing chain' lo hi' tail'
  le : tail ≤ tail'
  kept : ∀ i, i * 8128 < tail → chain' i = chain i
  keptAppend : zone.nextAppendUndoPtr.offset.toNat < 8192 →
    chain' (tail / 8128) = chain (tail / 8128)
  bytes : ∀ x, lo * 8128 ≤ x → x < tail →
    byte 64 8128 chain' final.pages.mem x =
      byte 64 8128 chain zone.pages.mem x
  first : (ptrs ++ [final.nextAppendUndoPtr])[0]? = some zone.nextAppendUndoPtr
  placed : ∀ i call, calls[i]? = some call → ∃ ptr next x, ptrs[i]? = some ptr ∧
    (ptrs ++ [final.nextAppendUndoPtr])[i + 1]? = some next ∧
    PlacedAt chain' lo tail' final call ptr next x

/-- One record. -/
structure RecordSpec (chain chain' : ℕ → PageId) (lo hi hi' tail : ℕ) (zone : UndoZone)
    (call : UndoInsertCall) (result : InsertResult) : Prop where
  ptr : result.undoRecPtr = zone.nextAppendUndoPtr
  onRing : result.zone.OnRing chain' lo hi' (tail + call.record.getRecordSize)
  append : result.zone.nextAppendUndoPtr = streamPtr chain' (tail + call.record.getRecordSize)
  kept : ∀ i, i * 8128 < tail → chain' i = chain i
  keptAppend : zone.nextAppendUndoPtr.offset.toNat < 8192 →
    chain' (tail / 8128) = chain (tail / 8128)
  bytes : ∀ x, lo * 8128 ≤ x → x < tail →
    byte 64 8128 chain' result.zone.pages.mem x =
      byte 64 8128 chain zone.pages.mem x
  at_ptr : At 64 8128 chain' lo zone.nextAppendUndoPtr.pageId
    zone.nextAppendUndoPtr.offset.toNat tail
  stored : PageStream.bytes 64 8128 chain' result.zone.pages.mem tail call.record.getRecordSize =
    call.record.stored call.context
  pages : ∀ i, lo ≤ i → i < hi' → (∃ j, lo ≤ j ∧ j < hi ∧ chain' i = chain j) ∨
    ∃ j, j < undoZoneExtentSize - 1 ∧ chain' i = extentPage call.extent j

variable {zone : UndoZone} {chain : ℕ → PageId} {lo hi tail : ℕ} {call : UndoInsertCall}

variable {final : UndoZone} {ptrs : List UndoRecPtr} {chain' : ℕ → PageId} {hi' tail' : ℕ}
  {calls : List UndoInsertCall}

/-- One call inserts its record at the tail, after an extension if the ring is full. -/
lemma UndoZone.OnRing.insertCall (h : zone.OnRing chain lo hi tail)
    (hsize : call.record.getRecordSize ≤ undoRecordPageMaxFreeSpace)
    (hfresh : ∀ i, lo ≤ i → i < hi → ∀ j, j < undoZoneExtentSize - 1 →
      chain i ≠ extentPage call.extent j) :
    ∃ result chain' hi',
      (zone.extendSpaceIfNeeded ⟨some call.extent, fun _ => true⟩).zone.insertUndoRecord
        call.record ⟨call.context, true, fun _ => true⟩ = some result ∧
      RecordSpec chain chain' lo hi hi' tail zone call result := by
  have hextent : (⟨some call.extent, fun _ => true⟩ : ExtendEnv).extent = some call.extent := rfl
  obtain ⟨zone', wal, chain', hi', hextend, hspec⟩ :=
    h.extendIfNeeded hextent (fun _ _ => rfl) hfresh
  obtain ⟨result, hinsert, hresult⟩ :=
    hspec.ready.insert hsize ⟨call.context, true, fun _ => true⟩
  refine ⟨result, chain', hi', by rw [hextend]; exact hinsert, ?_⟩
  rcases hresult.ending with ⟨hptr, hputs, hring, happend⟩ | ⟨hfail, -⟩
  swap
  · rcases hfail with hfail | ⟨i, hfail⟩
    · cases hfail
    · cases hfail
  have hroom := hring.room
  have hat := hspec.ready.append
  rw [hspec.append] at hat
  refine ⟨hptr.trans hspec.append, hring, happend, hspec.kept, hspec.keptAppend,
    fun x hlo hx => ?_, hat, ?_, hspec.pages⟩
  · rw [hresult.within.byte_eq hspec.ready.ring.inj hroom hlo hx]
    exact hspec.byte_eq h.room hlo hx
  · have hstored := hputs.stored
    rwa [length_stored] at hstored

lemma streamPtr_offset_lt (chain : ℕ → PageId) (x : ℕ) :
    (streamPtr chain x).offset.toNat < 8192 := by
  rw [streamPtr_offset]
  omega

/-- A record before a run of others. -/
lemma RecordsSpec.cons {chain1 chain2 : ℕ → PageId} {hi1 hi2 tail2 : ℕ} {result : InsertResult}
    (hzone : zone.OnRing chain lo hi tail)
    (h : RecordSpec chain chain1 lo hi hi1 tail zone call result)
    (hrest : RecordsSpec chain1 chain2 lo hi2 (tail + call.record.getRecordSize) tail2 result.zone
      final calls ptrs) :
    RecordsSpec chain chain2 lo hi2 tail tail2 zone final (call :: calls)
      (result.undoRecPtr :: ptrs) := by
  have hpos := getRecordSize_pos call.record
  have hlo : lo ≤ tail / 8128 := hzone.lo_le
  have hle := hrest.le
  -- pages of positions that are taken stay where they are
  have hkept : ∀ i, i * 8128 < tail + call.record.getRecordSize → chain2 i = chain1 i := hrest.kept
  refine ⟨hrest.onRing, by omega, fun i hi' => ?_, fun hoff => ?_, fun x hxlo hx => ?_, ?_, ?_⟩
  · rw [hkept i (by omega), h.kept i hi']
  · rw [hkept _ (by omega), h.keptAppend hoff]
  · rw [hrest.bytes x hxlo (by omega), h.bytes x hxlo hx]
  · rw [cons_append, getElem?_cons_zero, h.ptr]
  · intro i call' hcall
    cases i with
    | zero =>
      cases hcall
      refine ⟨result.undoRecPtr, result.zone.nextAppendUndoPtr, tail, rfl, hrest.first, by omega,
        hle, ?_, ?_, ?_⟩
      · obtain ⟨k, hklo, hpage, hlow, hhigh, hx⟩ := h.at_ptr
        rw [h.ptr]
        exact ⟨k, hklo, by rw [hkept k (by omega), hpage], hlow, hhigh, hx⟩
      · rw [← h.stored]
        exact PageStream.bytes_congr fun i hi' => hrest.bytes (tail + i) (by omega) (by omega)
      · rw [h.append, streamPtr, streamPtr]
        rw [hrest.keptAppend (by rw [h.append]; exact streamPtr_offset_lt _ _)]
    | succ i => exact hrest.placed i call' hcall

/-- The extents of the later calls stay fresh. -/
lemma FreshExtents.rest (h : FreshExtents chain lo hi (call :: calls))
    (hpages : ∀ i, lo ≤ i → i < hi' → (∃ j, lo ≤ j ∧ j < hi ∧ chain' i = chain j) ∨
      ∃ j, j < undoZoneExtentSize - 1 ∧ chain' i = extentPage call.extent j) :
    FreshExtents chain' lo hi' calls where
  offRing call' hcall i hilo hihi j hj := by
    rcases hpages i hilo hihi with ⟨k, hklo, hkhi, heq⟩ | ⟨k, hk, heq⟩
    · rw [heq]
      exact h.offRing call' (mem_cons_of_mem _ hcall) k hklo hkhi j hj
    · rw [heq]
      exact (pairwise_cons.mp h.disjoint).1 call' hcall k hk j hj
  disjoint := (pairwise_cons.mp h.disjoint).2

/-- The calls insert their records one behind another. -/
lemma UndoZone.OnRing.insertRecords (h : zone.OnRing chain lo hi tail)
    (hsize : ∀ call ∈ calls, call.record.getRecordSize ≤ undoRecordPageMaxFreeSpace)
    (hfresh : FreshExtents chain lo hi calls) :
    ∃ final ptrs chain' hi' tail', zone.insertRecords calls = some (final, ptrs) ∧
      RecordsSpec chain chain' lo hi' tail tail' zone final calls ptrs := by
  induction calls generalizing zone chain hi tail with
  | nil =>
    refine ⟨zone, [], chain, hi, tail, rfl, h, Nat.le_refl tail, fun _ _ => rfl, fun _ => rfl,
      fun _ _ _ => rfl, rfl, fun i call hcall => ?_⟩
    cases hcall
  | cons call calls ih =>
    obtain ⟨result, chain1, hi1, hinsert, hspec⟩ := h.insertCall (hsize call mem_cons_self)
      (hfresh.offRing call mem_cons_self)
    obtain ⟨final, ptrs, chain2, hi2, tail2, hrun, hrest⟩ := ih hspec.onRing
      (fun call' hcall => hsize call' (mem_cons_of_mem _ hcall)) (hfresh.rest hspec.pages)
    refine ⟨final, result.undoRecPtr :: ptrs, chain2, hi2, tail2, ?_,
      RecordsSpec.cons h hspec hrest⟩
    rw [UndoZone.insertRecords, hinsert]
    dsimp only
    rw [hrun]

/-- The record that is read at a pointer is the one stored there. -/
lemma PlacedAt.read {x : ℕ} {ptr next : UndoRecPtr}
    (h : PlacedAt chain' lo tail' final call ptr next x) (hring : final.OnRing chain' lo hi' tail')
    (hsize : call.record.getRecordSize ≤ undoRecordPageMaxFreeSpace) (reader : UndoContext) :
    final.pages.readUndoRecord ptr reader =
      some (⟨deserialize
        ((call.record.header.serialize call.context.bytes).take
          (call.record.header.getCompressedSize 0) ++
          reader.bytes.drop (call.record.header.getCompressedSize 0)), call.record.dataInfo⟩,
        call.record.getRecordSize) := by
  have hle := h.le_tail
  have hroom := hring.room
  have hlen : call.record.dataInfo.length ≤ call.record.getRecordSize :=
    Nat.le_add_left _ _
  rw [undoRecordPageMaxFreeSpace_eq] at hsize
  exact readUndoRecord_spec hring.ring.next_eq h.at_ptr (by omega) (by omega) h.stored reader

/-- The records of a run read back exactly if their file versions are complete. -/
lemma RecordsSpec.roundTrip_iff
    (h : RecordsSpec chain chain' lo hi' tail tail' zone final calls ptrs)
    (hsize : ∀ call ∈ calls, call.record.getRecordSize ≤ undoRecordPageMaxFreeSpace) :
    final.RoundTrip calls ptrs ↔
      ∀ call ∈ calls, call.record.header.fileVersion.toNat < 2 ^ 56 := by
  refine ⟨fun htrip call hcall => ?_, fun hversion i call hcall => ?_⟩
  · obtain ⟨i, hi1, rfl⟩ := getElem_of_mem hcall
    have hget : calls[i]? = some calls[i] := getElem?_eq_getElem hi1
    obtain ⟨ptr, next, x, hptr, -, hplaced⟩ := h.placed i _ hget
    obtain ⟨ptr', hptr', hread, -⟩ := htrip i _ hget
    obtain rfl : ptr = ptr' := Option.some.inj (hptr.symm.trans hptr')
    rw [← deserialize_stored_iff _ calls[i].context]
    intro reader
    have hheader := hread reader
    rw [hplaced.read h.onRing (hsize _ hcall)] at hheader
    exact congrArg (fun r => r.1.header) (Option.some.inj hheader)
  · have hmem : call ∈ calls := mem_of_getElem? hcall
    obtain ⟨ptr, next, x, hptr, hnext, hplaced⟩ := h.placed i call hcall
    have hroom := h.onRing.room
    have hle := hplaced.le_tail
    refine ⟨ptr, hptr, fun reader => ?_, ?_⟩
    · rw [hplaced.read h.onRing (hsize call hmem),
        (deserialize_stored_iff _ call.context).mpr (hversion call hmem) reader]
    · rw [hnext, hplaced.next_eq, getNextUndoRecPtr_spec h.onRing.ring.next_eq hplaced.at_ptr
        (by omega)]
      rfl

end Run

/-- Starting from any ring and any append position, records that each fit on a page read back
whole in every thread, with the pointers stepping from one to the next, exactly if the file version
of each is below `2 ^ 56`. -/
theorem undo_records_round_trip_iff (zone : UndoZone) (chain : ℕ → PageId) (lo hi tail : ℕ)
    (calls : List UndoInsertCall) (hzone : zone.OnRing chain lo hi tail)
    (hsize : ∀ call ∈ calls, call.record.getRecordSize ≤ undoRecordPageMaxFreeSpace)
    (hfresh : FreshExtents chain lo hi calls) :
    ∃ final ptrs, zone.insertRecords calls = some (final, ptrs) ∧
      (final.RoundTrip calls ptrs ↔
        ∀ call ∈ calls, call.record.header.fileVersion.toNat < 2 ^ 56) := by
  obtain ⟨final, ptrs, chain', hi', tail', hrun, hspec⟩ := hzone.insertRecords hsize hfresh
  exact ⟨final, ptrs, hrun, hspec.roundTrip_iff hsize⟩

/-- The pages of the zone of two pages, in turn. -/
def twoPageChain (i : ℕ) : PageId := if i % 2 = 0 then ⟨1, 1⟩ else ⟨1, 2⟩

lemma twoPageZone_onRing : twoPageZone.OnRing twoPageChain 0 2 8128 where
  ring :=
    { lt := by decide
      inj := by
        rintro i ⟨-, hi⟩ j ⟨-, hj⟩ h
        interval_cases i <;> interval_cases j <;> first | rfl | exact absurd h (by decide)
      wrap := rfl
      next_eq := by
        intro i _ hi
        interval_cases i <;> decide
      prev_eq := by
        intro i _ hi
        interval_cases i <;> decide }
  recycle := rfl
  append := ⟨1, by decide, by decide, by decide, by decide, by decide⟩
  room := by decide
  needCheck := by decide

/-- An undo context as it is allocated. -/
def zeroContext : UndoContext := ⟨List.replicate 8192 0, List.length_replicate⟩

/-- A record of an insert with the given file version. -/
def insertCallOf (fileVersion : UInt64) : UndoInsertCall where
  record := ⟨{ insertHeader with fileVersion := fileVersion }, []⟩
  context := zeroContext
  extent := ⟨1, 100⟩

lemma twoPage_freshExtents (fileVersion : UInt64) :
    FreshExtents twoPageChain 0 2 [insertCallOf fileVersion] where
  offRing call hcall i _ hi j hj := by
    obtain rfl := mem_singleton.mp hcall
    show twoPageChain i ≠ extentPage ⟨1, 100⟩ j
    revert i j
    decide
  disjoint := pairwise_singleton _ _

lemma insertCallOf_size (fileVersion : UInt64) :
    ∀ call ∈ [insertCallOf fileVersion],
      call.record.getRecordSize ≤ undoRecordPageMaxFreeSpace := by
  intro call hcall
  obtain rfl := mem_singleton.mp hcall
  have hlt := getCompressedSize_lt (insertCallOf fileVersion).record.header
  rw [RawUndoRecord.getRecordSize, undoRecordPageMaxFreeSpace_eq]
  show _ + 4 + 0 ≤ 8128
  omega

/-- The same zone when its records have reached the last twelve bytes of the first page. -/
def pageEndZone : UndoZone :=
  { twoPageZone with nextAppendUndoPtr := ⟨⟨1, 1⟩, 8180⟩, needCheckPageId := ⟨1, 2⟩ }

lemma pageEndZone_onRing : pageEndZone.OnRing twoPageChain 0 2 8116 where
  ring := twoPageZone_onRing.ring
  recycle := rfl
  append := ⟨0, by decide, by decide, by decide, by decide, by decide⟩
  room := by decide
  needCheck := by decide

/-- Two records, of which the first lies on both pages; for the second the ring is extended. -/
def pageEndCalls : List UndoInsertCall :=
  [{ insertCallOf 7 with record := ⟨{ insertHeader with fileVersion := 7 }, [1, 2, 3]⟩ },
    { insertCallOf 8 with extent := ⟨1, 300⟩ }]

lemma pageEndCalls_fresh : FreshExtents twoPageChain 0 2 pageEndCalls where
  offRing := by decide
  disjoint := by
    refine pairwise_pair.mpr fun i hi j hj heq => ?_
    -- the second extent starts 200 pages behind the first
    change (PageId.plus ⟨1, 101⟩ i) = (PageId.plus ⟨1, 101⟩ 200).plus j at heq
    rw [PageId.plus_plus] at heq
    have hi' : i < 127 := hi
    have hj' : j < 127 := hj
    have := PageId.plus_inj (by omega) (by omega) heq
    omega

/-- Two records, the first of them over the end of a page. -/
theorem pageEndZone_round_trip :
    ∃ final ptrs, pageEndZone.insertRecords pageEndCalls = some (final, ptrs) ∧
      final.RoundTrip pageEndCalls ptrs := by
  obtain ⟨final, ptrs, hrun, htrip⟩ := undo_records_round_trip_iff pageEndZone twoPageChain 0 2 8116
    pageEndCalls pageEndZone_onRing (by decide) pageEndCalls_fresh
  exact ⟨final, ptrs, hrun, htrip.mpr (by decide)⟩

/-- A record as the constructor of `UndoRecord` makes it, with `INVALID_FILE_VERSION`, does not
read back. -/
theorem invalid_file_version_lost :
    ∃ final ptrs,
      twoPageZone.insertRecords [insertCallOf invalidFileVersion] = some (final, ptrs) ∧
      ¬ final.RoundTrip [insertCallOf invalidFileVersion] ptrs := by
  obtain ⟨final, ptrs, chain', hi', tail', hrun, hspec⟩ :=
    twoPageZone_onRing.insertRecords (insertCallOf_size invalidFileVersion)
      (twoPage_freshExtents invalidFileVersion)
  refine ⟨final, ptrs, hrun, fun htrip => ?_⟩
  have hversion := (hspec.roundTrip_iff (insertCallOf_size _)).mp htrip _ List.mem_cons_self
  exact absurd hversion (by decide)

end DStore
