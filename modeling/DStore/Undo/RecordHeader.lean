import DStore.Lib.Varint
import DStore.Undo.Record

/-!
# The stored form of an undo record header

`UndoRecord::Serialize` writes the header field by field, integers as variable-length
integers, into the undo context of the thread. The size it stores in the first byte comes from
`GetCompressedSize`, which lists the fields a second time. The undo space keeps that many bytes,
and `Deserialize` reads the header back from them.
-/

namespace DStore

open UInt64 Varint Xid

/-! ## `VarintCompress` -/

namespace VarintCompress

/-- `COMPRESSED32_MAX_BYTE`. -/
def compressed32MaxByte : ℕ := 5

/-- `COMPRESSED64_MAX_BYTE`. -/
def compressed64MaxByte : ℕ := 10

/-- `GetUnsigned32CompressedSize`. -/
def getUnsigned32CompressedSize (num : UInt32) : ℕ :=
  if num.toNat < 2 ^ 7 then 1
  else if num.toNat < 2 ^ 14 then 2
  else if num.toNat < 2 ^ 21 then 3
  else if num.toNat < 2 ^ 28 then 4
  else compressed32MaxByte

/-- `GetUnsigned64CompressedSize`. -/
def getUnsigned64CompressedSize (num : UInt64) : ℕ :=
  if num.toNat / 2 ^ 32 = 0 then getUnsigned32CompressedSize num.toUInt32
  else if num.toNat < 2 ^ 35 then 5
  else if num.toNat < 2 ^ 42 then 6
  else if num.toNat < 2 ^ 49 then 7
  else if num.toNat < 2 ^ 56 then 8
  else if num.toNat < 2 ^ 63 then 9
  else compressed64MaxByte

/-- `CompressUnsigned32`: the bytes it writes. Five groups of seven bits cover the type. -/
def compressUnsigned32 (num : UInt32) : List UInt8 := encode compressed32MaxByte num.toNat

/-- `CompressUnsigned64`: the bytes it writes. -/
def compressUnsigned64 (num : UInt64) : List UInt8 := encode compressed64MaxByte num.toNat

/-- `DecompressUnsigned32`: the number and the bytes after it. -/
def decompressUnsigned32 (buf : List UInt8) : UInt32 × List UInt8 :=
  let decoded := decode 32 compressed32MaxByte buf
  (UInt32.ofNat decoded.1, buf.drop decoded.2)

/-- `DecompressUnsigned64`: the number and the bytes after it. -/
def decompressUnsigned64 (buf : List UInt8) : UInt64 × List UInt8 :=
  let decoded := decode 64 compressed64MaxByte buf
  (ofNat decoded.1, buf.drop decoded.2)

@[simp] lemma decompress_compressUnsigned32 (num : UInt32) (rest : List UInt8) :
    decompressUnsigned32 (compressUnsigned32 num ++ rest) = (num, rest) := by
  have hlt : num.toNat < 2 ^ 32 := num.toNat_lt
  rw [decompressUnsigned32, compressUnsigned32, decode_encode rest (by decide)
    (lt_of_lt_of_le hlt (by decide)) hlt]
  simp

@[simp] lemma decompress_compressUnsigned64 (num : UInt64) (rest : List UInt8) :
    decompressUnsigned64 (compressUnsigned64 num ++ rest) = (num, rest) := by
  have hlt : num.toNat < 2 ^ 64 := num.toNat_lt
  rw [decompressUnsigned64, compressUnsigned64, decode_encode rest (by decide)
    (lt_of_lt_of_le hlt (by decide)) hlt]
  simp

/-- A number needs at most `k` bytes exactly if it has at most `7 * k` bits. -/
lemma encode_length_iff {fuel num : ℕ} (hnum : num < 128 ^ fuel) (k : ℕ) (hk : 0 < k) :
    (encode fuel num).length ≤ k ↔ num < 2 ^ (7 * k) := by
  rw [encode_length_le_iff hnum hk, pow_mul]
  norm_num

@[simp] lemma compressUnsigned32_length (num : UInt32) :
    (compressUnsigned32 num).length = getUnsigned32CompressedSize num := by
  have hlt : num.toNat < 2 ^ 32 := num.toNat_lt
  have hiff := encode_length_iff (lt_of_lt_of_le hlt (show 2 ^ 32 ≤ 128 ^ 5 by decide))
  have hpos : 0 < (encode 5 num.toNat).length := encode_length_pos (by decide)
  have h1 := hiff 1 (by decide)
  have h2 := hiff 2 (by decide)
  have h3 := hiff 3 (by decide)
  have h4 := hiff 4 (by decide)
  have h5 := hiff 5 (by decide)
  unfold compressUnsigned32 getUnsigned32CompressedSize compressed32MaxByte
  split_ifs <;> omega

@[simp] lemma compressUnsigned64_length (num : UInt64) :
    (compressUnsigned64 num).length = getUnsigned64CompressedSize num := by
  have hlt : num.toNat < 2 ^ 64 := num.toNat_lt
  have hiff := encode_length_iff (lt_of_lt_of_le hlt (show 2 ^ 64 ≤ 128 ^ 10 by decide))
  have hpos : 0 < (encode 10 num.toNat).length := encode_length_pos (by decide)
  have h1 := hiff 1 (by decide)
  have h2 := hiff 2 (by decide)
  have h3 := hiff 3 (by decide)
  have h4 := hiff 4 (by decide)
  have h5 := hiff 5 (by decide)
  have h6 := hiff 6 (by decide)
  have h7 := hiff 7 (by decide)
  have h8 := hiff 8 (by decide)
  have h9 := hiff 9 (by decide)
  have h10 := hiff 10 (by decide)
  unfold compressUnsigned64 getUnsigned64CompressedSize getUnsigned32CompressedSize
    compressed64MaxByte compressed32MaxByte
  rw [toNat_toUInt32]
  split_ifs <;> omega

/-- The `size` that `DecompressUnsigned32` reports; bytes behind the buffer read as 0. -/
def decompressUnsigned32Size (buf : List UInt8) : ℕ := (decode 32 compressed32MaxByte buf).2

/-- The `size` that `DecompressUnsigned64` reports. -/
def decompressUnsigned64Size (buf : List UInt8) : ℕ := (decode 64 compressed64MaxByte buf).2

/-- One of the first `maxByte` bytes has no high bit. -/
def Terminated (maxByte : ℕ) (buf : List UInt8) : Prop := ∃ i < maxByte, (buf.getD i 0).toNat < 128

/-- The codec gets numbers back with their sizes, and the reported size of any buffer is in bounds
exactly if the buffer is terminated. -/
theorem varint_codec_iff (num32 : UInt32) (num64 : UInt64) (rest buf : List UInt8) :
    ((decompressUnsigned32 (compressUnsigned32 num32 ++ rest)).1 = num32 ∧
        decompressUnsigned32Size (compressUnsigned32 num32 ++ rest) =
          getUnsigned32CompressedSize num32 ∧
        decompressUnsigned32Size buf ≤ compressed32MaxByte ↔ Terminated compressed32MaxByte buf) ∧
      ((decompressUnsigned64 (compressUnsigned64 num64 ++ rest)).1 = num64 ∧
        decompressUnsigned64Size (compressUnsigned64 num64 ++ rest) =
          getUnsigned64CompressedSize num64 ∧
        decompressUnsigned64Size buf ≤ compressed64MaxByte ↔
          Terminated compressed64MaxByte buf) := by
  have hsize : ∀ w maxByte,
      (decode w maxByte buf).2 ≤ maxByte ↔ ∃ i < maxByte, (buf.getD i 0).toNat < 128 := by
    intro w maxByte
    have hloop : (decode w maxByte buf).2 ≤ 0 + maxByte ↔ _ := decodeLoop_consumed_le_iff
    rwa [Nat.zero_add] at hloop
  have hlt32 : num32.toNat < 2 ^ 32 := num32.toNat_lt
  have hlt64 : num64.toNat < 2 ^ 64 := num64.toNat_lt
  constructor
  · rw [decompress_compressUnsigned32, ← compressUnsigned32_length, decompressUnsigned32Size,
      compressUnsigned32, decode_encode rest (by decide) (lt_of_lt_of_le hlt32 (by decide)) hlt32,
      and_iff_right rfl, and_iff_right rfl]
    exact hsize 32 compressed32MaxByte
  · rw [decompress_compressUnsigned64, ← compressUnsigned64_length, decompressUnsigned64Size,
      compressUnsigned64, decode_encode rest (by decide) (lt_of_lt_of_le hlt64 (by decide)) hlt64,
      and_iff_right rfl, and_iff_right rfl]
    exact hsize 64 compressed64MaxByte

/-- Five bytes with the high bit set are reported as six. -/
theorem decompressUnsigned32Size_unterminated :
    ¬ decompressUnsigned32Size (List.replicate 5 0xFF) ≤ compressed32MaxByte := by
  decide

lemma getUnsigned32CompressedSize_le (num : UInt32) : getUnsigned32CompressedSize num ≤ 5 := by
  unfold getUnsigned32CompressedSize compressed32MaxByte
  split_ifs <;> omega

lemma getUnsigned64CompressedSize_le (num : UInt64) : getUnsigned64CompressedSize num ≤ 10 := by
  have hsmall := getUnsigned32CompressedSize_le num.toUInt32
  unfold getUnsigned64CompressedSize compressed64MaxByte
  split_ifs <;> omega

/-- Only numbers of 50 to 56 bits take eight bytes. -/
lemma getUnsigned64CompressedSize_eq_eight (num : UInt64) :
    getUnsigned64CompressedSize num = 8 ↔ 2 ^ 49 ≤ num.toNat ∧ num.toNat < 2 ^ 56 := by
  have hsmall := getUnsigned32CompressedSize_le num.toUInt32
  unfold getUnsigned64CompressedSize compressed64MaxByte
  split_ifs <;> omega

end VarintCompress

open VarintCompress

/-! ## Pointers -/

namespace ItemPointerData

/-- `ItemPointerData::GetCompressedSize`. -/
def getCompressedSize (ptr : ItemPointerData) : ℕ :=
  getUnsigned32CompressedSize ptr.pageId.fileId.toUInt32 +
    getUnsigned32CompressedSize ptr.pageId.blockId +
    getUnsigned32CompressedSize ptr.offset.toUInt32

/-- `ItemPointerData::Serialize`: the bytes it writes. -/
def serialize (ptr : ItemPointerData) : List UInt8 :=
  compressUnsigned32 ptr.pageId.fileId.toUInt32 ++
    (compressUnsigned32 ptr.pageId.blockId ++
      compressUnsigned32 ptr.offset.toUInt32)

/-- `ItemPointerData::Deserialize`: the pointer and the bytes after it. -/
def deserialize (data : List UInt8) : ItemPointerData × List UInt8 :=
  let (fileId, data) := decompressUnsigned32 data
  let (blockId, data) := decompressUnsigned32 data
  let (offset, data) := decompressUnsigned32 data
  (⟨⟨fileId.toUInt16, blockId⟩, offset.toUInt16⟩, data)

@[simp] lemma serialize_length (ptr : ItemPointerData) :
    ptr.serialize.length = ptr.getCompressedSize := by
  simp only [serialize, getCompressedSize, List.length_append,
    compressUnsigned32_length]
  omega

@[simp] lemma deserialize_serialize (ptr : ItemPointerData) (rest : List UInt8) :
    deserialize (ptr.serialize ++ rest) = (ptr, rest) := by
  simp [deserialize, serialize]

lemma getCompressedSize_le (ptr : ItemPointerData) : ptr.getCompressedSize ≤ 15 := by
  have hfile := getUnsigned32CompressedSize_le ptr.pageId.fileId.toUInt32
  have hblock := getUnsigned32CompressedSize_le ptr.pageId.blockId
  have hoffset := getUnsigned32CompressedSize_le ptr.offset.toUInt32
  unfold getCompressedSize
  omega

end ItemPointerData

/-! ## Transaction ids -/

/-- `Xid::m_logicSlotId`. -/
def Xid.logicSlotId (xid : Xid) : ℕ := xid.toNat / 2 ^ 20

/-- `Xid(zoneId, slotId)`: the bit fields truncate. -/
def Xid.ofParts (zoneId slotId : UInt64) : Xid :=
  ofNat (zoneId.toNat % 2 ^ 20 + 2 ^ 20 * (slotId.toNat % 2 ^ 44))

/-- An xid is made of its zone and its slot id. -/
lemma Xid.ofParts_parts (xid : Xid) :
    ofParts (ofNat (zoneId xid)) (ofNat (logicSlotId xid)) = xid := by
  have hlt : xid.toNat < 2 ^ 64 := xid.toNat_lt
  have hzone : zoneId xid < 2 ^ 20 := Nat.mod_lt _ (by decide)
  have hslot : logicSlotId xid < 2 ^ 44 := by
    unfold logicSlotId
    omega
  apply UInt64.toNat_inj.mp
  rw [ofParts, toNat_ofNat', toNat_ofNat', toNat_ofNat',
    Nat.mod_eq_of_lt (show zoneId xid < 2 ^ 64 by omega),
    Nat.mod_eq_of_lt (show logicSlotId xid < 2 ^ 64 by omega),
    Nat.mod_eq_of_lt hzone, Nat.mod_eq_of_lt hslot]
  unfold zoneId logicSlotId
  omega

/-! ## Headers -/

/-- `UndoType`. -/
inductive UndoType where
  | heapInsert
  | heapBatchInsert
  | heapDelete
  | heapInplaceUpdate
  | heapSamePageAppendUpdate
  | heapAnotherPageAppendUpdateOldPage
  | heapAnotherPageAppendUpdateNewPage
  | heapBound
  | btreeInsert
  | btreeDelete
  | btreeBound
  | heapInsertTmp
  | heapBatchInsertTmp
  | heapDeleteTmp
  | heapInplaceUpdateTmp
  | heapSamePageAppendUpdateTmp
  | heapAnotherPageAppendUpdateOldPageTmp
  | heapAnotherPageAppendUpdateNewPageTmp
  | heapBoundTmp
  | btreeInsertTmp
  | btreeDeleteTmp
  | btreeBoundTmp
  | unknown
deriving DecidableEq, Repr

/-- The enumerators of `UndoType` in the order of their values. -/
def UndoType.values : List UndoType :=
  [heapInsert, heapBatchInsert, heapDelete, heapInplaceUpdate, heapSamePageAppendUpdate,
    heapAnotherPageAppendUpdateOldPage, heapAnotherPageAppendUpdateNewPage, heapBound,
    btreeInsert, btreeDelete, btreeBound, heapInsertTmp, heapBatchInsertTmp, heapDeleteTmp,
    heapInplaceUpdateTmp, heapSamePageAppendUpdateTmp, heapAnotherPageAppendUpdateOldPageTmp,
    heapAnotherPageAppendUpdateNewPageTmp, heapBoundTmp, btreeInsertTmp, btreeDeleteTmp,
    btreeBoundTmp, unknown]

/-- The byte of an undo type. -/
def UndoType.toByte (type : UndoType) : UInt8 := UInt8.ofNat (values.idxOf type)

/-- The undo type of a byte; bytes that are no enumerator are not told apart. -/
def UndoType.ofByte (byte : UInt8) : UndoType := values.getD byte.toNat unknown

@[simp] lemma UndoType.ofByte_toByte (type : UndoType) : ofByte type.toByte = type := by
  cases type <;> rfl

/-- The byte of a csn status. -/
def TdCsnStatus.toByte : TdCsnStatus → UInt8
  | isInvalid => 0
  | isPrevXidCsn => 1
  | isCurXidCsn => 2

/-- The csn status of a byte; bytes that are no enumerator are not told apart. -/
def TdCsnStatus.ofByte (byte : UInt8) : TdCsnStatus :=
  if byte = 1 then isPrevXidCsn else if byte = 2 then isCurXidCsn else isInvalid

@[simp] lemma TdCsnStatus.ofByte_toByte (status : TdCsnStatus) : ofByte status.toByte = status := by
  cases status <;> rfl

/-- `UndoTdInfo`. -/
structure UndoTdInfo where
  undoRecPtr : UndoRecPtr
  xid : Xid
  csn : UInt64
  tdId : UInt8
  csnStatus : TdCsnStatus
deriving DecidableEq, Repr

/-- `UndoRecordHeader`. -/
structure UndoRecordHeader where
  undoType : UndoType
  cid : UInt32
  tdPreInfo : UndoTdInfo
  txnPreUndoPtr : UndoRecPtr
  ctid : ItemPointerData
  fileVersion : UInt64
deriving DecidableEq, Repr

/-- `INVALID_FILE_VERSION`. -/
def invalidFileVersion : UInt64 := 0xFFFFFFFFFFFFFFFF

namespace UndoRecordHeader

variable (header : UndoRecordHeader)

/-- `UndoRecord::GetCompressedSize`, where `serializeSize` is `m_serializeSize`: once set, it is
the answer. The result is a `uint8`. -/
def getCompressedSize (serializeSize : ℕ) : ℕ :=
  if serializeSize ≠ 0 then serializeSize
  else
    -- `sizeof(GetUndoType())`
    (1 + getUnsigned32CompressedSize header.cid +
      header.tdPreInfo.undoRecPtr.getCompressedSize +
      getUnsigned64CompressedSize (ofNat (zoneId header.tdPreInfo.xid)) +
      getUnsigned64CompressedSize
        (ofNat (logicSlotId header.tdPreInfo.xid)) +
      getUnsigned64CompressedSize header.tdPreInfo.csn +
      -- `sizeof(GetTdId())`
      1 +
      -- `sizeof(GetTdPreCsnStatus())`
      1 +
      header.txnPreUndoPtr.getCompressedSize + header.ctid.getCompressedSize +
      -- `sizeof(GetFileVersion())`
      8 +
      -- `sizeof(m_serializeSize)`
      1) % 2 ^ 8

/-- The bytes `UndoRecord::Serialize` writes, for the size `serializeSize`. -/
def serializeBytes (serializeSize : ℕ) : List UInt8 :=
  UInt8.ofNat serializeSize :: header.undoType.toByte ::
    (compressUnsigned32 header.cid ++
    (header.tdPreInfo.undoRecPtr.serialize ++
    (compressUnsigned64 (ofNat (zoneId header.tdPreInfo.xid)) ++
    (compressUnsigned64 (ofNat (logicSlotId header.tdPreInfo.xid)) ++
    (compressUnsigned64 header.tdPreInfo.csn ++
    (header.tdPreInfo.tdId :: header.tdPreInfo.csnStatus.toByte ::
    (header.txnPreUndoPtr.serialize ++
    (header.ctid.serialize ++ compressUnsigned64 header.fileVersion))))))))

/-- `UndoRecord::Serialize` of a record that has not been serialized yet, over the old content
`context` of the thread's undo context. -/
def serialize (context : List UInt8) : List UInt8 :=
  let bytes := header.serializeBytes (header.getCompressedSize 0)
  bytes ++ context.drop bytes.length

/-- `UndoRecord::Deserialize`. -/
def deserialize (data : List UInt8) : UndoRecordHeader :=
  let data := data.drop 1
  let undoType := UndoType.ofByte (data.headD 0)
  let data := data.drop 1
  let (cid, data) := decompressUnsigned32 data
  let (undoRecPtr, data) := ItemPointerData.deserialize data
  let (zoneId, data) := decompressUnsigned64 data
  let (slotId, data) := decompressUnsigned64 data
  let (csn, data) := decompressUnsigned64 data
  let tdId := data.headD 0
  let data := data.drop 1
  let csnStatus := TdCsnStatus.ofByte (data.headD 0)
  let data := data.drop 1
  let (txnPreUndoPtr, data) := ItemPointerData.deserialize data
  let (ctid, data) := ItemPointerData.deserialize data
  let (fileVersion, _) := decompressUnsigned64 data
  { undoType := undoType
    cid := cid
    tdPreInfo := ⟨undoRecPtr, ofParts zoneId slotId, csn, tdId, csnStatus⟩
    txnPreUndoPtr := txnPreUndoPtr
    ctid := ctid
    fileVersion := fileVersion }

/-- The size is counted with eight bytes for the file version. -/
lemma serializeBytes_length (serializeSize : ℕ) :
    (header.serializeBytes serializeSize).length + 8 =
      header.getCompressedSize 0 +
        getUnsigned64CompressedSize header.fileVersion := by
  have hcid := getUnsigned32CompressedSize_le header.cid
  have hptr := header.tdPreInfo.undoRecPtr.getCompressedSize_le
  have hzone := getUnsigned64CompressedSize_le
    (ofNat (zoneId header.tdPreInfo.xid))
  have hslot := getUnsigned64CompressedSize_le
    (ofNat (logicSlotId header.tdPreInfo.xid))
  have hcsn := getUnsigned64CompressedSize_le header.tdPreInfo.csn
  have htxn := header.txnPreUndoPtr.getCompressedSize_le
  have hctid := header.ctid.getCompressedSize_le
  -- the sum of all sizes is far from overflowing the `uint8`
  unfold serializeBytes getCompressedSize
  simp only [List.length_cons, List.length_append, compressUnsigned32_length,
    compressUnsigned64_length, ItemPointerData.serialize_length]
  rw [if_neg (by decide), Nat.mod_eq_of_lt (by omega)]
  omega

end UndoRecordHeader

open UndoRecordHeader in
/-- `Serialize` writes as many bytes as it stores as size, and the header comes back from those
bytes whatever follows them, exactly when the file version takes eight bytes. -/
theorem undo_header_round_trip_iff (header : UndoRecordHeader) :
    ((header.serializeBytes (header.getCompressedSize 0)).length = header.getCompressedSize 0 ∧
      ∀ context rest, deserialize
        ((header.serialize context).take (header.getCompressedSize 0) ++ rest) = header) ↔
    2 ^ 49 ≤ header.fileVersion.toNat ∧ header.fileVersion.toNat < 2 ^ 56 := by
  have hlength := header.serializeBytes_length (header.getCompressedSize 0)
  rw [← getUnsigned64CompressedSize_eq_eight]
  constructor
  · rintro ⟨hsize, -⟩
    omega
  · intro height
    have hsize : (header.serializeBytes (header.getCompressedSize 0)).length =
        header.getCompressedSize 0 := by omega
    refine ⟨hsize, fun context rest => ?_⟩
    have htake : (header.serialize context).take (header.getCompressedSize 0) =
        header.serializeBytes (header.getCompressedSize 0) := by
      unfold UndoRecordHeader.serialize
      exact List.take_left' hsize
    rw [htake]
    simp [deserialize, serializeBytes, ofParts_parts]

/-- A header as the constructor of `UndoRecord` makes it for an insert into an unused TD. -/
def insertHeader : UndoRecordHeader where
  undoType := .heapInsert
  cid := 0
  tdPreInfo := ⟨invalidUndoRecPtr, invalidXid, 0, 0, .isInvalid⟩
  txnPreUndoPtr := invalidUndoRecPtr
  ctid := ⟨⟨1, 1⟩, 1⟩
  fileVersion := invalidFileVersion

open UndoRecordHeader in
/-- Such a header takes two bytes more than the size says, and the file version read back depends
on what follows. -/
theorem insert_header_truncated :
    (insertHeader.serializeBytes (insertHeader.getCompressedSize 0)).length =
        insertHeader.getCompressedSize 0 + 2 ∧
      deserialize ((insertHeader.serialize []).take (insertHeader.getCompressedSize 0) ++ [0]) ≠
        insertHeader := by
  decide +kernel

end DStore
