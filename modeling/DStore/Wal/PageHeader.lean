import DStore.Undo.RecordHeader
import DStore.Undo.TxnSlot
import DStore.Wal.WalType

/-!
# The header of page records in the log

`WalRecordForPage` is the header of every record for one page. The writer stores it compressed:
`Compress` writes integers as variable-length integers and leaves out a file version that is
excluded. `Decompress` is its inverse, and two readers pick single fields out of the stored form.
-/

namespace DStore

open UInt16 List

/-- `EXCLUDED_FILE_VERSION`. -/
def excludedFileVersion : UInt64 := 1

/-- `WalRecord`. -/
structure WalRecord where
  size : UInt16
  type : WalType
deriving DecidableEq, Repr

/-- `sizeof(WalRecord)`. -/
def walRecordSize : ℕ := 4

/-- `WalRecordForPage`; `flags` is the placeholder byte of `m_flags`. -/
structure WalRecordForPage extends WalRecord where
  pageId : PageId
  flags : UInt8
  pagePreWalId : WalId
  pagePrePlsn : UInt64
  pagePreGlsn : UInt64
  filePreVersion : UInt64
deriving DecidableEq, Repr

/-- `sizeof(WalRecordForPage)`. -/
def walRecordForPageSize : ℕ := 43

/-- `WalRecordForPageOnDisk`: the bytes after the `WalRecord`, up to the end of the record. -/
structure WalRecordForPageOnDisk extends WalRecord where
  compressData : List UInt8
deriving DecidableEq, Repr

/-- `m_flag.containFileVersionFlag` of a flag byte. -/
def containFileVersionFlag (flags : UInt8) : Bool := flags.toNat.testBit 5

/-- Bytes of memory as a little-endian number. -/
def leNat : List UInt8 → ℕ
  | [] => 0
  | byte :: bytes => byte.toNat + 256 * leNat bytes

open VarintCompress

namespace WalRecordForPage

variable (record : WalRecordForPage)

/-- The bytes `Compress` writes after the `WalRecord`. -/
def compressData : List UInt8 :=
  compressUnsigned32 record.pageId.fileId.toUInt32 ++
    (compressUnsigned32 record.pageId.blockId ++
      ([record.flags] ++
        (compressUnsigned64 record.pagePreWalId ++
          (compressUnsigned64 record.pagePrePlsn ++
            (compressUnsigned64 record.pagePreGlsn ++
              (if containFileVersionFlag record.flags then
                compressUnsigned64 record.filePreVersion else []))))))

/-- `Compress`: what it writes and the length it returns; `none` when the process stops. -/
def compress : Option (WalRecordForPageOnDisk × UInt16) :=
  if record.size.toNat < walRecordForPageSize then none
  else some (⟨record.toWalRecord, record.compressData⟩,
    ofNat (walRecordSize + record.compressData.length))

/-- `GetMaxCompressedSize`. -/
def getMaxCompressedSize : ℕ := (compressed32MaxByte - 4) * 2 + (compressed64MaxByte - 8) * 4

end WalRecordForPage

open WalRecordForPage

namespace WalRecordForPageOnDisk

/-- `WalRecordForPage::Decompress`: the header and the length of its stored form. -/
def decompress (orig : WalRecordForPageOnDisk) : WalRecordForPage × UInt16 :=
  let (fileId, rest) := decompressUnsigned32 orig.compressData
  let (blockId, rest) := decompressUnsigned32 rest
  let flags := rest.headD 0
  let (preWalId, rest) := decompressUnsigned64 rest.tail
  let (prePlsn, rest) := decompressUnsigned64 rest
  let (preGlsn, rest) := decompressUnsigned64 rest
  let (filePreVersion, rest) :=
    if containFileVersionFlag flags then decompressUnsigned64 rest
    else (excludedFileVersion, rest)
  let compressSize := ofNat (walRecordSize + (orig.compressData.length - rest.length))
  ({ size := orig.size - compressSize + ofNat walRecordForPageSize
     type := orig.type
     pageId := ⟨fileId.toUInt16, blockId⟩
     flags := flags
     pagePreWalId := preWalId
     pagePrePlsn := prePlsn
     pagePreGlsn := preGlsn
     filePreVersion := filePreVersion }, compressSize)

end WalRecordForPageOnDisk

/-- What follows the `WalRecord`, by type: the cases of the readers below. -/
inductive HeaderLayout where
  /-- An uncompressed `WalRecordForPage`. -/
  | page
  /-- The header of the records that initialise several pages, which starts with the version. -/
  | pages
  /-- The header of tablespace records, where the version follows the tablespace id. -/
  | tbsLogical
  | compressed
deriving DecidableEq, Repr

/-- The case of a type. -/
def WalType.headerLayout : WalType → HeaderLayout
  | .tbsInitOneDataPage | .tbsInitOneBitmapPage => .page
  | .tbsInitMultipleDataPages | .tbsInitBitmapPages => .pages
  | .tbsCreateTablespace | .tbsCreateDataFile | .tbsAddFileToTablespace | .tbsDropTablespace
  | .tbsDropDataFile | .tbsAlterTablespace => .tbsLogical
  | _ => .compressed

/-- Types that support compression are read with the compressed layout. -/
lemma WalType.headerLayout_of_isSupportCompress {type : WalType}
    (h : type.isSupportCompress) : type.headerLayout = .compressed := by
  cases type <;> first | rfl | cases h

namespace WalRecordForPageOnDisk

variable (record : WalRecordForPageOnDisk)

/-- `GetCompressedPageId`; `none` when the process stops. -/
def getCompressedPageId : Option PageId :=
  match record.type.headerLayout with
  | .page =>
    some ⟨ofNat (leNat (record.compressData.take 2)),
      UInt32.ofNat (leNat ((record.compressData.drop 2).take 4))⟩
  | .pages | .tbsLogical => none
  | .compressed =>
    let (fileId, rest) := decompressUnsigned32 record.compressData
    some ⟨fileId.toUInt16, (decompressUnsigned32 rest).1⟩

/-- `GetCompressedFilePreVersion`. -/
def getCompressedFilePreVersion : UInt64 :=
  match record.type.headerLayout with
  | .page => UInt64.ofNat (leNat ((record.compressData.drop 31).take 8))
  | .tbsLogical => UInt64.ofNat (leNat ((record.compressData.drop 2).take 8))
  | .pages => UInt64.ofNat (leNat (record.compressData.take 8))
  | .compressed =>
    let (_, rest) := decompressUnsigned32 record.compressData
    let (_, rest) := decompressUnsigned32 rest
    if containFileVersionFlag (rest.headD 0) then
      let (_, rest) := decompressUnsigned64 rest.tail
      let (_, rest) := decompressUnsigned64 rest
      let (_, rest) := decompressUnsigned64 rest
      (decompressUnsigned64 rest).1
    else excludedFileVersion

end WalRecordForPageOnDisk

open WalRecordForPageOnDisk

/-- The record that `CompressProcess` puts into the group: the compressed header, with the size
set for it, and the rest of the record. -/
def WalRecordForPage.compressProcess (record : WalRecordForPage) (payload : List UInt8) :
    Option WalRecordForPageOnDisk :=
  record.compress.map fun (disk, compressLen) =>
    { disk with
      size := ofNat (record.size.toNat - walRecordForPageSize) + compressLen
      compressData := disk.compressData ++ payload }

/-! ## Round trip -/

section RoundTrip

variable {record : WalRecordForPage} {payload : List UInt8}

/-- The compressed header is at most `GetMaxCompressedSize` longer than the header. -/
lemma WalRecordForPage.compressData_length_le (record : WalRecordForPage) :
    walRecordSize + record.compressData.length ≤
      walRecordForPageSize + getMaxCompressedSize := by
  have hfile := getUnsigned32CompressedSize_le record.pageId.fileId.toUInt32
  -- a file id has sixteen bits, so it takes two bytes less than a 32-bit number may take
  have hfile' : getUnsigned32CompressedSize record.pageId.fileId.toUInt32 ≤ 3 := by
    have hlt : record.pageId.fileId.toNat < 2 ^ 16 := record.pageId.fileId.toNat_lt
    unfold getUnsigned32CompressedSize
    rw [toNat_toUInt32]
    split_ifs <;> omega
  have hblock := getUnsigned32CompressedSize_le record.pageId.blockId
  have hwal := getUnsigned64CompressedSize_le record.pagePreWalId
  have hplsn := getUnsigned64CompressedSize_le record.pagePrePlsn
  have hglsn := getUnsigned64CompressedSize_le record.pagePreGlsn
  have hversion := getUnsigned64CompressedSize_le record.filePreVersion
  unfold compressData walRecordSize walRecordForPageSize getMaxCompressedSize
    compressed32MaxByte compressed64MaxByte
  split_ifs
  all_goals
    simp only [length_append, compressUnsigned32_length, compressUnsigned64_length,
      length_singleton, length_nil]
    omega

/-- The size is recovered although it wraps. -/
lemma size_cancel (size len : UInt16) (h : walRecordForPageSize ≤ size.toNat) :
    ofNat (size.toNat - walRecordForPageSize) + len - len +
      ofNat walRecordForPageSize = size := by
  rw [UInt16.add_sub_cancel, ← UInt16.ofNat_add, Nat.sub_add_cancel h]
  exact UInt16.ofNat_toNat

section

variable (hflag : containFileVersionFlag record.flags = false →
  record.filePreVersion = excludedFileVersion)
include hflag

/-- The file version is read back if its flag is set. -/
lemma decompress_version (payload : List UInt8) :
    let stored := (if containFileVersionFlag record.flags then
      compressUnsigned64 record.filePreVersion else []) ++ payload
    (if containFileVersionFlag record.flags then decompressUnsigned64 stored
      else (excludedFileVersion, stored)) = (record.filePreVersion, payload) := by
  cases hversion : containFileVersionFlag record.flags with
  | true => simp
  | false => simp [hflag hversion]

/-- The record that is stored is read back. -/
lemma decompress_stored (size : UInt16) :
    let len := ofNat (walRecordSize + record.compressData.length)
    (⟨⟨size, record.type⟩, record.compressData ++ payload⟩ :
        WalRecordForPageOnDisk).decompress =
      ({ record with size := size - len + ofNat walRecordForPageSize }, len) := by
  intro len
  have hfile : record.pageId.fileId.toUInt32.toUInt16 = record.pageId.fileId :=
    toUInt16_toUInt32 _
  have hversion := decompress_version hflag payload
  dsimp only at hversion
  -- the parser reads the fields off one by one and counts what it has read
  unfold decompress
  generalize hdata : record.compressData ++ payload = data
  have hlen : data.length - payload.length = record.compressData.length := by
    rw [← hdata, length_append, Nat.add_sub_cancel]
  simp only [WalRecordForPage.compressData, append_assoc, cons_append, nil_append] at hdata
  simp only [← hdata, decompress_compressUnsigned32, decompress_compressUnsigned64, headD_cons,
    tail_cons, hversion, hfile]
  rw [hdata, hlen]

end

/-- The two readers of the header agree with the whole decompression. -/
lemma getCompressed_eq_decompress (stored : WalRecordForPageOnDisk)
    (htype : stored.type.isSupportCompress) :
    stored.getCompressedPageId = some stored.decompress.1.pageId ∧
      stored.getCompressedFilePreVersion = stored.decompress.1.filePreVersion := by
  have hlayout := WalType.headerLayout_of_isSupportCompress htype
  constructor
  · rw [getCompressedPageId, hlayout]
    rfl
  · rw [getCompressedFilePreVersion, hlayout]
    unfold decompress
    dsimp only
    split_ifs <;> rfl

/-- Compressing a header and reading the record that is put into the group gives the header back,
and for the types the writer compresses the two readers of single fields agree with that. -/
theorem compressProcess_decompress (record : WalRecordForPage) (payload : List UInt8)
    (hsize : walRecordForPageSize ≤ record.size.toNat)
    (hflag : containFileVersionFlag record.flags = false →
      record.filePreVersion = excludedFileVersion) :
    ∃ disk compressLen stored, record.compress = some (disk, compressLen) ∧
      compressLen.toNat = walRecordSize + disk.compressData.length ∧
      compressLen.toNat ≤ walRecordForPageSize + WalRecordForPage.getMaxCompressedSize ∧
      record.compressProcess payload = some stored ∧
      stored.decompress = (record, compressLen) ∧
      (record.type.isSupportCompress = true →
        stored.getCompressedPageId = some record.pageId ∧
          stored.getCompressedFilePreVersion = record.filePreVersion) := by
  set len := walRecordSize + record.compressData.length with hlen
  have hle : len ≤ walRecordForPageSize + getMaxCompressedSize :=
    record.compressData_length_le
  have hlt : len < 2 ^ 16 := lt_of_le_of_lt hle (by decide)
  have hnat : (ofNat len).toNat = len := toNat_ofNat_of_lt' hlt
  have hcompress : record.compress =
      some (⟨record.toWalRecord, record.compressData⟩, ofNat len) :=
    if_neg (not_lt.mpr hsize)
  let size := ofNat (record.size.toNat - walRecordForPageSize) + ofNat len
  let stored : WalRecordForPageOnDisk := ⟨⟨size, record.type⟩, record.compressData ++ payload⟩
  have hstored : record.compressProcess payload = some stored := by
    rw [compressProcess, hcompress]
    rfl
  have hdecompress : stored.decompress = (record, ofNat len) := by
    rw [decompress_stored hflag size, ← hlen, size_cancel record.size (ofNat len) hsize]
  refine ⟨_, _, stored, hcompress, hnat, ?_, hstored, hdecompress, fun htype => ?_⟩
  · rwa [hnat]
  · have hreaders := getCompressed_eq_decompress stored htype
    rwa [hdecompress] at hreaders

/-- The header of an insert with a stored file version and the largest page id and log position. -/
theorem compressProcess_decompress_insert : let record : WalRecordForPage :=
      ⟨⟨45, .heapInsert⟩, ⟨0xFFFF, 0xFFFFFFFF⟩, 0x21, 3, 0xFFFFFFFFFFFFFFFF, 7, 2⟩
    walRecordForPageSize ≤ record.size.toNat ∧ record.type.isSupportCompress = true ∧
      containFileVersionFlag record.flags = true ∧
      ∃ disk compressLen stored, record.compress = some (disk, compressLen) ∧
        compressLen.toNat = walRecordSize + disk.compressData.length ∧
        compressLen.toNat ≤ walRecordForPageSize + getMaxCompressedSize ∧
        record.compressProcess [1, 2] = some stored ∧
        stored.decompress = (record, compressLen) ∧
        (record.type.isSupportCompress = true →
          stored.getCompressedPageId = some record.pageId ∧
            stored.getCompressedFilePreVersion = record.filePreVersion) :=
  ⟨by decide, rfl, rfl, compressProcess_decompress _ [1, 2] (by decide) fun h => nomatch h⟩

/-- A version that the flag byte does not announce is lost, and the readers of single fields take
records for the initialisation of one page as uncompressed. -/
theorem compressProcess_decompress_mismatch :
    (∃ (record : WalRecordForPage) (stored : WalRecordForPageOnDisk),
      walRecordForPageSize ≤ record.size.toNat ∧ record.type.isSupportCompress = true ∧
        record.compressProcess [] = some stored ∧
        stored.decompress.1.filePreVersion ≠ record.filePreVersion) ∧
      ∃ (record : WalRecordForPage) (stored : WalRecordForPageOnDisk),
        walRecordForPageSize ≤ record.size.toNat ∧
          containFileVersionFlag record.flags = true ∧
          record.compressProcess [] = some stored ∧
          stored.decompress.1.pageId = record.pageId ∧
          stored.getCompressedPageId ≠ some record.pageId := by
  constructor
  · exact ⟨⟨⟨43, .heapInsert⟩, ⟨1, 2⟩, 0, 3, 4, 5, 7⟩, _, by decide, rfl, rfl, by decide⟩
  · exact ⟨⟨⟨43, .tbsInitOneDataPage⟩, ⟨1, 2⟩, 0x20, 3, 4, 5, 7⟩, _, by decide, rfl, rfl,
      by decide, by decide⟩

end RoundTrip

end DStore
