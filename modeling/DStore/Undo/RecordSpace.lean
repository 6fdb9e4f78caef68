import DStore.Undo.PageRing
import DStore.Undo.RecordHeader

/-!
# Undo records on the page ring

`InsertUndoRecord` writes a record from the append position on and goes on to the next page where
the content of a page ends; `ReadUndoRecord` follows the same links, and `GetNextUndoRecPtr` tells
where a record of a given size ends. Along the ring the content of the pages is one stream of
bytes, and the three agree on the positions in it.
-/

namespace DStore

/-! ## Records and the thread's undo context -/

/-- `UndoRecord` with its payload `m_dataInfo` as bytes, before it is serialized. -/
structure RawUndoRecord where
  header : UndoRecordHeader
  dataInfo : List UInt8
deriving DecidableEq, Repr

/-- `UndoRecord::GetRecordSize`. -/
def RawUndoRecord.getRecordSize (record : RawUndoRecord) : ℕ :=
  record.header.getCompressedSize 0 + 4 + record.dataInfo.length

/-- The undo context of a thread, a buffer of `BLCKSZ` bytes. -/
structure UndoContext where
  bytes : List UInt8
  length_eq : bytes.length = 8192

/-- The bytes of an `int`. -/
def intBytes (n : ℕ) : List UInt8 := (ByteMem.writeLE (fun _ => 0) 0 4 n).load 0 4

/-- The `int` in the first four bytes. -/
def intOfBytes (bs : List UInt8) : ℕ := ByteMem.readLE (ByteMem.ofBytes bs) 0 4

/-- `IsGlobalTempTableUndoRec`. -/
def UndoType.isGlobalTempTable (type : UndoType) : Bool :=
  UndoType.heapInsertTmp.toByte ≤ type.toByte && type.toByte < UndoType.btreeBoundTmp.toByte

/-- The three parts `WriteUndoRecord` writes: the serialized header as far as its size says, the
length of the payload and the payload. -/
def RawUndoRecord.segments (record : RawUndoRecord) (context : UndoContext) : List (List UInt8) :=
  [(record.header.serialize context.bytes).take (record.header.getCompressedSize 0),
    intBytes record.dataInfo.length, record.dataInfo]

/-- The bytes of the record on the pages. -/
def RawUndoRecord.stored (record : RawUndoRecord) (context : UndoContext) : List UInt8 :=
  (record.segments context).flatten

/-! ## Writing -/

/-- The locals of `WriteUndoRecord` and the page it writes. -/
structure UndoWrite where
  page : ByteMem
  writePtr : ℕ
  myBytesWritten : ℕ
  alreadyWritten : ℕ

/-- `UndoZone::InsertUndoBytes`. -/
def insertUndoBytes (src : List UInt8) (st : UndoWrite) : UndoWrite × Bool :=
  if src.length ≤ st.myBytesWritten then
    ({ st with myBytesWritten := st.myBytesWritten - src.length }, true)
  else
    let remaining := src.length - st.myBytesWritten
    let maxWriteOnCurPage := 8192 - st.writePtr
    let canWriteBytes := min remaining maxWriteOnCurPage
    if canWriteBytes = 0 then (st, false)
    else
      ({ page := st.page.blit st.writePtr (ByteMem.ofBytes src) st.myBytesWritten canWriteBytes
         writePtr := st.writePtr + canWriteBytes
         myBytesWritten := 0
         alreadyWritten := st.alreadyWritten + canWriteBytes },
        canWriteBytes == remaining)

/-- The calls of `InsertUndoBytes` in `WriteUndoRecord`, up to the first that does not finish. -/
def insertSegments : List (List UInt8) → UndoWrite → UndoWrite × Bool
  | [], st => (st, true)
  | src :: rest, st =>
    match insertUndoBytes src st with
    | (st, false) => (st, false)
    | (st, true) => insertSegments rest st

/-- `UndoZone::WriteUndoRecord`. -/
def writeUndoRecord (segments : List (List UInt8)) (page : ByteMem)
    (startingByte alreadyWritten : ℕ) : UndoWrite × Bool :=
  insertSegments segments ⟨page, startingByte, alreadyWritten, alreadyWritten⟩

/-- How the calls inside one `InsertUndoRecord` go: the old content of the undo context, whether
the append page can be read and locked, and whether there is a buffer for the log record of the
`i`-th page written. -/
structure InsertEnv where
  context : UndoContext
  pageOk : Bool
  walOk : ℕ → Bool

/-- A range of bytes of one page. -/
structure ByteRange where
  pageId : PageId
  offset : ℕ
  size : ℕ
deriving DecidableEq, Repr

/-- What `InsertUndoRecord` leaves: the zone, the pointer it returns and the bytes it has
written. -/
structure InsertResult where
  zone : UndoZone
  undoRecPtr : UndoRecPtr
  written : List ByteRange

/-- The loop of `InsertUndoRecord` for the record at `recPtr`, with `checkPageId` the need-check
page of the start. The pages it goes through are not bounded by the code. -/
def insertLoop (record : RawUndoRecord) (env : InsertEnv) (recPtr : UndoRecPtr)
    (checkPageId : PageId) :
    ℕ → ℕ → Bool → UndoZone → PageId → ℕ → ℕ → List ByteRange → Option InsertResult
  | 0, _, _, _, _, _, _, _ => none
  | fuel + 1, i, walFinished, zone, curId, startingByte, alreadyCopyPre, written =>
    let result := writeUndoRecord (record.segments env.context) (zone.pages.mem curId)
      startingByte alreadyCopyPre
    let alreadyCopy := result.1.alreadyWritten
    let zone := { zone with
      pages := Function.update zone.pages curId { zone.pages curId with data := result.1.page } }
    let written := written ++ [⟨curId, startingByte, alreadyCopy - alreadyCopyPre⟩]
    if (!walFinished && !env.walOk i) = true then
      some
        { zone := { zone with nextAppendUndoPtr := recPtr, needCheckPageId := checkPageId }
          undoRecPtr := invalidUndoRecPtr
          written := written }
    else if result.2 = true then
      let nextPageId := zone.pages.next curId
      let recordEndOffset := (recPtr.offset.toNat - undoRecordPageHeaderSize + alreadyCopy) %
        undoRecordPageMaxFreeSpace
      -- the record ends with the page
      let zone :=
        if recordEndOffset = 0 then
          { zone with
            nextAppendUndoPtr := ⟨nextPageId, UInt16.ofNat undoRecordPageHeaderSize⟩
            needCheckPageId := zone.pages.next nextPageId }
        else zone
      some
        { zone := { zone with
            nextAppendUndoPtr := ⟨zone.nextAppendUndoPtr.pageId,
              UInt16.ofNat (recordEndOffset + undoRecordPageHeaderSize)⟩ }
          undoRecPtr := recPtr
          written := written }
    else
      let nextPageId := zone.pages.next curId
      -- `globalTempTableUndoWalSize`: the log of a temporary table's record ends with the length
      let walFinished := walFinished || (record.header.undoType.isGlobalTempTable &&
        decide ((record.header.getCompressedSize 0 + 4) % 2 ^ 8 ≤ alreadyCopy))
      insertLoop record env recPtr checkPageId fuel (i + 1) walFinished
        { zone with
          nextAppendUndoPtr := ⟨nextPageId, UInt16.ofNat undoRecordPageHeaderSize⟩
          needCheckPageId := zone.pages.next nextPageId }
        nextPageId undoRecordPageHeaderSize alreadyCopy written

/-- `UndoZone::InsertUndoRecord`. Every page but the first takes at least one byte. -/
def UndoZone.insertUndoRecord (zone : UndoZone) (record : RawUndoRecord) (env : InsertEnv) :
    Option InsertResult :=
  if env.pageOk = false then some ⟨zone, invalidUndoRecPtr, []⟩
  else
    insertLoop record env zone.nextAppendUndoPtr zone.needCheckPageId
      (record.getRecordSize + 1) 0 false zone zone.nextAppendUndoPtr.pageId
      zone.nextAppendUndoPtr.offset.toNat 0 []

/-! ## Reading -/

/-- `ReadUndoBytesStream` with the calls of `ReadUndoBytes` inside: `size` bytes from byte
`startingByte` of page `curId` on, after those in `dest`. It answers the bytes, and the page and
the byte on it where the next read starts. -/
def readUndoBytesStream (pages : UndoPages) (size : ℕ) :
    ℕ → PageId → ℕ → List UInt8 → Option (List UInt8 × PageId × ℕ)
  | 0, _, _, _ => none
  | fuel + 1, curId, readPtr, dest =>
    if size ≤ dest.length then some (dest, curId, readPtr)
    else
      let remaining := size - dest.length
      let canReadBytes := min remaining (8192 - readPtr)
      if canReadBytes = remaining then
        some (dest ++ (pages.mem curId).load readPtr canReadBytes, curId, readPtr + canReadBytes)
      else
        readUndoBytesStream pages size fuel (pages.next curId) undoRecordPageHeaderSize
          (dest ++ (pages.mem curId).load readPtr canReadBytes)

/-- `UndoZone::ReadUndoRecord` by a thread with the given undo context. The header is
deserialized in the context, over what was there. -/
def UndoPages.readUndoRecord (pages : UndoPages) (undoRecPtr : UndoRecPtr)
    (context : UndoContext) : Option (RawUndoRecord × ℕ) :=
  match readUndoBytesStream pages 1 3 undoRecPtr.pageId undoRecPtr.offset.toNat [] with
  | none => none
  | some (sizeByte, p, o) =>
    let serializeSize := (sizeByte.headD 0).toNat
    match readUndoBytesStream pages (serializeSize - 1) (serializeSize + 1) p o [] with
    | none => none
    | some (rest, p, o) =>
      let serializeData := sizeByte ++ rest
      let header := UndoRecordHeader.deserialize
        (serializeData ++ context.bytes.drop serializeData.length)
      match readUndoBytesStream pages 4 6 p o [] with
      | none => none
      | some (len, p, o) =>
        let undoDataSize := intOfBytes len % 2 ^ 16
        match readUndoBytesStream pages undoDataSize (undoDataSize + 2) p o [] with
        | none => none
        | some (data, _, _) =>
          -- the record and `GetRecordSize` of it
          some (⟨header, data⟩, serializeSize + 4 + intOfBytes len)

/-- The page `count` links further. -/
def UndoPages.follow (pages : UndoPages) : ℕ → PageId → PageId
  | 0, p => p
  | count + 1, p => pages.follow count (pages.next p)

/-- `UndoZone::GetNextUndoRecPtr`. -/
def UndoPages.getNextUndoRecPtr (pages : UndoPages) (curPtr : UndoRecPtr) (recordSize : ℕ) :
    UndoRecPtr :=
  if curPtr.offset.toNat + recordSize < 8192 then
    { curPtr with offset := UInt16.ofNat (curPtr.offset.toNat + recordSize) }
  else
    let dataOffset := curPtr.offset.toNat - undoRecordPageHeaderSize
    let pageCnt := (dataOffset + recordSize) / undoRecordPageMaxFreeSpace
    ⟨pages.follow pageCnt curPtr.pageId,
      UInt16.ofNat ((dataOffset + recordSize) % undoRecordPageMaxFreeSpace +
        undoRecordPageHeaderSize)⟩

end DStore
