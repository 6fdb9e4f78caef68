import DStore.Lib.LinkedRing
import DStore.Lib.PageStream
import DStore.Undo.Record

/-!
# The page ring of an undo zone

The undo pages of a zone form a ring through the links in their headers. `ExtendSpaceIfNeeded`
puts the pages of a new extent behind the page records are appended to; it changes the pages in
memory one by one, collecting a log record for each change, and drops the records if a buffer
cannot be read.
-/

namespace DStore

/-- `UNDO_RECORD_PAGE_HEADER_SIZE`: `sizeof(Page) + sizeof(UndoRecordPageHeader)`. -/
def undoRecordPageHeaderSize : ℕ := 42 + 22

/-- `UNDO_RECORD_PAGE_MAX_FREE_SPACE`. -/
def undoRecordPageMaxFreeSpace : ℕ := 8192 - undoRecordPageHeaderSize

/-- `UNDO_ZONE_EXTENT_SIZE`. -/
def undoZoneExtentSize : ℕ := 128

@[simp] lemma undoRecordPageHeaderSize_eq : undoRecordPageHeaderSize = 64 := rfl

@[simp] lemma undoRecordPageMaxFreeSpace_eq : undoRecordPageMaxFreeSpace = 8128 := rfl

@[simp] lemma undoZoneExtentSize_eq : undoZoneExtentSize = 128 := rfl

/-- `UndoRecordPageHeader`. -/
structure UndoRecordPageHeader where
  version : UInt32
  cur : PageId
  prev : PageId
  next : PageId
deriving DecidableEq, Repr

/-- `UndoRecordPage`: its own header and the bytes behind it, addressed from the page start. -/
structure UndoRecordPage where
  header : UndoRecordPageHeader
  data : ByteMem

/-- The undo pages by page id. -/
abbrev UndoPages := PageId → UndoRecordPage

namespace UndoPages

variable (pages : UndoPages)

/-- `GetNextPageId` of a page. -/
def next (p : PageId) : PageId := (pages p).header.next

/-- The link back. -/
def prev (p : PageId) : PageId := (pages p).header.prev

/-- The content of the pages. -/
def mem (p : PageId) : ByteMem := (pages p).data

/-- Change the link forward of one page. -/
def setNext (p q : PageId) : UndoPages :=
  Function.update pages p { pages p with header := { (pages p).header with next := q } }

/-- Change the link back of one page. -/
def setPrev (p q : PageId) : UndoPages :=
  Function.update pages p { pages p with header := { (pages p).header with prev := q } }

/-- Set the header of a new page; `InitUndoRecPage` clears everything else. -/
def setNew (header : UndoRecordPageHeader) : UndoPages :=
  Function.update pages header.cur { header := header, data := fun _ => 0 }

end UndoPages

/-- The log records of a ring extension: `WalRecordUndoRingOldPage` for the neighbours and
`WalRecordUndoRingNewPage`. -/
inductive UndoRingWal where
  | extendPageRingPrevPage (pageId adjacentPageId : PageId)
  | extendPageRingNextPage (pageId adjacentPageId : PageId)
  | extendPageRingNewPage (pageId prev next : PageId)
deriving DecidableEq, Repr

/-- `Redo` of the records. -/
def UndoRingWal.redo (pages : UndoPages) : UndoRingWal → UndoPages
  | .extendPageRingPrevPage pageId adjacentPageId => pages.setNext pageId adjacentPageId
  | .extendPageRingNextPage pageId adjacentPageId => pages.setPrev pageId adjacentPageId
  | .extendPageRingNewPage pageId prev next => pages.setNew ⟨0, pageId, prev, next⟩

/-- Replay of a log. -/
def redoUndoRing (pages : UndoPages) (wal : List UndoRingWal) : UndoPages :=
  wal.foldl UndoRingWal.redo pages

/-- The pages and the records collected since `BeginAtomicWal`. -/
structure RingWrite where
  pages : UndoPages
  wal : List UndoRingWal

/-- Page `i` after `firstFreePageId`. -/
def PageId.plus (p : PageId) (i : ℕ) : PageId := ⟨p.fileId, p.blockId + UInt32.ofNat i⟩

/-- The loop of `PutNewPagesIntoRing` from page `i` on, with `left` pages to go. `readOk i` tells
whether the buffer of page `i` can be read. The second component is false for `DSTORE_FAIL`. -/
def putNewPagesLoop (firstFreePageId next : PageId) (readOk : ℕ → Bool) :
    ℕ → ℕ → PageId → RingWrite → RingWrite × Bool
  | 0, _, _, st => (st, true)
  | left + 1, i, prevPageId, st =>
    if readOk i = false then (st, false)
    else
      let curPageId := firstFreePageId.plus i
      let header : UndoRecordPageHeader :=
        { version := 0
          cur := curPageId
          prev := prevPageId
          next := if left = 0 then next else ⟨curPageId.fileId, curPageId.blockId + 1⟩ }
      putNewPagesLoop firstFreePageId next readOk left (i + 1) curPageId
        { pages := st.pages.setNew header
          wal := st.wal ++ [.extendPageRingNewPage curPageId header.prev header.next] }

/-- `UndoZone::PutNewPagesIntoRing`. -/
def putNewPagesIntoRing (prev firstFreePageId next : PageId) (readOk : ℕ → Bool)
    (st : RingWrite) : RingWrite × Bool :=
  putNewPagesLoop firstFreePageId next readOk (undoZoneExtentSize - 1) 0 prev st

/-- `UndoZone::ExtendUndoPageRing`, which puts the pages behind `prevPageId`. `readOk` answers the
buffer reads in the order they are made. -/
def extendUndoPageRing (prevPageId firstFreePageId lastFreePageId : PageId) (readOk : ℕ → Bool)
    (st : RingWrite) : RingWrite × Bool :=
  -- step 1: update previous page
  if readOk 0 = false then (st, false)
  else
    let nextPageId := st.pages.next prevPageId
    let st : RingWrite :=
      { pages := st.pages.setNext prevPageId firstFreePageId
        wal := st.wal ++ [.extendPageRingPrevPage prevPageId firstFreePageId] }
    -- step 2: update next page
    if readOk 1 = false then (st, false)
    else
      let st : RingWrite :=
        { pages := st.pages.setPrev nextPageId lastFreePageId
          wal := st.wal ++ [.extendPageRingNextPage nextPageId lastFreePageId] }
      -- step 3: insert new pages
      putNewPagesIntoRing prevPageId firstFreePageId nextPageId (fun i => readOk (i + 2)) st

/-- `UndoZone`, as far as the record space is concerned, with the pages in the buffer. -/
structure UndoZone where
  nextAppendUndoPtr : UndoRecPtr
  needCheckPageId : PageId
  undoRecyclePageId : PageId
  pages : UndoPages

/-- How the calls inside one `ExtendSpaceIfNeeded` go: the first page of the extent that
`Segment::Extend` hands out, if it does, and the buffer reads in their order. -/
structure ExtendEnv where
  extent : Option PageId
  readOk : ℕ → Bool

/-- What `ExtendSpaceIfNeeded` leaves: the zone, the log records kept and whether it succeeded. -/
structure ExtendResult where
  zone : UndoZone
  wal : List UndoRingWal
  succ : Bool

/-- `UndoZone::ExtendSpaceIfNeeded`. -/
def UndoZone.extendSpaceIfNeeded (zone : UndoZone) (env : ExtendEnv) : ExtendResult :=
  if zone.needCheckPageId ≠ zone.undoRecyclePageId then ⟨zone, [], true⟩
  else
    match env.extent with
    | none => ⟨zone, [], false⟩
    | some firstPageId =>
      -- the first page of the extent is not used
      let firstFreePageId := firstPageId.plus 1
      let lastFreePageId := firstPageId.plus (undoZoneExtentSize - 1)
      match extendUndoPageRing zone.nextAppendUndoPtr.pageId firstFreePageId lastFreePageId
          env.readOk ⟨zone.pages, []⟩ with
      -- `ResetForAbort` drops the records
      | (st, false) => ⟨{ zone with pages := st.pages }, [], false⟩
      | (st, true) =>
        ⟨{ zone with pages := st.pages, needCheckPageId := firstFreePageId }, st.wal, true⟩

/-- `UndoZone::InitUndoRecordSpace` on an extent, with all buffer reads succeeding. -/
def UndoZone.initUndoRecordSpace (pages : UndoPages) (firstPageId : PageId) : UndoZone :=
  let firstFreePageId := firstPageId.plus 1
  let lastFreePageId := firstPageId.plus (undoZoneExtentSize - 1)
  { nextAppendUndoPtr := ⟨firstFreePageId, UInt16.ofNat undoRecordPageHeaderSize⟩
    needCheckPageId := firstFreePageId.plus 1
    undoRecyclePageId := firstFreePageId
    pages := (putNewPagesIntoRing lastFreePageId firstFreePageId firstFreePageId
      (fun _ => true) ⟨pages, []⟩).1.pages }

end DStore
