import DStore.Page.Td
import DStore.Tuple.DiskTuple

/-!
# Data pages

A data page is a header, the TD array, the item array growing up from it to `lower`, and
tuple bytes growing down from `special` to `upper`. The two arrays are kept as lists; the
tuple bytes stay bytes, addressed from the start of the page.
-/

namespace DStore

open DiskTuple

/-- `BLCKSZ`. -/
def blckSz : ℕ := 8192

/-- `sizeof(TD)`. -/
def sizeofTd : ℕ := 40

/-- `sizeof(ItemId)`. -/
def sizeofItemId : ℕ := 4

/-- `dataHeader.headerOffset`: `HEAP_PAGE_DATA_OFFSET` and `BTR_PAGE_DATA_OFFSET`. -/
def PageType.headerOffset : PageType → ℕ
  | .heap => 88
  | .index => 72

/-- `DataPage`. The last three fields are those of the heap header. -/
structure DataPage where
  type : PageType
  selfPageId : PageId
  upper : ℕ
  special : ℕ
  hasFreeItemId : Bool
  hasPrunableTuple : Bool
  hasPrunableItem : Bool
  tds : List TD
  items : List ItemId
  mem : ByteMem
  potentialDelSize : ℕ
  recentDeadTupleMinCsn : ℕ

namespace DataPage

variable (page : DataPage)

/-- `GetTdCount`. -/
def tdCount : ℕ := page.tds.length

/-- `GetMaxOffset`. -/
def getMaxOffset : ℕ := page.items.length

/-- `m_header.m_lower`: the end of the item array. -/
def lower : ℕ :=
  page.type.headerOffset + page.tds.length * sizeofTd + page.items.length * sizeofItemId

/-- `GetFreeSpace<FreeSpaceCondition::RAW>`. -/
def getFreeSpaceRaw : ℕ := page.upper - page.lower

/-- `GetFreeSpaceForInsert`: free space without a new item id. -/
def getFreeSpaceForInsert : ℕ := page.getFreeSpaceRaw - sizeofItemId

/-- `*GetTd(tdId)`. -/
def getTd (tdId : ℕ) : TD := page.tds.getD tdId TD.reset

/-- Overwrite the TD at `tdId`. -/
def putTd (tdId : ℕ) (td : TD) : DataPage := { page with tds := page.tds.set tdId td }

/-- `SetTd`. -/
def setTd (tdId : ℕ) (xid : Xid) (undoPtr : UndoRecPtr) (commandId : ℕ) : DataPage :=
  page.putTd tdId ((page.getTd tdId).setTd xid undoPtr commandId)

/-- `IsTdValidAndOccupied`. -/
def isTdValidAndOccupied (tdId : ℕ) : Bool :=
  tdId < page.tdCount ∧ (page.getTd tdId).status ≠ .unoccupyAndPruneable

variable (offset : ℕ)

/-- `*GetItemIdPtr(offset)`. -/
def getItemId : ItemId := page.items.getD (offset - 1) ItemId.unused

/-- Overwrite the item at `offset`. -/
def putItemId (item : ItemId) : DataPage :=
  { page with items := page.items.set (offset - 1) item }

/-- The page with other tuple bytes. -/
def withMem (mem : ByteMem) : DataPage := { page with mem := mem }

/-- `GetTupleTdId`. -/
def getTupleTdId : ℕ :=
  let item := page.getItemId offset
  if item.isUnused then invalidTdSlot
  else if item.isNoStorage then item.getTdId
  else getTdId page.type page.mem item.offset

/-- `GetTupleLockerTdId`. -/
def getTupleLockerTdId : ℕ :=
  let item := page.getItemId offset
  if item.isNoStorage || item.isUnused then invalidTdSlot
  else getLockerTdId page.type page.mem item.offset

/-- `GetTupleTdStatus`, as the raw status bits. -/
def getTupleTdStatus : ℕ :=
  let item := page.getItemId offset
  if item.isNoStorage then item.tdStatusCode
  else tdStatusCode page.type page.mem item.offset

/-- `TestTupleTdStatus`. -/
def testTupleTdStatus (status : TupleTdStatus) : Bool :=
  page.getTupleTdStatus offset = status.code

/-- `SetTupleTdStatus`. -/
def setTupleTdStatus (status : TupleTdStatus) : DataPage :=
  let item := page.getItemId offset
  if item.isNoStorage then page.putItemId offset (item.setTdStatus status)
  else page.withMem (setTdStatus page.type page.mem item.offset status)

/-- `GetRowData(offset)->SetLockerTdId(tdId)`. -/
def setTupleLockerTdId (tdId : ℕ) : DataPage :=
  page.withMem (HeapDiskTuple.setLockerTdId page.mem (page.getItemId offset).offset tdId)

section WithMem

variable (mem : ByteMem) (offset : ℕ)

@[simp] lemma withMem_mem : (page.withMem mem).mem = mem := rfl

@[simp] lemma withMem_type : (page.withMem mem).type = page.type := rfl

@[simp] lemma withMem_getMaxOffset : (page.withMem mem).getMaxOffset = page.getMaxOffset := rfl

@[simp] lemma withMem_getItemId : (page.withMem mem).getItemId offset = page.getItemId offset := rfl

end WithMem

end DataPage

end DStore
