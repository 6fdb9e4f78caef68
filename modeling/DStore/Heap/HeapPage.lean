import DStore.Page.Layout
import Mathlib.Data.List.Sort

/-!
# Heap pages

Placing, overwriting and compacting tuples on a heap page. A tuple that is not on a page is a
byte memory read from address 0, with its size kept beside it.
-/

namespace DStore

/-- `SetOffset`. -/
def ItemId.setOffset (item : ItemId) (off : ℕ) : ItemId := { item with offset := off }

/-- `SetLen`. -/
def ItemId.setLen (item : ItemId) (len : ℕ) : ItemId := { item with len := len }

/-- `HasStorage`. -/
def ItemId.hasStorage (item : ItemId) : Bool := 0 < item.len

/-- `ItemIdCompactData`. -/
structure ItemIdCompactData where
  tupOffset : ℕ
  itemOffnum : ℕ
  itemLen : ℕ
deriving DecidableEq, Repr

namespace DataPage

/-! ## Single tuples -/

section Tuples

variable (page : DataPage) (offset : ℕ)

/-- The header of the tuple at `offset`. -/
def tupleHeader : HeapTupleHeader :=
  HeapDiskTuple.header page.mem (page.getItemId offset).offset

/-- The data of the tuple at `offset`. -/
def tupleData : List UInt8 := HeapDiskTuple.data page.mem (page.getItemId offset).offset

/-- All bytes of the tuple at `offset`. -/
def tupleBytes : List UInt8 :=
  page.mem.load (page.getItemId offset).offset (page.tupleHeader offset).size

/-- `IsValidOffset`. -/
def isValidOffset : Bool :=
  offset ≤ page.getMaxOffset ∧ (page.getItemId offset).len ≠ 0

/-- `GetFreeItemId`. -/
def getFreeItemId : ℕ :=
  if page.hasFreeItemId then
    match (List.range' 1 page.getMaxOffset).find? fun offset =>
      (page.getItemId offset).isUnused with
    | some offset => offset
    | none => page.getMaxOffset + 1
  else page.getMaxOffset + 1

/-- `m_lower` once the item at `offset` exists. -/
def lowerWith : ℕ :=
  if offset = page.getMaxOffset + 1 then page.lower + sizeofItemId else page.lower

/-- The item array once the item at `offset` exists. -/
def itemsWith : List ItemId :=
  if offset = page.getMaxOffset + 1 then page.items ++ [ItemId.unused] else page.items

/-- The new `m_upper` of `AddTuple`, in 16-bit arithmetic. -/
def upperWith (size : ℕ) : ℕ := (page.upper + 2 ^ 16 - size) % 2 ^ 16

/-- Steps 3 to 5 of `AddTuple`: copy the tuple below `m_upper` and let the item at `offset`,
possibly a new one, point to it. -/
def placeTuple (tuple : ByteMem) (size offset : ℕ) : DataPage :=
  { page with
    mem := page.mem.blit (page.upperWith size) tuple 0 size
    upper := page.upperWith size
    items := (page.itemsWith offset).set (offset - 1)
      (ItemId.normal (page.upperWith size) size) }

/-- `AddTuple`: the page and the offset used, or `INVALID_ITEM_OFFSET_NUMBER`. -/
def addTuple (tuple : ByteMem) (size specifyOffset : ℕ) : DataPage × ℕ :=
  let offset :=
    if specifyOffset = invalidItemOffsetNumber then page.getFreeItemId else specifyOffset
  if page.lowerWith offset > page.upperWith size then (page, invalidItemOffsetNumber)
  else (page.placeTuple tuple size offset, offset)

/-- `UpdateTuple`: `memcpy_s` refuses to write past the item. -/
def updateTuple (tuple : ByteMem) (size : ℕ) : Option DataPage :=
  let item := page.getItemId offset
  if size ≤ item.len then some (page.withMem (page.mem.blit item.offset tuple 0 size)) else none

/-- `AddPotentialDelItemSize`. -/
def addPotentialDelItemSize : DataPage :=
  { page with potentialDelSize := (page.potentialDelSize + (page.getItemId offset).len) % 2 ^ 16 }

/-- `SetTuplePrunable(true)`. -/
def setTuplePrunable : DataPage := { page with hasPrunableTuple := true }

/-- `SetHasFreeItemId`. -/
def setHasFreeItemId : DataPage := { page with hasFreeItemId := true }

/-- `SetUpper`. -/
def setUpper (upper : ℕ) : DataPage := { page with upper := upper }

end Tuples

/-! ## Compaction -/

section Compact

/-- Step 1 of `CompactTuples`: the tuples that are not contiguous with `special`, and where
they have to start. -/
def skipContiguous : List ItemIdCompactData → ℕ → List ItemIdCompactData × ℕ
  | [], upper => ([], upper)
  | c :: cs, upper =>
    if upper ≠ c.tupOffset + c.itemLen then (c :: cs, upper)
    else skipContiguous cs (upper - c.itemLen)

/-- Steps 2 and 3 of `CompactTuples`: `[head, tail)` is a run of adjacent tuples that still
has to be moved to `upper`. -/
def moveTuples : List ItemIdCompactData → ℕ → ℕ → ℕ → DataPage → DataPage × ℕ
  | [], upper, head, tail, page =>
    (page.withMem (page.mem.copy upper head (tail - head)), upper)
  | c :: cs, upper, head, tail, page =>
    if head ≠ c.tupOffset + c.itemLen then
      let page := page.withMem (page.mem.copy upper head (tail - head))
      moveTuples cs (upper - c.itemLen) c.tupOffset (c.tupOffset + c.itemLen)
        (page.putItemId c.itemOffnum ((page.getItemId c.itemOffnum).setOffset (upper - c.itemLen)))
    else
      moveTuples cs (upper - c.itemLen) c.tupOffset tail
        (page.putItemId c.itemOffnum ((page.getItemId c.itemOffnum).setOffset (upper - c.itemLen)))

variable (page : DataPage)

/-- `CompactTuples`: the page and its new upper bound. -/
def compactTuples (compactItems : List ItemIdCompactData) : DataPage × ℕ :=
  match skipContiguous compactItems page.special with
  | ([], upper) => (page, upper)
  | (c :: cs, upper) =>
    moveTuples (c :: cs) upper (c.tupOffset + c.itemLen) (c.tupOffset + c.itemLen) page

/-- The items with storage, in offset order. -/
def compactableItems : List ItemIdCompactData :=
  (List.range' 1 page.getMaxOffset).filterMap fun offset =>
    let item := page.getItemId offset
    if item.isNormal && item.hasStorage then some ⟨item.offset, offset, item.len⟩ else none

/-- `qsort` with `ItemIdCompactData::Compare`: descending by position on the page. -/
def sortCompactItems (items : List ItemIdCompactData) : List ItemIdCompactData :=
  items.insertionSort fun a b => b.tupOffset ≤ a.tupOffset

/-- Compact all tuples to the end of the page. -/
def compactAll : DataPage :=
  let compacted := page.compactTuples (sortCompactItems page.compactableItems)
  compacted.1.setUpper compacted.2

/-- The loop body of `RecycleTd`: detach a tuple whose TD is gone. -/
def detachRecycled (page : DataPage) (offset : ℕ) : DataPage :=
  if (page.getItemId offset).isUnused then page
  else if page.getTupleTdId offset ≥ page.tdCount ∧ page.testTupleTdStatus offset .detachTd = false
  then page.setTupleTdStatus offset .detachTd
  else page

/-- `RecycleTd`: drop the last `numRecycled` TDs. -/
def recycleTd (numRecycled : ℕ) : DataPage :=
  if numRecycled = 0 then page
  else
    (List.range' 1 page.getMaxOffset).foldl detachRecycled
      { page with tds := page.tds.take (page.tdCount - numRecycled) }

/-- The number of TDs at the end of the array that have no xid. -/
def trailingFreeTds : ℕ := (page.tds.reverse.takeWhile fun td => td.xid = invalidXid).length

/-- `RemoveLastItem` as long as the last item is unused. -/
def removeLastItems : DataPage :=
  { page with items := (page.items.reverse.dropWhile ItemId.isUnused).reverse }

/-- `CompactCRPageIfFreeSpaceLessThan`. -/
def compactCRPageIfFreeSpaceLessThan (needSpace : ℕ) : DataPage :=
  if page.getFreeSpaceRaw ≥ needSpace then page
  else (page.recycleTd page.trailingFreeTds).removeLastItems.compactAll

end Compact

end DataPage

end DStore
