import DStore.Heap.TupleFrame
import Mathlib.Algebra.BigOperators.Group.List.Basic
import Mathlib.Data.List.TakeWhile

/-!
# Compacting a page

Compaction moves tuples, and before that drops TDs and items from the end of their arrays. It
keeps flags and length of every item in use, so the space it ends with is known from the page
before: everything up to `special` that no tuple takes.
-/

namespace DStore

open ItemId List

/-- Flags and length of an item, which moving its tuple keeps. -/
def ItemId.shape (item : ItemId) : ItemIdState × ℕ := (item.flags, item.len)

/-- The bytes an item with this shape takes. -/
def shapeLen (shape : ItemIdState × ℕ) : ℕ := if shape.1 = .normal then shape.2 else 0

namespace DataPage

/-- The bytes taken by tuples. -/
def usedSpace (page : DataPage) : ℕ := (page.items.map fun item => shapeLen item.shape).sum

/-- `page'` is `page` with tuples moved. -/
structure SameShape (page page' : DataPage) : Prop where
  type_eq : page'.type = page.type
  special_eq : page'.special = page.special
  tds_eq : page'.tds = page.tds
  shape_eq : page'.items.map ItemId.shape = page.items.map ItemId.shape

section Shape

variable {page page' page'' : DataPage}

lemma SameShape.refl (page : DataPage) : SameShape page page := ⟨rfl, rfl, rfl, rfl⟩

lemma SameShape.trans (h : SameShape page page') (h' : SameShape page' page'') :
    SameShape page page'' :=
  ⟨h'.type_eq.trans h.type_eq, h'.special_eq.trans h.special_eq, h'.tds_eq.trans h.tds_eq,
    h'.shape_eq.trans h.shape_eq⟩

lemma SameShape.withMem (page : DataPage) (mem : ByteMem) : SameShape page (page.withMem mem) :=
  ⟨rfl, rfl, rfl, rfl⟩

/-- An item of the same shape may take the place of another. -/
lemma SameShape.putItemId (page : DataPage) (offset : ℕ) {item : ItemId}
    (h : item.shape = (page.getItemId offset).shape) :
    SameShape page (page.putItemId offset item) := by
  refine ⟨rfl, rfl, rfl, ?_⟩
  show (page.items.set (offset - 1) item).map shape = page.items.map shape
  rw [map_set, h, getItemId]
  apply ext_getElem?
  intro i
  rw [getElem?_set]
  by_cases hi : offset - 1 = i
  · rw [if_pos hi, ← hi]
    by_cases hlt : offset - 1 < page.items.length
    · simp [hlt]
    · simp [hlt]
  · rw [if_neg hi]

/-- Moving a tuple keeps the shape of the page. -/
lemma SameShape.setOffset (page : DataPage) (offset off : ℕ) :
    SameShape page (page.putItemId offset ((page.getItemId offset).setOffset off)) :=
  SameShape.putItemId page offset rfl

lemma SameShape.getMaxOffset_eq (h : SameShape page page') :
    page'.getMaxOffset = page.getMaxOffset := by
  have := congrArg length h.shape_eq
  rwa [length_map, length_map] at this

/-- The space the tuples take is a function of the shape. -/
lemma usedSpace_eq_shape (page : DataPage) :
    page.usedSpace = ((page.items.map shape).map shapeLen).sum := by
  rw [usedSpace, map_map]
  rfl

/-- Reading all offsets in order gives the item array. -/
lemma map_getItemId (page : DataPage) :
    (range' 1 page.getMaxOffset).map page.getItemId = page.items := by
  apply ext_getElem
  · simp [getMaxOffset]
  · intro i _ hi
    simp [getItemId, hi]

end Shape

/-! ## Moving the tuples -/

/-- The space of the tuples to move. -/
def compactLen (cs : List ItemIdCompactData) : ℕ := (cs.map ItemIdCompactData.itemLen).sum

section Move

variable (page : DataPage)

lemma compactLen_cons (c : ItemIdCompactData) (cs : List ItemIdCompactData) :
    compactLen (c :: cs) = c.itemLen + compactLen cs := by
  simp [compactLen]

/-- Skipped tuples take the space they had. -/
lemma skipContiguous_upper (cs : List ItemIdCompactData) (upper : ℕ) :
    (skipContiguous cs upper).2 - compactLen (skipContiguous cs upper).1 =
      upper - compactLen cs := by
  induction cs generalizing upper with
  | nil => rfl
  | cons c cs ih =>
    rw [skipContiguous]
    split
    · rfl
    · rw [ih, compactLen_cons, Nat.sub_sub]

/-- Moving tuples together keeps the shape and lowers `upper` by their lengths. -/
lemma moveTuples_shape (cs : List ItemIdCompactData) (upper head tail : ℕ) :
    SameShape page (moveTuples cs upper head tail page).1 ∧
      (moveTuples cs upper head tail page).2 = upper - compactLen cs := by
  induction cs generalizing upper head tail page with
  | nil => exact ⟨SameShape.withMem page _, rfl⟩
  | cons c cs ih =>
    rw [moveTuples, compactLen_cons, ← Nat.sub_sub]
    split
    · obtain ⟨hshape, hupper⟩ := ih (_ : DataPage) (upper - c.itemLen) c.tupOffset
        (c.tupOffset + c.itemLen)
      exact ⟨((SameShape.withMem page _).trans (SameShape.setOffset _ _ _)).trans hshape, hupper⟩
    · obtain ⟨hshape, hupper⟩ := ih (_ : DataPage) (upper - c.itemLen) c.tupOffset tail
      exact ⟨(SameShape.setOffset page _ _).trans hshape, hupper⟩

/-- Compaction keeps the shape, and the tuples end right below `special`. -/
lemma compactTuples_shape (cs : List ItemIdCompactData) :
    SameShape page (page.compactTuples cs).1 ∧
      (page.compactTuples cs).2 = page.special - compactLen cs := by
  have hskip := skipContiguous_upper cs page.special
  rw [compactTuples]
  split
  next upper h =>
    rw [h] at hskip
    exact ⟨SameShape.refl page, hskip⟩
  next c cs' upper h =>
    rw [h] at hskip
    obtain ⟨hshape, hupper⟩ := moveTuples_shape page (c :: cs') upper (c.tupOffset + c.itemLen)
      (c.tupOffset + c.itemLen)
    exact ⟨hshape, hupper.trans hskip⟩

/-- The items to be compacted are those that take space. -/
lemma compactLen_compactableItems : compactLen page.compactableItems = page.usedSpace := by
  have hlen : ∀ offsets : List ℕ, compactLen (offsets.filterMap fun offset =>
      if (page.getItemId offset).isNormal && (page.getItemId offset).hasStorage then
        some ⟨(page.getItemId offset).offset, offset, (page.getItemId offset).len⟩ else none) =
      ((offsets.map page.getItemId).map fun item => shapeLen item.shape).sum := by
    intro offsets
    induction offsets with
    | nil => rfl
    | cons offset offsets ih =>
      rw [filterMap_cons, map_cons, map_cons, sum_cons, ← ih]
      by_cases hn : (page.getItemId offset).flags = .normal
      · by_cases hlen : 0 < (page.getItemId offset).len
        · simp [isNormal, hasStorage, shape, shapeLen, hn, hlen, compactLen_cons]
        · have hzero : (page.getItemId offset).len = 0 := by omega
          simp [isNormal, hasStorage, shape, shapeLen, hn, hzero]
      · simp [isNormal, shape, shapeLen, hn]
  rw [compactableItems, hlen, map_getItemId, usedSpace]

lemma compactLen_sortCompactItems (cs : List ItemIdCompactData) :
    compactLen (sortCompactItems cs) = compactLen cs :=
  ((perm_insertionSort _ cs).map _).sum_eq

/-- After compaction all space below the tuples is free. -/
theorem compactAll_shape :
    SameShape page page.compactAll ∧ page.compactAll.upper = page.special - page.usedSpace := by
  obtain ⟨hshape, hupper⟩ :=
    page.compactTuples_shape (sortCompactItems page.compactableItems)
  rw [compactLen_sortCompactItems, compactLen_compactableItems] at hupper
  exact ⟨⟨hshape.type_eq, hshape.special_eq, hshape.tds_eq, hshape.shape_eq⟩, hupper⟩

end Move

/-! ## Dropping TDs and items from the end -/

section Drop

variable (page : DataPage)

lemma detachRecycled_shape (offset : ℕ) : SameShape page (page.detachRecycled offset) := by
  rw [detachRecycled]
  split
  · exact SameShape.refl page
  split
  · rw [setTupleTdStatus]
    split
    · exact SameShape.putItemId page offset rfl
    · exact SameShape.withMem page _
  · exact SameShape.refl page

/-- Detaching tuples from recycled TDs keeps the shape. -/
lemma foldl_detachRecycled_shape (offsets : List ℕ) :
    SameShape page (offsets.foldl detachRecycled page) := by
  induction offsets generalizing page with
  | nil => exact SameShape.refl page
  | cons offset offsets ih => exact (page.detachRecycled_shape offset).trans (ih _)

/-- A TD with an xid is not among the trailing free ones. -/
lemma lt_of_xid_ne {tdId : ℕ} (hlt : tdId < page.tdCount)
    (hxid : (page.getTd tdId).xid ≠ invalidXid) : tdId < page.tdCount - page.trailingFreeTds := by
  by_contra hge
  have hlt' : tdId < page.tds.length := hlt
  set free := page.tds.reverse.takeWhile (fun td => decide (td.xid = invalidXid)) with hfree
  have hidx : page.tds.length - 1 - tdId < free.length := by
    have : ¬ tdId < page.tds.length - free.length := hge
    omega
  -- the TD is among those the scan from the end has passed
  have hget : free[page.tds.length - 1 - tdId] = page.tds[tdId] := by
    have hpre : free <+: page.tds.reverse := takeWhile_prefix _
    rw [hpre.getElem hidx, getElem_reverse]
    congr 1
    omega
  have hmem := getElem_mem hidx
  rw [hget] at hmem
  have hinvalid := mem_takeWhile_imp hmem
  apply hxid
  rw [getTd, getD_eq_getElem?_getD, getElem?_eq_getElem hlt']
  exact of_decide_eq_true hinvalid

/-- Dropping TDs keeps the shape. -/
lemma recycleTd_shape (numRecycled : ℕ) :
    SameShape { page with tds := page.tds.take (page.tdCount - numRecycled) }
      (page.recycleTd numRecycled) := by
  rw [recycleTd]
  split
  next hzero =>
    rw [hzero, Nat.sub_zero, tdCount, take_length]
    exact SameShape.refl page
  · exact foldl_detachRecycled_shape _ _

/-- The items dropped from the end are unused. -/
lemma removeLastItems_items :
    ∃ removed, page.items = page.removeLastItems.items ++ removed ∧
      ∀ item ∈ removed, item.isUnused := by
  refine ⟨(page.items.reverse.takeWhile isUnused).reverse, ?_, ?_⟩
  · show page.items = (page.items.reverse.dropWhile isUnused).reverse ++ _
    rw [← reverse_append, takeWhile_append_dropWhile, reverse_reverse]
  · intro item hmem
    exact mem_takeWhile_imp (mem_reverse.mp hmem)

/-- They take no space. -/
lemma usedSpace_removeLastItems : page.removeLastItems.usedSpace = page.usedSpace := by
  obtain ⟨removed, hitems, hunused⟩ := page.removeLastItems_items
  have hzero : (removed.map fun item => shapeLen item.shape).sum = 0 := by
    apply sum_eq_zero
    intro n hmem
    obtain ⟨item, hitem, rfl⟩ := mem_map.mp hmem
    have hflags : item.flags = .unused := of_decide_eq_true (hunused item hitem)
    simp [shapeLen, shape, hflags]
  rw [usedSpace, usedSpace, hitems, map_append, sum_append, hzero, Nat.add_zero]

end Drop

/-- `page'` is `page` compacted: TDs without xid and unused items are gone from the ends of
their arrays, and the tuples have moved to the end of the page. -/
structure Compacted (page page' : DataPage) : Prop where
  type_eq : page'.type = page.type
  special_eq : page'.special = page.special
  tds_eq : page'.tds = page.tds.take (page.tdCount - page.trailingFreeTds)
  items : ∃ removed, page.items.map ItemId.shape = page'.items.map ItemId.shape ++ removed ∧
    ∀ shape ∈ removed, shape.1 = ItemIdState.unused
  upper_eq : page'.upper = page.special - page.usedSpace

section Compacted

variable {page page' : DataPage} {needSpace : ℕ}

lemma compactCRPage_of_le (h : needSpace ≤ page.getFreeSpaceRaw) :
    page.compactCRPageIfFreeSpaceLessThan needSpace = page := if_pos h

/-- A page with too little space is compacted. -/
lemma compactCRPage_of_lt (h : page.getFreeSpaceRaw < needSpace) :
    Compacted page (page.compactCRPageIfFreeSpaceLessThan needSpace) := by
  have heq : page.compactCRPageIfFreeSpaceLessThan needSpace =
      (page.recycleTd page.trailingFreeTds).removeLastItems.compactAll := if_neg (by omega)
  rw [heq]
  have hrecycled := page.recycleTd_shape page.trailingFreeTds
  obtain ⟨removed, hitems, hunused⟩ := (page.recycleTd page.trailingFreeTds).removeLastItems_items
  obtain ⟨hmoved, hupper⟩ := (page.recycleTd page.trailingFreeTds).removeLastItems.compactAll_shape
  have hshape : page.items.map ItemId.shape =
      ((page.recycleTd page.trailingFreeTds).removeLastItems.compactAll.items.map ItemId.shape) ++
        removed.map ItemId.shape := by
    rw [hmoved.shape_eq, ← map_append, ← hitems]
    exact hrecycled.shape_eq.symm
  have hremoved : ∀ shape ∈ removed.map ItemId.shape, shape.1 = ItemIdState.unused := by
    intro shape hmem
    obtain ⟨item, hitem, rfl⟩ := mem_map.mp hmem
    exact of_decide_eq_true (hunused item hitem)
  refine ⟨hmoved.type_eq.trans hrecycled.type_eq, hmoved.special_eq.trans hrecycled.special_eq,
    hmoved.tds_eq.trans hrecycled.tds_eq, ⟨_, hshape, hremoved⟩, ?_⟩
  rw [hupper, usedSpace_removeLastItems, usedSpace_eq_shape, hrecycled.shape_eq,
    ← usedSpace_eq_shape]
  show (page.recycleTd page.trailingFreeTds).special - _ = _
  rw [hrecycled.special_eq]
  rfl

/-- Items in use keep their place in the array. -/
lemma Compacted.item_of_used (h : Compacted page page') {offset : ℕ} (hv : page.ValidOffset offset)
    (hused : (page.getItemId offset).isUnused = false) :
    page'.ValidOffset offset ∧ (page'.getItemId offset).shape = (page.getItemId offset).shape := by
  obtain ⟨removed, hshape, hremoved⟩ := h.items
  obtain ⟨h1, h2⟩ := hv
  have hlt : offset - 1 < page.items.length := by
    have : offset ≤ page.items.length := h2
    omega
  have hget : page.getItemId offset = page.items[offset - 1] := by
    simp [getItemId, hlt]
  have hmap : (page.items.map ItemId.shape)[offset - 1]? = some (page.getItemId offset).shape := by
    rw [getElem?_map, getElem?_eq_getElem hlt, hget]
    rfl
  have hlt' : offset - 1 < page'.items.length := by
    by_contra hge
    -- otherwise the item is among the removed ones
    rw [hshape, getElem?_append_right (by simpa using hge)] at hmap
    have hflags := hremoved _ (mem_of_getElem? hmap)
    simp only [isUnused, decide_eq_false_iff_not] at hused
    exact hused hflags
  refine ⟨⟨h1, ?_⟩, ?_⟩
  · show offset ≤ page'.items.length
    omega
  · rw [hshape, getElem?_append_left (by simpa using hlt'), getElem?_map,
      getElem?_eq_getElem hlt'] at hmap
    have hget' : page'.getItemId offset = page'.items[offset - 1] := by
      simp [getItemId, hlt']
    rw [hget']
    exact Option.some.inj hmap

end Compacted

end DataPage

end DStore
