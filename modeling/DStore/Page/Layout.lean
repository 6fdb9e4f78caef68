import DStore.Page.DataPage

/-!
# Page layout

The invariant `DataPage::CheckSanity` asserts: the item array ends below the tuples, every
tuple lies between `upper` and `special`, and no two tuples overlap. Header fields of one
tuple can then be written without touching another tuple.
-/

namespace DStore

open DiskTuple BitField ByteMem ItemId

/-- The item has tuple bytes on the page. -/
def ItemId.isStored (item : ItemId) : Bool :=
  item.flags = .normal ∨ item.flags = .unreadableRangeHolder

/-- The bytes of the two items do not overlap. -/
def ItemId.Apart (a b : ItemId) : Prop := a.offset + a.len ≤ b.offset ∨ b.offset + b.len ≤ a.offset

/-- Size of the fixed tuple header: the end of `m_info`. -/
def PageType.tupleHeaderSize (pt : PageType) : ℕ := DiskTuple.infoPos pt + 4

namespace DataPage

/-- The offset names an entry of the item array. -/
def ValidOffset (page : DataPage) (offset : ℕ) : Prop :=
  1 ≤ offset ∧ offset ≤ page.getMaxOffset

/-- The layout of a page. -/
structure Layout (page : DataPage) : Prop where
  lower_le_upper : page.lower ≤ page.upper
  upper_le_special : page.upper ≤ page.special
  special_le : page.special ≤ blckSz
  item_ge : ∀ offset, page.ValidOffset offset → (page.getItemId offset).isStored →
    page.upper ≤ (page.getItemId offset).offset
  item_le : ∀ offset, page.ValidOffset offset → (page.getItemId offset).isStored →
    (page.getItemId offset).offset + (page.getItemId offset).len ≤ page.special
  header_le : ∀ offset, page.ValidOffset offset → (page.getItemId offset).isStored →
    page.type.tupleHeaderSize ≤ (page.getItemId offset).len
  apart : ∀ offset offset', page.ValidOffset offset → page.ValidOffset offset' →
    offset ≠ offset' → (page.getItemId offset).isStored → (page.getItemId offset').isStored →
    (page.getItemId offset).Apart (page.getItemId offset')

instance (a b : ItemId) : Decidable (a.Apart b) := inferInstanceAs (Decidable (_ ∨ _))

instance (page : DataPage) (P : ℕ → Prop) [DecidablePred P] :
    Decidable (∀ offset, page.ValidOffset offset → P offset) :=
  decidable_of_iff (∀ i < page.getMaxOffset, P (i + 1))
    ⟨fun h offset hv => Nat.sub_add_cancel hv.1 ▸ h (offset - 1)
      (by have := hv.1; have := hv.2; omega),
      fun h i hi => h (i + 1) ⟨by omega, hi⟩⟩

/-- The layout as a check over the item array. -/
lemma layout_iff_check (page : DataPage) : page.Layout ↔
    page.lower ≤ page.upper ∧ page.upper ≤ page.special ∧ page.special ≤ blckSz ∧
      (∀ offset, page.ValidOffset offset → (page.getItemId offset).isStored →
        page.upper ≤ (page.getItemId offset).offset ∧
        (page.getItemId offset).offset + (page.getItemId offset).len ≤ page.special ∧
        page.type.tupleHeaderSize ≤ (page.getItemId offset).len) ∧
      ∀ offset, page.ValidOffset offset → ∀ offset', page.ValidOffset offset' → offset ≠ offset' →
        (page.getItemId offset).isStored → (page.getItemId offset').isStored →
        (page.getItemId offset).Apart (page.getItemId offset') := by
  constructor
  · intro h
    refine ⟨h.lower_le_upper, h.upper_le_special, h.special_le, fun offset hv hs => ?_,
      fun offset hv offset' hv' => h.apart offset offset' hv hv'⟩
    exact ⟨h.item_ge offset hv hs, h.item_le offset hv hs, h.header_le offset hv hs⟩
  · rintro ⟨h1, h2, h3, hitem, hapart⟩
    exact ⟨h1, h2, h3, fun offset hv hs => (hitem offset hv hs).1,
      fun offset hv hs => (hitem offset hv hs).2.1, fun offset hv hs => (hitem offset hv hs).2.2,
      fun offset offset' hv hv' => hapart offset hv offset' hv'⟩

instance (page : DataPage) : Decidable page.Layout :=
  decidable_of_iff' _ page.layout_iff_check

end DataPage

lemma ItemId.isStored_iff (item : ItemId) :
    item.isStored ↔ item.isUnused = false ∧ item.isNoStorage = false := by
  cases h : item.flags <;> simp [isStored, isUnused, isNoStorage, h]

/-! ## Reading one tuple -/

namespace DataPage

variable {page : DataPage} {offset : ℕ}

/-- A tuple with storage has its TD id in its header. -/
lemma getTupleTdId_of_stored (hs : (page.getItemId offset).isStored) :
    page.getTupleTdId offset =
      getTdId page.type page.mem (page.getItemId offset).offset := by
  obtain ⟨hu, hns⟩ := (isStored_iff _).mp hs
  simp [getTupleTdId, hu, hns]

/-- A pruned tuple has its TD id in its item. -/
lemma getTupleTdId_of_noStorage (hns : (page.getItemId offset).isNoStorage) :
    page.getTupleTdId offset = (page.getItemId offset).getTdId := by
  have hu : (page.getItemId offset).isUnused = false := by
    simp only [isNoStorage, decide_eq_true_eq] at hns
    simp [isUnused, hns]
  simp [getTupleTdId, hu, hns]

/-- A tuple with storage has its td status in its header. -/
lemma getTupleTdStatus_of_stored (hs : (page.getItemId offset).isStored) :
    page.getTupleTdStatus offset =
      tdStatusCode page.type page.mem (page.getItemId offset).offset := by
  obtain ⟨hu, hns⟩ := (isStored_iff _).mp hs
  simp [getTupleTdStatus, hns]

/-- A pruned tuple has its td status in its item. -/
lemma getTupleTdStatus_of_noStorage (hns : (page.getItemId offset).isNoStorage) :
    page.getTupleTdStatus offset = (page.getItemId offset).tdStatusCode := by
  simp [getTupleTdStatus, hns]

lemma stored_or_noStorage (hu : (page.getItemId offset).isUnused = false) :
    (page.getItemId offset).isStored ∨ (page.getItemId offset).isNoStorage := by
  cases hns : (page.getItemId offset).isNoStorage with
  | true => exact Or.inr rfl
  | false => exact Or.inl ((isStored_iff _).mpr ⟨hu, hns⟩)

end DataPage

/-! ## Writing one item -/

namespace DataPage

variable (page : DataPage) {offset offset' : ℕ}

@[simp] lemma putItemId_getMaxOffset (item : ItemId) :
    (page.putItemId offset item).getMaxOffset = page.getMaxOffset := by
  simp [putItemId, getMaxOffset]

@[simp] lemma putItemId_lower (item : ItemId) :
    (page.putItemId offset item).lower = page.lower := by
  simp [putItemId, lower]

variable {page}

/-- The item that was put is the one that is read. -/
lemma getItemId_putItemId_self (h : page.ValidOffset offset) (item : ItemId) :
    (page.putItemId offset item).getItemId offset = item := by
  obtain ⟨h1, h2⟩ := h
  have hlt : offset - 1 < page.items.length := by
    have : offset ≤ page.items.length := h2
    omega
  simp [getItemId, putItemId, hlt]

/-- The other items stay. -/
lemma getItemId_putItemId_of_ne (h : 1 ≤ offset) (h' : 1 ≤ offset') (hne : offset ≠ offset')
    (item : ItemId) : (page.putItemId offset item).getItemId offset' = page.getItemId offset' := by
  have hidx : offset - 1 ≠ offset' - 1 := by omega
  simp [getItemId, putItemId, List.getElem?_set_ne hidx]

end DataPage

/-! ## Writing the td status of one tuple -/

namespace DiskTuple

variable {pt : PageType} {m m' : ByteMem} {off off' : ℕ}

/-- The link to a TD is a function of the header bytes. -/
lemma tdLink_congr (h : ∀ i, i < pt.tupleHeaderSize → m (off + i) = m' (off' + i)) :
    getTdId pt m off = getTdId pt m' off' ∧ getInfo pt m off = getInfo pt m' off' := by
  have hinfo : getInfo pt m off = getInfo pt m' off' := by
    apply readLE_congr
    intro i hi
    have := h (infoPos pt + i) (by unfold PageType.tupleHeaderSize; omega)
    rwa [← Nat.add_assoc, ← Nat.add_assoc] at this
  refine ⟨?_, hinfo⟩
  cases pt with
  | heap =>
    apply readLE_congr
    intro i hi
    exact h i (lt_of_lt_of_le hi (by decide))
  | index =>
    show get 16 8 _ = get 16 8 _
    rw [hinfo]

/-- Setting the info word changes header bytes only. -/
lemma setInfo_of_outside (info : ℕ) {a : ℕ} (h : a < off ∨ off + pt.tupleHeaderSize ≤ a) :
    setInfo pt m off info a = m a := by
  unfold PageType.tupleHeaderSize at h
  exact sameOutside_writeLE _ _ _ _ _ (by omega)

lemma tdStatusBit_le (pt : PageType) : tdStatusBit pt + 2 ≤ 32 := by
  cases pt <;> decide

section

variable (pt m off) (s : TupleTdStatus)

/-- The td status is a field of the info word, at a bit that depends on the page type. -/
lemma getInfo_setTdStatus :
    getInfo pt (setTdStatus pt m off s) off =
      set (tdStatusBit pt) 2 s.code (getInfo pt m off) := by
  rw [setTdStatus, getInfo, setInfo, readLE_writeLE_self]
  exact Nat.mod_eq_of_lt (set_lt (tdStatusBit_le pt) _ (readLE_lt m _ 4))

@[simp] lemma tdStatusCode_setTdStatus : tdStatusCode pt (setTdStatus pt m off s) off = s.code := by
  rw [tdStatusCode, getInfo_setTdStatus, get_set_self]
  exact Nat.mod_eq_of_lt s.code_lt

@[simp] lemma getTdId_setTdStatus :
    getTdId pt (setTdStatus pt m off s) off = getTdId pt m off := by
  cases pt with
  | heap =>
    show readLE _ off 1 = readLE m off 1
    apply readLE_writeLE_of_disjoint
    simp [infoPos]
  | index =>
    show get 16 8 _ = get 16 8 _
    rw [getInfo_setTdStatus]
    exact get_set_of_disjoint (by decide) _ _

end

end DiskTuple

namespace DataPage

/-- `page'` is `page` with other td statuses: the same items, the same td ids, and still a
layout. -/
structure TdStatusEdit (page page' : DataPage) : Prop where
  layout : page'.Layout
  getMaxOffset : page'.getMaxOffset = page.getMaxOffset
  isUnused : ∀ offset, page.ValidOffset offset →
    (page'.getItemId offset).isUnused = (page.getItemId offset).isUnused
  tdId : ∀ offset, page.ValidOffset offset → (page.getItemId offset).isUnused = false →
    page'.getTupleTdId offset = page.getTupleTdId offset

variable {page page' : DataPage} {offset offset' : ℕ}

lemma TdStatusEdit.refl (h : page.Layout) : page.TdStatusEdit page :=
  ⟨h, rfl, fun _ _ => rfl, fun _ _ _ => rfl⟩

/-- Two edits of td statuses are one. -/
lemma TdStatusEdit.trans {page'' : DataPage} (h : page.TdStatusEdit page')
    (h' : page'.TdStatusEdit page'') : page.TdStatusEdit page'' := by
  have hvalid : ∀ offset, page.ValidOffset offset → page'.ValidOffset offset := by
    intro offset hv
    rwa [ValidOffset, h.getMaxOffset]
  refine ⟨h'.layout, h'.getMaxOffset.trans h.getMaxOffset, ?_, ?_⟩
  · intro offset hv
    rw [h'.isUnused offset (hvalid offset hv), h.isUnused offset hv]
  · intro offset hv hu
    rw [h'.tdId offset (hvalid offset hv) (by rw [h.isUnused offset hv, hu]), h.tdId offset hv hu]

section

variable (h : page.Layout)
include h

section

variable (hlower : page'.lower ≤ page'.upper)
  (hupper : page'.upper ≤ page.upper)
  (hspecial : page'.special = page.special)
include hlower hupper hspecial

/-- A page has a layout if its tuples lie in tuples of a page that has one. -/
lemma Layout.of_within
    (hitem : ∀ offset, page'.ValidOffset offset → (page'.getItemId offset).isStored →
      page.ValidOffset offset ∧ (page.getItemId offset).isStored ∧
        (page'.getItemId offset).offset = (page.getItemId offset).offset ∧
        (page'.getItemId offset).len ≤ (page.getItemId offset).len ∧
        page'.type.tupleHeaderSize ≤ (page'.getItemId offset).len) : page'.Layout := by
  refine page'.layout_iff_check.mpr ⟨hlower,
    by rw [hspecial]; exact hupper.trans h.upper_le_special,
    by rw [hspecial]; exact h.special_le, fun offset hv hs => ?_,
    fun offset hv offset' hv' hne hs hs' => ?_⟩
  · obtain ⟨hvalid, hstored, hoffset, hlen, hheader⟩ := hitem offset hv hs
    have hge := h.item_ge offset hvalid hstored
    have hle := h.item_le offset hvalid hstored
    exact ⟨by omega, by omega, hheader⟩
  · obtain ⟨hvalid, hstored, hoffset, hlen, -⟩ := hitem offset hv hs
    obtain ⟨hvalid', hstored', hoffset', hlen', -⟩ := hitem offset' hv' hs'
    have hapart := h.apart offset offset' hvalid hvalid' hne hstored hstored'
    rw [ItemId.Apart] at hapart ⊢
    omega

/-- Taking tuples off a page, or lowering `upper`, keeps the layout. -/
lemma Layout.of_subset (htype : page'.type = page.type)
    (hitem : ∀ offset, page'.ValidOffset offset → (page'.getItemId offset).isStored →
      page.ValidOffset offset ∧ page'.getItemId offset = page.getItemId offset) : page'.Layout := by
  refine h.of_within hlower hupper hspecial fun offset hv hs => ?_
  obtain ⟨hvalid, heq⟩ := hitem offset hv hs
  rw [heq] at hs ⊢
  exact ⟨hvalid, hs, rfl, le_rfl, htype ▸ h.header_le offset hvalid hs⟩

end

/-- A page with the same bounds and the same stored items keeps the layout. -/
lemma Layout.of_items (htype : page'.type = page.type)
    (hlower : page'.lower = page.lower) (hupper : page'.upper = page.upper)
    (hspecial : page'.special = page.special) (hmax : page'.getMaxOffset = page.getMaxOffset)
    (hitem : ∀ offset, page.ValidOffset offset → (page'.getItemId offset).isStored →
      page'.getItemId offset = page.getItemId offset) : page'.Layout := by
  refine h.of_subset (by rw [hlower, hupper]; exact h.lower_le_upper) (le_of_eq hupper) hspecial
    htype fun offset hv hs => ?_
  have hv' : page.ValidOffset offset := by rwa [ValidOffset, ← hmax]
  exact ⟨hv', hitem offset hv' hs⟩

/-- What writing the td status of one tuple does: the status is set, and no other td status
changes. -/
structure TdStatusWritten (page page' : DataPage) (offset : ℕ) (s : TupleTdStatus) : Prop
    extends TdStatusEdit page page' where
  self : page'.getTupleTdStatus offset = s.code
  other : ∀ offset', page.ValidOffset offset' → offset' ≠ offset →
    (page.getItemId offset').isUnused = false →
    page'.getTupleTdStatus offset' = page.getTupleTdStatus offset'

section

variable (hv : page.ValidOffset offset) (s : TupleTdStatus)
include hv s

/-- The status of a tuple without storage is in the item itself. -/
lemma setTupleTdStatus_noStorage
    (hns : (page.getItemId offset).isNoStorage) :
    page.TdStatusWritten (page.setTupleTdStatus offset s) offset s := by
  have hset : page.setTupleTdStatus offset s =
      page.putItemId offset ((page.getItemId offset).setTdStatus s) := by
    rw [setTupleTdStatus, if_pos hns]
  rw [hset]
  set page' := page.putItemId offset ((page.getItemId offset).setTdStatus s) with hpage'
  have hself : page'.getItemId offset = (page.getItemId offset).setTdStatus s :=
    getItemId_putItemId_self hv _
  have hother : ∀ offset', page.ValidOffset offset' → offset' ≠ offset →
      page'.getItemId offset' = page.getItemId offset' :=
    fun offset' hv' hne => getItemId_putItemId_of_ne hv.1 hv'.1 hne.symm _
  have hns' : (page'.getItemId offset).isNoStorage := by rw [hself]; exact hns
  have hmax : page'.getMaxOffset = page.getMaxOffset := by simp [hpage']
  have hlayout : page'.Layout := by
    refine h.of_items rfl (by simp [hpage']) rfl rfl hmax ?_
    intro offset' hv' hs
    by_cases hoff : offset' = offset
    · -- an item without storage is not stored
      rw [hoff, isStored_iff] at hs
      simp [hns'] at hs
    · exact hother offset' hv' hoff
  refine ⟨⟨hlayout, hmax, ?_, ?_⟩, ?_, ?_⟩
  · intro offset' hv'
    by_cases hoff : offset' = offset
    · rw [hoff, hself]
      rfl
    · rw [hother offset' hv' hoff]
  · intro offset' hv' _
    by_cases hoff : offset' = offset
    · rw [hoff, getTupleTdId_of_noStorage hns', getTupleTdId_of_noStorage hns, hself,
        ItemId.getTdId_setTdStatus]
    · rw [getTupleTdId, getTupleTdId, hother offset' hv' hoff]
      rfl
  · rw [getTupleTdStatus_of_noStorage hns', hself, ItemId.tdStatusCode_setTdStatus]
  · intro offset' hv' hoff _
    rw [getTupleTdStatus, getTupleTdStatus, hother offset' hv' hoff]
    rfl

/-- The status of a stored tuple is in the page bytes. -/
lemma setTupleTdStatus_stored
    (hs : (page.getItemId offset).isStored) :
    page.TdStatusWritten (page.setTupleTdStatus offset s) offset s := by
  have hns := ((isStored_iff _).mp hs).2
  have hset : page.setTupleTdStatus offset s = page.withMem
      (setTdStatus page.type page.mem (page.getItemId offset).offset s) := by
    rw [setTupleTdStatus, if_neg (by simp [hns])]
  rw [hset]
  set mem' := setTdStatus page.type page.mem (page.getItemId offset).offset s with hmem
  -- the header of another stored tuple is out of reach
  have hother : ∀ offset', page.ValidOffset offset' → offset' ≠ offset →
      (page.getItemId offset').isStored →
      getTdId page.type mem' (page.getItemId offset').offset =
        getTdId page.type page.mem (page.getItemId offset').offset ∧
      getInfo page.type mem' (page.getItemId offset').offset =
        getInfo page.type page.mem (page.getItemId offset').offset := by
    intro offset' hv' hne hs'
    apply tdLink_congr
    intro i hi
    apply setInfo_of_outside
    have hlen := h.header_le offset hv hs
    have hlen' := h.header_le offset' hv' hs'
    have hapart := h.apart offset offset' hv hv' hne.symm hs hs'
    rw [ItemId.Apart] at hapart
    omega
  refine ⟨⟨h.of_items rfl rfl rfl rfl rfl fun _ _ _ => rfl, rfl, fun _ _ => rfl, ?_⟩, ?_, ?_⟩
  · intro offset' hv' hu'
    rcases stored_or_noStorage hu' with hs' | hns'
    · rw [getTupleTdId_of_stored hs', getTupleTdId_of_stored (by simpa using hs')]
      by_cases hoff : offset' = offset
      · rw [hoff]
        exact getTdId_setTdStatus _ _ _ _
      · exact (hother offset' hv' hoff hs').1
    · rw [getTupleTdId_of_noStorage hns', getTupleTdId_of_noStorage (by simpa using hns')]
      rfl
  · rw [getTupleTdStatus_of_stored (by simpa using hs)]
    exact tdStatusCode_setTdStatus _ _ _ _
  · intro offset' hv' hoff hu'
    rcases stored_or_noStorage hu' with hs' | hns'
    · rw [getTupleTdStatus_of_stored hs', getTupleTdStatus_of_stored (by simpa using hs')]
      exact congrArg (get _ 2) (hother offset' hv' hoff hs').2
    · rw [getTupleTdStatus_of_noStorage hns', getTupleTdStatus_of_noStorage (by simpa using hns')]
      rfl

/-- `SetTupleTdStatus` writes the status to the tuple's header or to its item, and nothing else. -/
lemma setTupleTdStatus_written
    (hu : (page.getItemId offset).isUnused = false) :
    page.TdStatusWritten (page.setTupleTdStatus offset s) offset s := by
  rcases stored_or_noStorage hu with hs | hns
  · exact setTupleTdStatus_stored h hv s hs
  · exact setTupleTdStatus_noStorage h hv s hns

end

end

end DataPage

end DStore
