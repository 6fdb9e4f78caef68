import DStore.Heap.Operations

/-!
# Frames of page changes

Every operation on a heap page changes the tuples at a few offsets and leaves all others:
their items stay as they are, and so do the bytes under them.
-/

namespace DStore

open List ByteMem

namespace DataPage

/-- Well-formed heap pages: the layout holds, only normal items have a length, and every tuple
fits its item. -/
@[mk_iff]
structure HeapWellFormed (page : DataPage) : Prop where
  heap : page.type = .heap
  layout : page.Layout
  normal_of_len : ∀ offset, page.ValidOffset offset → (page.getItemId offset).len ≠ 0 →
    (page.getItemId offset).isNormal = true
  header_le_size : ∀ offset, page.ValidOffset offset → (page.getItemId offset).isNormal = true →
    heapDiskTupHeaderSize ≤ (page.tupleHeader offset).size
  size_le_len : ∀ offset, page.ValidOffset offset → (page.getItemId offset).isNormal = true →
    (page.tupleHeader offset).size ≤ (page.getItemId offset).len

instance (page : DataPage) : Decidable page.HeapWellFormed :=
  decidable_of_iff' _ page.heapWellFormed_iff

/-- `page'` has the tuples of `page`, except at the offsets in `touched`. -/
structure TupleFrame (page page' : DataPage) (touched : ℕ → Prop) : Prop where
  getMaxOffset_le : page.getMaxOffset ≤ page'.getMaxOffset
  item : ∀ offset, page.ValidOffset offset → ¬ touched offset →
    page'.getItemId offset = page.getItemId offset
  bytes : ∀ offset, page.ValidOffset offset → ¬ touched offset →
    (page.getItemId offset).isNormal = true → ∀ i, i < (page.getItemId offset).len →
    page'.mem ((page.getItemId offset).offset + i) = page.mem ((page.getItemId offset).offset + i)

lemma isStored_of_isNormal {item : ItemId} (h : item.isNormal) : item.isStored := by
  have hflags : item.flags = .normal := by simpa [ItemId.isNormal] using h
  simp [ItemId.isStored, hflags]

section Frame

variable {page page' page'' : DataPage} {touched touched' : ℕ → Prop} {offset : ℕ}

lemma ValidOffset.mono (h : page.ValidOffset offset)
    (hle : page.getMaxOffset ≤ page'.getMaxOffset) : page'.ValidOffset offset :=
  ⟨h.1, le_trans h.2 hle⟩

/-- A page with the same items and bytes has the same tuples. -/
lemma TupleFrame.of_eq (hitems : page'.items = page.items) (hmem : page'.mem = page.mem) :
    TupleFrame page page' touched := by
  have hitem : ∀ offset, page'.getItemId offset = page.getItemId offset := by
    intro offset
    rw [getItemId, getItemId, hitems]
  refine ⟨by rw [getMaxOffset, getMaxOffset, hitems], fun offset _ _ => hitem offset, ?_⟩
  intro offset _ _ _ i _
  rw [hmem]

/-- A frame may be read with more offsets touched. -/
lemma TupleFrame.mono (h : TupleFrame page page' touched)
    (hsub : ∀ offset, touched offset → touched' offset) : TupleFrame page page' touched' :=
  ⟨h.getMaxOffset_le, fun offset hv ht => h.item offset hv fun h' => ht (hsub offset h'),
    fun offset hv ht => h.bytes offset hv fun h' => ht (hsub offset h')⟩

/-- Two changes at the same offsets are one. -/
lemma TupleFrame.trans (h : TupleFrame page page' touched)
    (h' : TupleFrame page' page'' touched) : TupleFrame page page'' touched := by
  have hvalid : ∀ offset, page.ValidOffset offset → page'.ValidOffset offset :=
    fun offset hv => hv.mono h.getMaxOffset_le
  refine ⟨le_trans h.getMaxOffset_le h'.getMaxOffset_le, ?_, ?_⟩
  · intro offset hv ht
    rw [h'.item offset (hvalid offset hv) ht, h.item offset hv ht]
  · intro offset hv ht hn i hi
    have hitem := h.item offset hv ht
    have hstep := h'.bytes offset (hvalid offset hv) ht (by rw [hitem]; exact hn) i
      (by rw [hitem]; exact hi)
    rw [hitem] at hstep
    rw [hstep, h.bytes offset hv ht hn i hi]

/-- A write inside the item of one tuple touches no other tuple, since items do not overlap. -/
lemma TupleFrame.of_sameOutside (hlayout : page.Layout) (hv : page.ValidOffset offset)
    (hn : (page.getItemId offset).isNormal) (hitems : page'.items = page.items)
    (hmem : SameOutside (page.getItemId offset).offset
      ((page.getItemId offset).offset + (page.getItemId offset).len) page.mem page'.mem) :
    TupleFrame page page' (· = offset) := by
  refine ⟨by rw [getMaxOffset, getMaxOffset, hitems], ?_, ?_⟩
  · intro offset' _ _
    rw [getItemId, getItemId, hitems]
  · intro offset' hv' hne hn' i hi
    apply hmem
    rcases hlayout.apart offset offset' hv hv' (Ne.symm hne) (isStored_of_isNormal hn)
      (isStored_of_isNormal hn') with h | h
    · exact Or.inr (by omega)
    · exact Or.inl (by omega)

/-- Setting an item touches its own tuple only. -/
lemma TupleFrame.putItemId (hv : 1 ≤ offset) (item : ItemId) :
    TupleFrame page (page.putItemId offset item) (· = offset) := by
  refine ⟨by simp, ?_, fun _ _ _ _ _ _ => rfl⟩
  intro offset' hv' hne
  exact getItemId_putItemId_of_ne hv hv'.1 (Ne.symm hne) item

section

variable (h : TupleFrame page page' touched) (hv : page.ValidOffset offset) (ht : ¬ touched offset)
    (hn : (page.getItemId offset).isNormal)
include h hv ht hn

/-- The bytes of a tuple that is not touched are found at its item. -/
lemma TupleFrame.load_eq {pos n : ℕ} (hn' : pos + n ≤ (page.getItemId offset).len) :
    page'.mem.load ((page'.getItemId offset).offset + pos) n =
      page.mem.load ((page.getItemId offset).offset + pos) n := by
  rw [h.item offset hv ht]
  apply load_congr
  intro i hi
  rw [Nat.add_assoc]
  exact h.bytes offset hv ht hn _ (by omega)

/-- A tuple that is not touched has the header it had. -/
lemma TupleFrame.tupleHeader_eq (hlen : heapDiskTupHeaderSize ≤ (page.getItemId offset).len) :
    page'.tupleHeader offset = page.tupleHeader offset := by
  rw [tupleHeader, tupleHeader, h.item offset hv ht]
  apply HeapDiskTuple.header_congr
  intro i hi
  exact h.bytes offset hv ht hn i (by omega)

end

/-- A tuple that is not touched has all its bytes. -/
lemma TupleFrame.tupleBytes_eq (h : TupleFrame page page' touched) (hwf : page.HeapWellFormed)
    (hv : page.ValidOffset offset) (ht : ¬ touched offset) (hn : (page.getItemId offset).isNormal) :
    page'.tupleBytes offset = page.tupleBytes offset := by
  have hsize := hwf.size_le_len offset hv hn
  have hheader := h.tupleHeader_eq hv ht hn (le_trans (hwf.header_le_size offset hv hn) hsize)
  rw [tupleBytes, tupleBytes, hheader]
  exact h.load_eq hv ht hn (show 0 + _ ≤ _ by omega)

end Frame

/-! ## Placing a tuple -/

section Place

variable {page : DataPage} {tuple : ByteMem} {size offset offset' : ℕ}

/-- There is room for `size` bytes and the item at `offset`. -/
def Fits (page : DataPage) (size offset : ℕ) : Prop := page.lowerWith offset + size ≤ page.upper

lemma Layout.upper_lt (h : page.Layout) : page.upper < 2 ^ 15 := by
  have h1 := h.upper_le_special
  have h2 := h.special_le
  unfold blckSz at h2
  omega

/-- The 15-bit offset does not wrap when the tuple fits below `upper`. -/
lemma upperWith_of_le (hlt : page.upper < 2 ^ 15) (hsize : size ≤ page.upper) :
    page.upperWith size = page.upper - size := by
  rw [upperWith]
  omega

/-- `AddTuple` places a tuple that fits at the offset it is given. -/
lemma addTuple_of_fits (hlt : page.upper < 2 ^ 15) (hoffset : offset ≠ invalidItemOffsetNumber)
    (hfits : page.Fits size offset) :
    page.addTuple tuple size offset = (page.placeTuple tuple size offset, offset) := by
  rw [Fits] at hfits
  rw [addTuple, if_neg hoffset, if_neg]
  rw [upperWith_of_le hlt (by omega)]
  omega

lemma itemsWith_length (hoffset : offset ≤ page.getMaxOffset + 1) :
    (page.itemsWith offset).length = max page.getMaxOffset offset := by
  rw [itemsWith]
  by_cases hnew : offset = page.getMaxOffset + 1
  · rw [if_pos hnew, length_append, length_singleton, hnew]
    show page.getMaxOffset + 1 = _
    omega
  · rw [if_neg hnew]
    show page.getMaxOffset = _
    omega

lemma itemsWith_getElem {i : ℕ} (hi : i < page.getMaxOffset) :
    (page.itemsWith offset)[i]? = page.items[i]? := by
  rw [itemsWith]
  by_cases hnew : offset = page.getMaxOffset + 1
  · rw [if_pos hnew, getElem?_append_left hi]
  · rw [if_neg hnew]

/-- The item array grows by at most the new item. -/
lemma placeTuple_getMaxOffset (hoffset : offset ≤ page.getMaxOffset + 1) :
    (page.placeTuple tuple size offset).getMaxOffset = max page.getMaxOffset offset := by
  rw [← itemsWith_length hoffset]
  exact length_set

lemma placeTuple_lower (hoffset : offset ≤ page.getMaxOffset + 1) :
    (page.placeTuple tuple size offset).lower = page.lowerWith offset := by
  have hmax : (page.placeTuple tuple size offset).items.length = max page.getMaxOffset offset :=
    placeTuple_getMaxOffset hoffset
  rw [lower, hmax, lowerWith, lower, getMaxOffset]
  show page.type.headerOffset + page.tds.length * sizeofTd + _ = _
  rw [getMaxOffset] at hoffset
  unfold sizeofItemId
  split <;> omega

/-- The new item points to the space taken from `upper`. -/
lemma getItemId_placeTuple_self (h1 : 1 ≤ offset) (h2 : offset ≤ page.getMaxOffset + 1) :
    (page.placeTuple tuple size offset).getItemId offset =
      ItemId.normal (page.upperWith size) size := by
  have hlt : offset - 1 < (page.itemsWith offset).length := by
    rw [itemsWith_length h2]
    omega
  show ((page.itemsWith offset).set (offset - 1) _).getD (offset - 1) _ = _
  rw [getD_eq_getElem?_getD, getElem?_set_self hlt, Option.getD_some]

/-- The other items stay. -/
lemma getItemId_placeTuple_of_ne (h1 : 1 ≤ offset) (hv : page.ValidOffset offset')
    (hne : offset' ≠ offset) :
    (page.placeTuple tuple size offset).getItemId offset' = page.getItemId offset' := by
  obtain ⟨h1', h2'⟩ := hv
  show ((page.itemsWith offset).set (offset - 1) _).getD (offset' - 1) _ = _
  rw [getD_eq_getElem?_getD, getElem?_set_ne (by omega), itemsWith_getElem (by omega),
    ← getD_eq_getElem?_getD]
  rfl

section

variable (hlt : page.upper < 2 ^ 15)
include hlt

section

variable (hfits : page.Fits size offset)
include hfits

lemma getItemId_placeTuple (h1 : 1 ≤ offset) (h2 : offset ≤ page.getMaxOffset + 1) :
    (page.placeTuple tuple size offset).getItemId offset = ⟨.normal, page.upper - size, size⟩ := by
  rw [Fits] at hfits
  rw [getItemId_placeTuple_self h1 h2, upperWith_of_le hlt (by omega), ItemId.normal,
    Nat.mod_eq_of_lt (by omega), Nat.mod_eq_of_lt (by omega)]

lemma placeTuple_upper : (page.placeTuple tuple size offset).upper = page.upper - size := by
  rw [Fits] at hfits
  exact upperWith_of_le hlt (by omega)

/-- The bytes that change lie between the new and the old `upper`. -/
lemma placeTuple_sameOutside :
    SameOutside (page.upper - size) page.upper page.mem
      (page.placeTuple tuple size offset).mem := by
  rw [Fits] at hfits
  have hupper := upperWith_of_le hlt (show size ≤ page.upper by omega)
  have hblit := sameOutside_blit page.mem (page.upperWith size) tuple 0 size
  rw [hupper] at hblit
  show SameOutside _ _ page.mem (page.mem.blit (page.upperWith size) tuple 0 size)
  rw [hupper]
  exact hblit.mono le_rfl (by omega)

/-- There the bytes are those of the tuple. -/
lemma placeTuple_mem {i : ℕ} (hi : i < size) :
    (page.placeTuple tuple size offset).mem (page.upper - size + i) = tuple i := by
  rw [Fits] at hfits
  show page.mem.blit (page.upperWith size) tuple 0 size _ = _
  rw [upperWith_of_le hlt (by omega), blit_add hi, Nat.zero_add]

end

end

section

variable (h : page.Layout) (h1 : 1 ≤ offset) (h2 : offset ≤ page.getMaxOffset + 1)
    (hfits : page.Fits size offset)
include h h1 h2 hfits

/-- Placing a tuple touches the tuple at its offset only. -/
lemma placeTuple_frame : TupleFrame page (page.placeTuple tuple size offset) (· = offset) := by
  refine ⟨?_, ?_, ?_⟩
  · rw [placeTuple_getMaxOffset h2]
    omega
  · intro offset' hv hne
    exact getItemId_placeTuple_of_ne h1 hv hne
  · intro offset' hv _ hn i _
    -- the other tuples are above `upper`
    have hge := h.item_ge offset' hv (isStored_of_isNormal hn)
    exact placeTuple_sameOutside h.upper_lt hfits _ (Or.inr (by omega))

/-- Placing a tuple that fits keeps the layout. -/
lemma placeTuple_layout (hsize : page.type.tupleHeaderSize ≤ size) :
    (page.placeTuple tuple size offset).Layout := by
  set page' := page.placeTuple tuple size offset with hpage'
  have hself : page'.getItemId offset = ⟨.normal, page.upper - size, size⟩ :=
    getItemId_placeTuple h.upper_lt hfits h1 h2
  have hupper : page'.upper = page.upper - size := placeTuple_upper h.upper_lt hfits
  have hlower : page'.lower = page.lowerWith offset := placeTuple_lower h2
  have hmax : page'.getMaxOffset = max page.getMaxOffset offset := placeTuple_getMaxOffset h2
  have hfits' : page.lowerWith offset + size ≤ page.upper := hfits
  have hspecial := h.upper_le_special
  -- every other item is an item of the page before
  have hother : ∀ offset', page'.ValidOffset offset' → offset' ≠ offset →
      page.ValidOffset offset' ∧ page'.getItemId offset' = page.getItemId offset' := by
    intro offset' hv hne
    have hv' : page.ValidOffset offset' := by
      have hle := hv.2
      rw [hmax] at hle
      exact ⟨hv.1, by omega⟩
    exact ⟨hv', getItemId_placeTuple_of_ne h1 hv' hne⟩
  have hapart : ∀ offset', page'.ValidOffset offset' → offset' ≠ offset →
      (page'.getItemId offset').isStored → page.upper ≤ (page'.getItemId offset').offset := by
    intro offset' hv hne hs
    obtain ⟨hv', heq⟩ := hother offset' hv hne
    rw [heq] at hs ⊢
    exact h.item_ge offset' hv' hs
  refine page'.layout_iff_check.mpr ⟨by rw [hlower, hupper]; omega, ?_, h.special_le, ?_, ?_⟩
  · show page'.upper ≤ page.special
    omega
  · intro offset' hv hs
    by_cases hoff : offset' = offset
    · rw [hoff, hself, hupper]
      exact ⟨le_rfl, show page.upper - size + size ≤ page.special by omega, hsize⟩
    · have hge := hapart offset' hv hoff hs
      obtain ⟨hv', heq⟩ := hother offset' hv hoff
      rw [heq] at hs hge ⊢
      exact ⟨by omega, h.item_le offset' hv' hs, h.header_le offset' hv' hs⟩
  · intro offset1 hv1 offset2 hv2 hne hs1 hs2
    by_cases hoff1 : offset1 = offset
    · have hge := hapart offset2 hv2 (fun heq => hne (hoff1.trans heq.symm)) hs2
      rw [hoff1, hself]
      exact Or.inl (by show page.upper - size + size ≤ _; omega)
    by_cases hoff2 : offset2 = offset
    · have hge := hapart offset1 hv1 hoff1 hs1
      rw [hoff2, hself]
      exact Or.inr (by show page.upper - size + size ≤ _; omega)
    · obtain ⟨hv1', heq1⟩ := hother offset1 hv1 hoff1
      obtain ⟨hv2', heq2⟩ := hother offset2 hv2 hoff2
      rw [heq1] at hs1 ⊢
      rw [heq2] at hs2 ⊢
      exact h.apart offset1 offset2 hv1' hv2' hne hs1 hs2

end

end Place

end DataPage

end DStore
