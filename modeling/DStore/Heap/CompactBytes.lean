import DStore.Heap.Compact

/-!
# Compaction keeps every tuple

`CompactTuples` slides the tuples to the end of the page, run by run. Since they are handled
from the highest to the lowest, a move never overwrites a tuple that still has to move, and
every tuple arrives with its bytes.
-/

namespace DStore

open List ItemIdCompactData ByteMem

namespace DataPage

/-- The tuples lie below `top`, from the highest to the lowest, and do not overlap. -/
def Stacked : ℕ → List ItemIdCompactData → Prop
  | _, [] => True
  | top, c :: cs => c.tupOffset + c.itemLen ≤ top ∧ Stacked c.tupOffset cs

/-- Where the tuple of item `offset` ends up when `cs` is stacked down from `upper`. -/
def newOffset (offset : ℕ) : ℕ → List ItemIdCompactData → ℕ
  | _, [] => 0
  | upper, c :: cs =>
    if c.itemOffnum = offset then upper - c.itemLen else newOffset offset (upper - c.itemLen) cs

/-- The tuples `cs` of `page` are stacked down from `upper` on `page'`. -/
structure MovedTo (page page' : DataPage) (upper : ℕ) (cs : List ItemIdCompactData) : Prop where
  item : ∀ c ∈ cs, page'.getItemId c.itemOffnum =
    (page.getItemId c.itemOffnum).setOffset (newOffset c.itemOffnum upper cs)
  other : ∀ offset, 1 ≤ offset → (∀ c ∈ cs, c.itemOffnum ≠ offset) →
    page'.getItemId offset = page.getItemId offset
  bytes : ∀ c ∈ cs, ∀ i, i < c.itemLen →
    page'.mem (newOffset c.itemOffnum upper cs + i) = page.mem (c.tupOffset + i)

section Move

variable {page page' page1 : DataPage} {c : ItemIdCompactData} {cs : List ItemIdCompactData}
  {upper head tail : ℕ}

/-- Stacked tuples lie below their upper bound. -/
lemma Stacked.le_top (h : Stacked upper cs) : ∀ c ∈ cs, c.tupOffset + c.itemLen ≤ upper := by
  induction cs generalizing upper with
  | nil => simp
  | cons c cs ih =>
    intro d hd
    rcases mem_cons.mp hd with rfl | hd
    · exact h.1
    · have := ih h.2 d hd
      have := h.1
      omega

lemma newOffset_self : newOffset c.itemOffnum upper (c :: cs) = upper - c.itemLen := if_pos rfl

/-- The place of a tuple depends on those stacked above it. -/
lemma newOffset_of_mem (hnot : c.itemOffnum ∉ cs.map itemOffnum)
    {d : ItemIdCompactData} (hd : d ∈ cs) : newOffset d.itemOffnum upper (c :: cs) =
      newOffset d.itemOffnum (upper - c.itemLen) cs :=
  if_neg fun heq => hnot (mem_map.mpr ⟨d, hd, heq.symm⟩)

/-- The first tuple gets its new place, the others get theirs below it. -/
lemma MovedTo.cons (h : MovedTo page1 page' (upper - c.itemLen) cs)
    (hnodup : c.itemOffnum ∉ cs.map itemOffnum)
    (hv : page.ValidOffset c.itemOffnum) (hvalid : ∀ d ∈ cs, page.ValidOffset d.itemOffnum)
    (hitem1 : ∀ offset, page1.getItemId offset = (page.putItemId c.itemOffnum
      ((page.getItemId c.itemOffnum).setOffset (upper - c.itemLen))).getItemId offset)
    (hmem1 : ∀ d ∈ cs, ∀ i, i < d.itemLen →
      page1.mem (d.tupOffset + i) = page.mem (d.tupOffset + i))
    (hself : ∀ i, i < c.itemLen → page'.mem (upper - c.itemLen + i) = page.mem (c.tupOffset + i)) :
    MovedTo page page' upper (c :: cs) := by
  have hne : ∀ d ∈ cs, c.itemOffnum ≠ d.itemOffnum := fun d hd heq =>
    hnodup (mem_map.mpr ⟨d, hd, heq.symm⟩)
  refine ⟨?_, ?_, ?_⟩
  · intro d hd
    rcases mem_cons.mp hd with rfl | hd
    · rw [h.other _ hv.1 (fun e he => (hne e he).symm), hitem1, getItemId_putItemId_self hv,
        newOffset_self]
    · rw [h.item d hd, hitem1, getItemId_putItemId_of_ne hv.1 (hvalid d hd).1 (hne d hd),
        newOffset_of_mem hnodup hd]
  · intro offset hpos hnot
    rw [h.other offset hpos fun d hd => hnot d (mem_cons_of_mem _ hd), hitem1]
    exact getItemId_putItemId_of_ne hv.1 hpos (hnot c mem_cons_self) _
  · intro d hd i hi
    rcases mem_cons.mp hd with rfl | hd
    · rw [newOffset_self]
      exact hself i hi
    · rw [newOffset_of_mem hnodup hd, h.bytes d hd i hi]
      exact hmem1 d hd i hi

/-- The loop of `CompactTuples`: the pending run `[head, tail)` goes to `upper`, what is above
it stays, and the tuples `cs` are stacked below. -/
lemma moveTuples_movedTo (cs : List ItemIdCompactData) (page : DataPage) {upper head tail : ℕ}
    (hhead : head ≤ upper) (htail : head ≤ tail) (hstack : Stacked head cs)
    (hnodup : (cs.map itemOffnum).Nodup) (hvalid : ∀ c ∈ cs, page.ValidOffset c.itemOffnum) :
    (∀ a, upper + (tail - head) ≤ a → (moveTuples cs upper head tail page).1.mem a = page.mem a) ∧
    (∀ i, i < tail - head →
      (moveTuples cs upper head tail page).1.mem (upper + i) = page.mem (head + i)) ∧
    MovedTo page (moveTuples cs upper head tail page).1 upper cs := by
  induction cs generalizing page upper head tail with
  | nil =>
    refine ⟨?_, ?_, ⟨by simp, fun _ _ _ => rfl, by simp⟩⟩
    · intro a ha
      exact sameOutside_blit page.mem upper page.mem head (tail - head) a (Or.inr ha)
    · intro i hi
      exact blit_add hi
  | cons c cs ih =>
    obtain ⟨hend, hstack'⟩ := hstack
    obtain ⟨hnot, hnodup'⟩ := nodup_cons.mp hnodup
    have hv := hvalid c mem_cons_self
    have hvalid' := fun d hd => hvalid d (mem_cons_of_mem c hd)
    have hbelow := hstack'.le_top
    rw [moveTuples]
    by_cases hrun : head ≠ c.tupOffset + c.itemLen
    · -- the pending run is moved; `c` starts a new one
      rw [if_pos hrun]
      set moved := page.withMem (page.mem.copy upper head (tail - head)) with hmoved
      have hkeep : ∀ a, a < upper → moved.mem a = page.mem a := fun a ha =>
        sameOutside_blit page.mem upper page.mem head (tail - head) a (Or.inl ha)
      obtain ⟨habove, hpending, hrest⟩ := ih (moved.putItemId c.itemOffnum
        ((moved.getItemId c.itemOffnum).setOffset (upper - c.itemLen)))
        (show c.tupOffset ≤ upper - c.itemLen by omega)
        (show c.tupOffset ≤ c.tupOffset + c.itemLen by omega) hstack' hnodup'
        (fun d hd => ⟨(hvalid' d hd).1, by rw [putItemId_getMaxOffset]; exact (hvalid' d hd).2⟩)
      refine ⟨?_, ?_, ?_⟩
      · intro a ha
        rw [habove a (by omega)]
        exact sameOutside_blit page.mem upper page.mem head (tail - head) a (Or.inr ha)
      · intro i hi
        rw [habove _ (by omega)]
        exact blit_add hi
      · refine hrest.cons hnot hv hvalid' (fun _ => rfl) ?_ ?_
        · intro d hd i hi
          have := hbelow d hd
          exact hkeep _ (by omega)
        · intro i hi
          rw [hpending i (by omega)]
          exact hkeep _ (by omega)
    · -- `c` extends the pending run
      rw [if_neg hrun]
      have heq : head = c.tupOffset + c.itemLen := by simpa using hrun
      obtain ⟨habove, hpending, hrest⟩ := ih (page.putItemId c.itemOffnum
        ((page.getItemId c.itemOffnum).setOffset (upper - c.itemLen)))
        (show c.tupOffset ≤ upper - c.itemLen by omega)
        (show c.tupOffset ≤ tail by omega) hstack' hnodup'
        (fun d hd => ⟨(hvalid' d hd).1, by rw [putItemId_getMaxOffset]; exact (hvalid' d hd).2⟩)
      refine ⟨?_, ?_, ?_⟩
      · intro a ha
        exact habove a (by omega)
      · intro i hi
        have := hpending (c.itemLen + i) (by omega)
        rw [show upper - c.itemLen + (c.itemLen + i) = upper + i by omega,
          show c.tupOffset + (c.itemLen + i) = head + i by omega] at this
        exact this
      · refine hrest.cons hnot hv hvalid' (fun _ => rfl) (fun _ _ _ _ => rfl) ?_
        intro i hi
        exact hpending i (by omega)

variable (page) in
/-- `CompactTuples` from any upper bound. -/
def compactFrom (cs : List ItemIdCompactData) (upper : ℕ) : DataPage :=
  match skipContiguous cs upper with
  | ([], _) => page
  | (c :: cs', upper') =>
    (moveTuples (c :: cs') upper' (c.tupOffset + c.itemLen) (c.tupOffset + c.itemLen) page).1

variable (page) in
/-- `CompactTuples` starts at `special`. -/
lemma compactTuples_eq_compactFrom (cs : List ItemIdCompactData) :
    (page.compactTuples cs).1 = page.compactFrom cs page.special := by
  unfold compactTuples compactFrom
  rcases skipContiguous cs page.special with ⟨_ | ⟨c, cs'⟩, upper'⟩
  · rfl
  · rfl

/-- Setting an offset that an item has changes nothing. -/
lemma getItemId_putItemId_same (hoff : (page.getItemId c.itemOffnum).offset = upper)
    (offset : ℕ) : page.getItemId offset = (page.putItemId c.itemOffnum
      ((page.getItemId c.itemOffnum).setOffset upper)).getItemId offset := by
  have hsame : (page.getItemId c.itemOffnum).setOffset upper = page.getItemId c.itemOffnum := by
    rw [← hoff]
    rfl
  rw [hsame, getItemId, putItemId, getItemId, getItemId]
  by_cases hlt : c.itemOffnum - 1 < page.items.length
  · rw [getD_eq_getElem _ _ hlt, set_getElem_self]
  · rw [set_eq_of_length_le (by omega)]

/-- Every tuple gets its new offset and keeps its bytes; nothing changes above the bound. -/
lemma compactFrom_movedTo (cs : List ItemIdCompactData) (upper : ℕ) (hstack : Stacked upper cs)
    (hnodup : (cs.map itemOffnum).Nodup) (hvalid : ∀ c ∈ cs, page.ValidOffset c.itemOffnum)
    (hitem : ∀ c ∈ cs, (page.getItemId c.itemOffnum).offset = c.tupOffset) :
    (∀ a, upper ≤ a → (page.compactFrom cs upper).mem a = page.mem a) ∧
      MovedTo page (page.compactFrom cs upper) upper cs := by
  induction cs generalizing upper with
  | nil => exact ⟨fun _ _ => rfl, ⟨by simp, fun _ _ _ => rfl, by simp⟩⟩
  | cons c cs ih =>
    obtain ⟨hend, hstack'⟩ := hstack
    by_cases hgap : upper ≠ c.tupOffset + c.itemLen
    · have heq : page.compactFrom (c :: cs) upper = (moveTuples (c :: cs) upper
          (c.tupOffset + c.itemLen) (c.tupOffset + c.itemLen) page).1 := by
        rw [compactFrom, skipContiguous, if_pos hgap]
      rw [heq]
      obtain ⟨habove, _, hmoved⟩ := moveTuples_movedTo (c :: cs) page hend
        (le_refl (c.tupOffset + c.itemLen)) ⟨le_rfl, hstack'⟩ hnodup hvalid
      exact ⟨fun a ha => habove a (by omega), hmoved⟩
    · -- `c` is in place already
      have heq : page.compactFrom (c :: cs) upper = page.compactFrom cs (upper - c.itemLen) := by
        rw [compactFrom, skipContiguous, if_neg hgap, compactFrom]
      have hupper : upper - c.itemLen = c.tupOffset := by
        have : upper = c.tupOffset + c.itemLen := by simpa using hgap
        omega
      obtain ⟨hnot, hnodup'⟩ := nodup_cons.mp hnodup
      obtain ⟨habove, hmoved⟩ := ih (upper - c.itemLen) (hupper ▸ hstack') hnodup'
        (fun d hd => hvalid d (mem_cons_of_mem c hd))
        (fun d hd => hitem d (mem_cons_of_mem c hd))
      rw [heq]
      refine ⟨fun a ha => habove a (by omega), hmoved.cons hnot (hvalid c mem_cons_self)
        (fun d hd => hvalid d (mem_cons_of_mem c hd)) ?_ (fun _ _ _ _ => rfl) ?_⟩
      · apply getItemId_putItemId_same
        rw [hupper]
        exact hitem c mem_cons_self
      · intro i _
        rw [habove _ (by omega), hupper]

end Move

/-! ## Compacting a page with a layout -/

section Layout

variable {page : DataPage} {c : ItemIdCompactData} {top : ℕ} {cs : List ItemIdCompactData}

/-- The items to be compacted are the normal ones with storage. -/
lemma mem_compactableItems : c ∈ page.compactableItems ↔
    page.ValidOffset c.itemOffnum ∧ (page.getItemId c.itemOffnum).isNormal ∧
      (page.getItemId c.itemOffnum).hasStorage ∧
      c = ⟨(page.getItemId c.itemOffnum).offset, c.itemOffnum,
        (page.getItemId c.itemOffnum).len⟩ := by
  rw [compactableItems, mem_filterMap]
  constructor
  · rintro ⟨offset, hmem, hc⟩
    rw [mem_range'_1] at hmem
    by_cases hn : ((page.getItemId offset).isNormal && (page.getItemId offset).hasStorage)
    · simp only [hn, if_true, Option.some.injEq] at hc
      rw [Bool.and_eq_true] at hn
      subst hc
      exact ⟨⟨hmem.1, Nat.lt_succ_iff.mp (by rw [Nat.add_comm] at hmem; exact hmem.2)⟩,
        hn.1, hn.2, rfl⟩
    · simp [hn] at hc
  · rintro ⟨hv, hn, hs, hc⟩
    refine ⟨c.itemOffnum, mem_range'_1.mpr ⟨hv.1, by have := hv.2; omega⟩, ?_⟩
    simp only [hn, hs, Bool.and_self, if_true, Option.some.injEq]
    exact hc.symm

variable (page) in
lemma compactableItems_itemOffnum : page.compactableItems.map itemOffnum =
    (range' 1 page.getMaxOffset).filter fun offset =>
      (page.getItemId offset).isNormal && (page.getItemId offset).hasStorage := by
  rw [compactableItems]
  induction range' 1 page.getMaxOffset with
  | nil => rfl
  | cons offset offsets ih =>
    rw [filterMap_cons, filter_cons]
    by_cases hn : ((page.getItemId offset).isNormal && (page.getItemId offset).hasStorage) = true
    · simp only [hn, if_true, map_cons]
      exact congrArg (cons offset) ih
    · simp only [hn]
      exact ih

/-- Tuples that do not overlap, in descending order, are stacked. -/
lemma stacked_of_pairwise (hpair : cs.Pairwise fun a b => b.tupOffset + b.itemLen ≤ a.tupOffset)
    (htop : ∀ c ∈ cs, c.tupOffset + c.itemLen ≤ top) : Stacked top cs := by
  induction cs generalizing top with
  | nil => trivial
  | cons c cs ih =>
    rw [pairwise_cons] at hpair
    exact ⟨htop c mem_cons_self, ih hpair.2 hpair.1⟩

/-- The item has a tuple on the page. -/
def StoredItem (page : DataPage) (offset : ℕ) : Prop :=
  page.ValidOffset offset ∧ (page.getItemId offset).isNormal ∧ (page.getItemId offset).hasStorage

/-- The normal items lie in `[upper, special)` and do not overlap. -/
structure ItemsApart (page : DataPage) : Prop where
  within : ∀ offset, page.ValidOffset offset → (page.getItemId offset).isNormal →
    page.upper ≤ (page.getItemId offset).offset ∧
      (page.getItemId offset).offset + (page.getItemId offset).len ≤ page.special
  apart : ∀ offset offset', page.ValidOffset offset → page.ValidOffset offset' →
    offset ≠ offset' → (page.getItemId offset).isNormal → (page.getItemId offset').isNormal →
    (page.getItemId offset).Apart (page.getItemId offset')

/-- On a page with a layout the items lie apart. -/
lemma Layout.itemsApart (h : page.Layout) : page.ItemsApart where
  within offset hv hn := ⟨h.item_ge offset hv (isStored_of_isNormal hn),
    h.item_le offset hv (isStored_of_isNormal hn)⟩
  apart offset offset' hv hv' hne hn hn' :=
    h.apart offset offset' hv hv' hne (isStored_of_isNormal hn) (isStored_of_isNormal hn')

/-- What `CompactTuples` is called with: the stored items, from the highest to the lowest. -/
structure CompactList (page : DataPage) (cs : List ItemIdCompactData) : Prop where
  perm : cs.Perm page.compactableItems
  sorted : cs.Pairwise fun a b => b.tupOffset ≤ a.tupOffset

section

variable {cs : List ItemIdCompactData} (hcs : page.CompactList cs)
include hcs

/-- The list has the places and lengths of the stored items. -/
lemma CompactList.mem (hc : c ∈ cs) : page.StoredItem c.itemOffnum ∧
    c.tupOffset = (page.getItemId c.itemOffnum).offset ∧
    c.itemLen = (page.getItemId c.itemOffnum).len := by
  obtain ⟨hv, hn, hs, heq⟩ := mem_compactableItems.mp (hcs.perm.mem_iff.mp hc)
  exact ⟨⟨hv, hn, hs⟩, congrArg tupOffset heq,
    congrArg itemLen heq⟩

lemma CompactList.mem_of_stored {offset : ℕ} (h : page.StoredItem offset) :
    ⟨(page.getItemId offset).offset, offset, (page.getItemId offset).len⟩ ∈ cs :=
  hcs.perm.mem_iff.mpr (mem_compactableItems.mpr ⟨h.1, h.2.1, h.2.2, rfl⟩)

/-- Every item is in the list once. -/
lemma CompactList.nodup : (cs.map itemOffnum).Nodup := by
  rw [(hcs.perm.map _).nodup_iff, compactableItems_itemOffnum]
  exact (nodup_range' 1).filter _

/-- Items apart from each other are stacked below `special`. -/
lemma CompactList.stacked (h : page.ItemsApart) : Stacked page.special cs := by
  apply stacked_of_pairwise
  · refine (hcs.sorted.and (pairwise_map.mp hcs.nodup)).imp_of_mem ?_
    rintro a b ha hb ⟨hle, hne⟩
    obtain ⟨⟨hva, hna, hsa⟩, hoffa, hlena⟩ := hcs.mem ha
    obtain ⟨⟨hvb, hnb, _⟩, hoffb, hlenb⟩ := hcs.mem hb
    have hapart := h.apart a.itemOffnum b.itemOffnum hva hvb hne hna hnb
    have hpos : 0 < (page.getItemId a.itemOffnum).len := of_decide_eq_true hsa
    unfold ItemId.Apart at hapart
    omega
  · intro c hc
    obtain ⟨⟨hv, hn, _⟩, hoff, hlen⟩ := hcs.mem hc
    rw [hoff, hlen]
    exact (h.within c.itemOffnum hv hn).2

/-- Compaction moves every tuple to its new place with its bytes, and every other item stays. -/
lemma CompactList.movedTo (h : page.ItemsApart) :
    MovedTo page (page.compactTuples cs).1 page.special cs := by
  rw [compactTuples_eq_compactFrom]
  exact (compactFrom_movedTo cs page.special (hcs.stacked h) hcs.nodup
    (fun c hc => (hcs.mem hc).1.1) fun c hc => (hcs.mem hc).2.1.symm).2

end

/-- The tuples fill what is below `upper`, each byte with one of them. -/
lemma newOffset_tiles {upper : ℕ} (hlen : compactLen cs ≤ upper)
    (hnodup : (cs.map itemOffnum).Nodup) :
    (∀ c ∈ cs, upper - compactLen cs ≤ newOffset c.itemOffnum upper cs ∧
      newOffset c.itemOffnum upper cs + c.itemLen ≤ upper) ∧
    ∀ a, upper - compactLen cs ≤ a → a < upper → ∃! c, c ∈ cs ∧
      newOffset c.itemOffnum upper cs ≤ a ∧ a < newOffset c.itemOffnum upper cs + c.itemLen := by
  induction cs generalizing upper with
  | nil => simp [compactLen]
  | cons c cs ih =>
    rw [compactLen_cons] at hlen ⊢
    obtain ⟨hnot, hnodup'⟩ := nodup_cons.mp hnodup
    obtain ⟨hin, hcover⟩ := ih (show compactLen cs ≤ upper - c.itemLen by omega) hnodup'
    have hfirst : newOffset c.itemOffnum upper (c :: cs) = upper - c.itemLen := newOffset_self
    refine ⟨fun d hd => ?_, fun a hlow hhigh => ?_⟩
    · rcases mem_cons.mp hd with rfl | hd
      · omega
      · have := hin d hd
        rw [newOffset_of_mem hnot hd]
        omega
    · by_cases ha : upper - c.itemLen ≤ a
      · refine ⟨c, ⟨mem_cons_self, by omega⟩, ?_⟩
        rintro d ⟨hd, hle, hlt⟩
        rcases mem_cons.mp hd with rfl | hd
        · rfl
        · have := hin d hd
          rw [newOffset_of_mem hnot hd] at hlt
          omega
      · obtain ⟨d, ⟨hd, hplace⟩, hunique⟩ := hcover a (by omega) (by omega)
        refine ⟨d, ⟨mem_cons_of_mem c hd, by rwa [newOffset_of_mem hnot hd]⟩, ?_⟩
        rintro e ⟨he, hle, hlt⟩
        rcases mem_cons.mp he with rfl | he
        · omega
        · rw [newOffset_of_mem hnot he] at hle hlt
          exact hunique e ⟨he, hle, hlt⟩

/-- Stacked tuples take no more than the space below their bound. -/
lemma Stacked.compactLen_le (h : Stacked top cs) :
    compactLen cs ≤ top := by
  induction cs generalizing top with
  | nil => exact Nat.zero_le _
  | cons c cs ih =>
    have := ih h.2
    have := h.1
    rw [compactLen_cons]
    omega

/-- Compaction returns `special` less the lengths of the items. Then the items fill the space from
there to `special`, each byte with one of them, and every item has its bytes. -/
theorem compactTuples_compacts (h : page.ItemsApart) (hcs : page.CompactList cs) :
    (page.compactTuples cs).2 + (cs.map ItemIdCompactData.itemLen).sum = page.special ∧
    (∀ offset, page.StoredItem offset → ∃ newOff,
      (page.compactTuples cs).1.getItemId offset = (page.getItemId offset).setOffset newOff ∧
      (page.compactTuples cs).2 ≤ newOff ∧
      newOff + (page.getItemId offset).len ≤ page.special ∧
      ∀ i, i < (page.getItemId offset).len → (page.compactTuples cs).1.mem (newOff + i) =
        page.mem ((page.getItemId offset).offset + i)) ∧
    ∀ a, (page.compactTuples cs).2 ≤ a → a < page.special → ∃! offset, page.StoredItem offset ∧
      ((page.compactTuples cs).1.getItemId offset).offset ≤ a ∧
      a < ((page.compactTuples cs).1.getItemId offset).offset +
        ((page.compactTuples cs).1.getItemId offset).len := by
  have hlen := (hcs.stacked h).compactLen_le
  obtain ⟨hin, hcover⟩ := newOffset_tiles hlen hcs.nodup
  have hmoved := hcs.movedTo h
  rw [(page.compactTuples_shape cs).2]
  refine ⟨Nat.sub_add_cancel hlen, fun offset hstored => ?_, fun a hlow hhigh => ?_⟩
  · have hmem := hcs.mem_of_stored hstored
    exact ⟨_, hmoved.item _ hmem, (hin _ hmem).1, (hin _ hmem).2, hmoved.bytes _ hmem⟩
  · obtain ⟨c, ⟨hc, hle, hlt⟩, hunique⟩ := hcover a hlow hhigh
    refine ⟨c.itemOffnum, ⟨(hcs.mem hc).1, ?_⟩, ?_⟩
    · rw [hmoved.item c hc]
      exact ⟨hle, (hcs.mem hc).2.2 ▸ hlt⟩
    · rintro offset ⟨hstored, hplace⟩
      have hmem := hcs.mem_of_stored hstored
      rw [hmoved.item _ hmem] at hplace
      exact congrArg itemOffnum (hunique _ ⟨hmem, hplace⟩)

/-- The list `CompactTuples` works on. -/
def compactOrder (page : DataPage) : List ItemIdCompactData :=
  sortCompactItems page.compactableItems

variable (page) in
/-- Sorting makes the items a list that can be compacted. -/
lemma compactOrder_compactList : page.CompactList page.compactOrder where
  perm := perm_insertionSort _ _
  sorted := by
    have : Std.Total fun a b : ItemIdCompactData => b.tupOffset ≤ a.tupOffset :=
      ⟨fun a b => le_total b.tupOffset a.tupOffset⟩
    have : IsTrans ItemIdCompactData fun a b => b.tupOffset ≤ a.tupOffset :=
      ⟨fun a b c hab hbc => hbc.trans hab⟩
    exact pairwise_insertionSort _ _

/-- Two tuples with a gap between them and one behind them. -/
theorem compactTuples_compacts_twoTuples :
    let page : DataPage := ⟨.heap, ⟨1, 1⟩, 8040, 8192, false, false, false, [],
      [⟨.normal, 8120, 32⟩, ⟨.normal, 8040, 40⟩], fun a => UInt8.ofNat a, 0, 0⟩
    let done := page.compactTuples page.compactOrder
    done.2 + 72 = 8192 ∧
    (∀ offset, page.StoredItem offset → ∃ newOff,
      done.1.getItemId offset = (page.getItemId offset).setOffset newOff ∧ done.2 ≤ newOff ∧
      newOff + (page.getItemId offset).len ≤ 8192 ∧
      ∀ i, i < (page.getItemId offset).len →
        done.1.mem (newOff + i) = page.mem ((page.getItemId offset).offset + i)) ∧
    ∀ a, done.2 ≤ a → a < 8192 → ∃! offset, page.StoredItem offset ∧
      (done.1.getItemId offset).offset ≤ a ∧
      a < (done.1.getItemId offset).offset + (done.1.getItemId offset).len :=
  compactTuples_compacts (Layout.itemsApart (by decide)) (compactOrder_compactList _)

/-- Compaction of a page with a layout. -/
theorem compactAll_movedTo (h : page.Layout) :
    MovedTo page page.compactAll page.special page.compactOrder := by
  have hmoved := page.compactOrder_compactList.movedTo h.itemsApart
  exact ⟨hmoved.item, hmoved.other, hmoved.bytes⟩

variable {offset : ℕ}

section

variable (h : page.Layout) (hv : page.ValidOffset offset) (hn : (page.getItemId offset).isNormal)
include h hv hn

lemma mem_compactOrder_of_normal :
    ⟨(page.getItemId offset).offset, offset, (page.getItemId offset).len⟩ ∈ page.compactOrder := by
  have hlen := h.header_le offset hv (isStored_of_isNormal hn)
  have hpos : 0 < page.type.tupleHeaderSize := by cases page.type <;> decide
  exact page.compactOrder_compactList.mem_of_stored
    ⟨hv, hn, decide_eq_true (lt_of_lt_of_le hpos hlen)⟩

/-- A compacted tuple lies where the order puts it. -/
lemma getItemId_compactAll :
    page.compactAll.getItemId offset =
      (page.getItemId offset).setOffset (newOffset offset page.special page.compactOrder) :=
  (compactAll_movedTo h).item _ (mem_compactOrder_of_normal h hv hn)

end

/-- Items without a tuple stay. -/
lemma getItemId_compactAll_of_not_normal (h : page.Layout) (hpos : 1 ≤ offset)
    (hn : ¬ (page.getItemId offset).isNormal) :
    page.compactAll.getItemId offset = page.getItemId offset := by
  apply (compactAll_movedTo h).other offset hpos
  intro c hc heq
  obtain ⟨⟨_, hnormal, _⟩, _⟩ := page.compactOrder_compactList.mem hc
  rw [heq] at hnormal
  exact hn hnormal

end Layout

end DataPage

end DStore
