import DStore.Heap.TupleFrame
import DStore.Page.AllocTd
import Mathlib.Data.List.Induction

/-!
# Refreshing the TD links of tuples

`RefreshTupleTdStatus` loosens the tuples that hang on recycled TDs. What it leaves at each
tuple is a function of the tuple's own link and the recycle list: the td status the entry of
its TD asks for, and no locker if the locker's TD is recycled.
-/

namespace DStore

open List HeapDiskTuple TupleTdStatus ItemId BitField

section

variable (slots : List TdRecycleStatus)

/-- The entry of a TD in the recycle list: whether it is recycled as unused. -/
def slotOf (tdId : ℕ) : Option Bool :=
  (slots.find? fun slot => slot.id = tdId).map TdRecycleStatus.unused

/-- The td status once the entries `slots` have been seen, starting from `s`. -/
def statusAfter (tdId tdStatus s : ℕ) : ℕ :=
  if tdStatus = detachTd.code then s
  else
    match slotOf slots tdId with
    | none => s
    | some true => detachTd.code
    | some false => attachTdAsHistoryOwner.code

/-- The locker once the entries `slots` have been seen, starting from `l`. -/
def lockerAfter (lockerTdId l : ℕ) : ℕ :=
  if (slotOf slots lockerTdId).isSome then invalidTdSlot else l

/-- The td status a tuple has after the refresh. -/
def refreshedTdStatus (tdId status : ℕ) : ℕ :=
  statusAfter slots tdId status status

/-- The locker a tuple has after the refresh. -/
def refreshedLocker (lockerTdId : ℕ) : ℕ :=
  lockerAfter slots lockerTdId lockerTdId

end

namespace DataPage

/-- The tuple of `page` at `offset` is on `page'`, with the td status `s` and the locker `l`. -/
structure LinkAt (page page' : DataPage) (offset s l : ℕ) : Prop where
  item : page'.getItemId offset = if (page.getItemId offset).isNoStorage
    then { page.getItemId offset with offset := set 8 2 s (page.getItemId offset).offset }
    else page.getItemId offset
  header : (page.getItemId offset).isNormal = true → page'.tupleHeader offset =
    { page.tupleHeader offset with
      lockerTdId := l
      info := set 4 2 s (page.tupleHeader offset).info }
  data : (page.getItemId offset).isNormal = true → ∀ i, heapDiskTupHeaderSize ≤ i →
    i < (page.getItemId offset).len →
    page'.mem ((page.getItemId offset).offset + i) = page.mem ((page.getItemId offset).offset + i)

/-- `page'` is `page` with TD links of the tuples in `touched` edited. -/
structure LinksEdited (page page' : DataPage) (touched : ℕ → Prop) : Prop where
  layout : page'.Layout
  type_eq : page'.type = page.type
  special_eq : page'.special = page.special
  tds_eq : page'.tds = page.tds
  getMaxOffset_eq : page'.getMaxOffset = page.getMaxOffset
  frame : TupleFrame page page' touched

/-- `page'` is `page` with the td status `s` and the locker `l` at `offset`. -/
structure LinkEdit (page page' : DataPage) (offset s l : ℕ) : Prop
    extends LinksEdited page page' (· = offset), LinkAt page page' offset s l

/-- The item at `offset` has a tuple or stands for a pruned one. -/
abbrev InUse (page : DataPage) (offset : ℕ) : Prop :=
  (page.getItemId offset).isNormal ∨ (page.getItemId offset).isNoStorage

section Edit

variable {page page' : DataPage} {offset s l : ℕ}

lemma isNoStorage_of_isNormal {item : ItemId} (h : item.isNormal) : item.isNoStorage = false := by
  simp only [isNormal, isNoStorage, decide_eq_true_eq, decide_eq_false_iff_not] at h ⊢
  rw [h]
  decide

section

variable (hheap : page.type = .heap) (hn : (page.getItemId offset).isNormal)
include hheap hn

/-- For a normal item the link to the TD is read from the tuple's header. -/
lemma getTupleTdStatus_of_normal :
    page.getTupleTdStatus offset = (page.tupleHeader offset).tdStatus := by
  rw [getTupleTdStatus_of_stored (isStored_of_isNormal hn), hheap]
  rfl

lemma getTupleLockerTdId_of_normal :
    page.getTupleLockerTdId offset = (page.tupleHeader offset).lockerTdId := by
  obtain ⟨hu, hns⟩ := (isStored_iff _).mp (isStored_of_isNormal hn)
  simp only [getTupleLockerTdId, hu, hns, hheap]
  rfl

lemma getTupleTdId_of_normal : page.getTupleTdId offset = (page.tupleHeader offset).tdId := by
  obtain ⟨hu, hns⟩ := (isStored_iff _).mp (isStored_of_isNormal hn)
  simp only [getTupleTdId, hu, hns, hheap]
  rfl

end

/-- A page is edited to the links it has. -/
lemma LinkEdit.refl (hheap : page.type = .heap) (hlayout : page.Layout) (offset : ℕ) :
    LinkEdit page page offset (page.getTupleTdStatus offset) (page.getTupleLockerTdId offset) := by
  refine ⟨⟨hlayout, rfl, rfl, rfl, rfl, TupleFrame.of_eq rfl rfl⟩, ?_, ?_, fun _ _ _ _ => rfl⟩
  · split
    next hns =>
      rw [getTupleTdStatus_of_noStorage hns, tdStatusCode, set_get_self]
    · rfl
  · intro hn
    rw [getTupleTdStatus_of_normal hheap hn, getTupleLockerTdId_of_normal hheap hn,
      HeapTupleHeader.tdStatus, set_get_self]

/-- An edit of the link leaves the flags of the item. -/
lemma LinkAt.flags_eq (h : LinkAt page page' offset s l) :
    (page'.getItemId offset).flags = (page.getItemId offset).flags := by
  rw [h.item]
  split <;> rfl

/-- The item of a tuple with storage stays, as its link is in the header. -/
lemma LinkAt.item_of_normal (h : LinkAt page page' offset s l)
    (hn : (page.getItemId offset).isNormal) : page'.getItemId offset = page.getItemId offset := by
  rw [h.item, isNoStorage_of_isNormal hn]
  rfl

/-- There the edit shows in the header. -/
lemma LinkAt.header_mem (h : LinkAt page page' offset s l) (hn : (page.getItemId offset).isNormal) :
    HeapDiskTuple.header page'.mem (page.getItemId offset).offset =
      { page.tupleHeader offset with
        lockerTdId := l
        info := set 4 2 s (page.tupleHeader offset).info } := by
  rw [← h.header hn, tupleHeader, h.item_of_normal hn]

section

variable (h : LinkEdit page page' offset s l) (hheap : page.type = .heap)
    (hv : page.ValidOffset offset)
include h hheap hv

/-- A header edit of the tuple at `offset`, on top of a link edit. -/
lemma LinkEdit.withHeader (hn : (page.getItemId offset).isNormal) {mem : ByteMem}
    {s' l' : ℕ} (hedit : HeaderEdit (page.getItemId offset).offset page'.mem mem)
    (hheader : HeapDiskTuple.header mem (page.getItemId offset).offset =
      { page.tupleHeader offset with
        lockerTdId := l'
        info := set 4 2 s' (page.tupleHeader offset).info }) :
    LinkEdit page (page'.withMem mem) offset s' l' := by
  have hitem := h.item_of_normal hn
  have hv' : page'.ValidOffset offset := hv.mono h.getMaxOffset_eq.ge
  have hn' : (page'.getItemId offset).isNormal := by rw [hitem]; exact hn
  have hlen := h.layout.header_le offset hv' (isStored_of_isNormal hn')
  rw [h.type_eq, hheap, hitem] at hlen
  have hheaderSize : PageType.heap.tupleHeaderSize = heapDiskTupHeaderSize := rfl
  rw [hheaderSize] at hlen
  refine ⟨⟨h.layout.of_items rfl rfl rfl rfl rfl fun _ _ _ => rfl, h.type_eq, h.special_eq,
    h.tds_eq,
    h.getMaxOffset_eq, h.frame.trans ?_⟩, ?_, ?_, ?_⟩
  · refine TupleFrame.of_sameOutside h.layout hv' hn'
      (show (page'.withMem mem).items = _ from rfl) ?_
    rw [hitem]
    exact hedit.mono le_rfl (by omega)
  · rw [isNoStorage_of_isNormal hn]
    exact hitem
  · intro _
    rw [← hheader, ← hitem]
    rfl
  · intro _ i hi hilt
    rw [← h.data hn i hi hilt]
    exact hedit _ (Or.inr (by omega))

/-- Setting the td status. -/
lemma LinkEdit.setTdStatus
    (hused : page.InUse offset) (status : TupleTdStatus) :
    LinkEdit page (page'.setTupleTdStatus offset status) offset status.code l := by
  rcases hused with hn | hns
  · have hitem := h.item_of_normal hn
    have hset : page'.setTupleTdStatus offset status = page'.withMem
        (HeapDiskTuple.setTdStatus page'.mem (page.getItemId offset).offset status) := by
      rw [setTupleTdStatus, hitem, isNoStorage_of_isNormal hn, h.type_eq, hheap]
      rfl
    rw [hset]
    refine h.withHeader hheap hv hn (headerEdit_setTdStatus _ _ _) ?_
    rw [header_setTdStatus, h.header_mem hn]
    simp only [BitField.set_set]
  · have hns' : (page'.getItemId offset).isNoStorage := by
      rw [isNoStorage, h.flags_eq]
      exact hns
    have hnn : ¬ (page.getItemId offset).isNormal := fun hn => by
      rw [isNoStorage_of_isNormal hn] at hns
      exact absurd hns (by decide)
    have hset : page'.setTupleTdStatus offset status =
        page'.putItemId offset ((page'.getItemId offset).setTdStatus status) := if_pos hns'
    have hv' : page'.ValidOffset offset := hv.mono h.getMaxOffset_eq.ge
    rw [hset]
    refine ⟨⟨?_, h.type_eq, h.special_eq, h.tds_eq, ?_,
      h.frame.trans (TupleFrame.putItemId hv.1 _)⟩,
      ?_, fun hn => absurd hn hnn, fun hn => absurd hn hnn⟩
    · rw [← hset]
      exact (setTupleTdStatus_noStorage h.layout hv' status hns').layout
    · rw [putItemId_getMaxOffset]
      exact h.getMaxOffset_eq
    · rw [getItemId_putItemId_self hv', h.item, if_pos hns, if_pos hns, ItemId.setTdStatus]
      simp only [BitField.set_set]

/-- Releasing the locker is an edit of the link. -/
lemma LinkEdit.setLocker (hn : (page.getItemId offset).isNormal) :
    LinkEdit page (page'.setTupleLockerTdId offset invalidTdSlot) offset s invalidTdSlot := by
  have hitem := h.item_of_normal hn
  have hset : page'.setTupleLockerTdId offset invalidTdSlot = page'.withMem
      (setLockerTdId page'.mem (page.getItemId offset).offset invalidTdSlot) := by
    rw [setTupleLockerTdId, hitem]
  rw [hset]
  refine h.withHeader hheap hv hn (headerEdit_setLockerTdId _ _ _) ?_
  rw [HeapDiskTuple.header_setLockerTdId, h.header_mem hn]
  rfl

end

end Edit

/-! ## One tuple -/

section Slots

variable {slot : TdRecycleStatus} {slots : List TdRecycleStatus} {tdId : ℕ}

lemma slotOf_cons : slotOf (slot :: slots) tdId =
    if slot.id = tdId then some slot.unused else slotOf slots tdId := by
  by_cases heq : slot.id = tdId <;> simp [slotOf, heq]

lemma slotOf_eq_none (h : ∀ slot ∈ slots, slot.id ≠ tdId) : slotOf slots tdId = none := by
  rw [slotOf, find?_eq_none.mpr (by simpa using h)]
  rfl

/-- A TD that is recycled in this round is not in the list again. -/
lemma slotOf_eq_none_of_nodup (h : ((slot :: slots).map TdRecycleStatus.id).Nodup)
    (heq : slot.id = tdId) : slotOf slots tdId = none := by
  rw [map_cons, nodup_cons] at h
  apply slotOf_eq_none
  intro slot' hmem heq'
  exact h.1 (mem_map.mpr ⟨slot', hmem, heq'.trans heq.symm⟩)

variable {tdStatus s lockerTdId l : ℕ}

/-- A detached tuple has no link that a recycled TD could change. -/
lemma statusAfter_of_detached (slots : List TdRecycleStatus)
    (h : tdStatus = detachTd.code) : statusAfter slots tdId tdStatus s = s :=
  if_pos h

lemma statusAfter_of_none (h : slotOf slots tdId = none) :
    statusAfter slots tdId tdStatus s = s := by
  rw [statusAfter, h]
  split <;> rfl

/-- A tuple of the recycled TD is detached, or becomes a history version if the TD is reused. -/
lemma statusAfter_cons : statusAfter (slot :: slots) tdId tdStatus s =
    if tdStatus = detachTd.code ∨ slot.id ≠ tdId then statusAfter slots tdId tdStatus s
    else (if slot.unused then detachTd else .attachTdAsHistoryOwner).code := by
  by_cases hd : tdStatus = detachTd.code
  · simp [statusAfter, hd]
  · by_cases heq : slot.id = tdId
    · cases hu : slot.unused <;> simp [statusAfter, slotOf_cons, hd, heq, hu]
    · simp [statusAfter, slotOf_cons, hd, heq]

lemma lockerAfter_of_none (h : slotOf slots lockerTdId = none) :
    lockerAfter slots lockerTdId l = l := by
  rw [lockerAfter, h]
  rfl

/-- A locker in the recycled TD is released. -/
lemma lockerAfter_cons : lockerAfter (slot :: slots) lockerTdId l =
    if slot.id = lockerTdId then invalidTdSlot else lockerAfter slots lockerTdId l := by
  by_cases heq : slot.id = lockerTdId <;> simp [lockerAfter, slotOf_cons, heq]

lemma slotOf_tail_eq_none (h : slotOf (slot :: slots) tdId = none) : slotOf slots tdId = none := by
  rw [slotOf_cons] at h
  split_ifs at h
  exact h

variable {page page' : DataPage} {offset : ℕ}

/-- The inner loop: `detached` and `invalid` say that the status and the locker are settled. -/
lemma refreshSlots_linkEdit (hheap : page.type = .heap) (hv : page.ValidOffset offset)
    (hused : page.InUse offset) {detached invalid : Bool}
    (hnodup : (slots.map TdRecycleStatus.id).Nodup)
    (hlocker : ∀ slot ∈ slots, slot.id = lockerTdId → (page.getItemId offset).isNormal)
    (hdetached : detached →
      tdStatus = detachTd.code ∨ slotOf slots tdId = none)
    (hinvalid : invalid → slotOf slots lockerTdId = none) (h : LinkEdit page page' offset s l) :
    LinkEdit page (refreshSlots offset tdId lockerTdId tdStatus slots detached invalid page') offset
      (statusAfter slots tdId tdStatus s) (lockerAfter slots lockerTdId l) := by
  induction slots generalizing page' s l detached invalid with
  | nil =>
    rw [statusAfter_of_none rfl]
    exact h
  | cons slot slots ih =>
    rw [refreshSlots]
    split
    next hdone =>
      -- both are settled: the remaining entries name neither the TD nor the locker
      rw [Bool.and_eq_true] at hdone
      rw [lockerAfter_of_none (hinvalid hdone.2)]
      rcases hdetached hdone.1 with hd | hnone
      · rwa [statusAfter_of_detached _ hd]
      · rwa [statusAfter_of_none hnone]
    next =>
      have hnodup' : (slots.map TdRecycleStatus.id).Nodup := hnodup.of_cons
      have hlocker' : ∀ slot ∈ slots, slot.id = lockerTdId →
          (page.getItemId offset).isNormal :=
        fun slot' hmem => hlocker slot' (mem_cons_of_mem _ hmem)
      -- the locker part of the loop body
      have hlocked : ∃ l', LinkEdit page (if slot.id = lockerTdId
            then page'.setTupleLockerTdId offset invalidTdSlot else page') offset s l' ∧
          ((if slot.id = lockerTdId then true else invalid) = true →
            slotOf slots lockerTdId = none) ∧
          lockerAfter slots lockerTdId l' = lockerAfter (slot :: slots) lockerTdId l := by
        by_cases heq : slot.id = lockerTdId
        · have hnone := slotOf_eq_none_of_nodup hnodup heq
          refine ⟨invalidTdSlot, ?_, fun _ => hnone, ?_⟩
          · rw [if_pos heq]
            exact h.setLocker hheap hv (hlocker slot mem_cons_self heq)
          · rw [lockerAfter_cons, if_pos heq, lockerAfter_of_none hnone]
        · refine ⟨l, by rwa [if_neg heq], fun hi => ?_, by rw [lockerAfter_cons, if_neg heq]⟩
          rw [if_neg heq] at hi
          exact slotOf_tail_eq_none (hinvalid hi)
      obtain ⟨l', hedit, hinvalid', hl'⟩ := hlocked
      rw [← hl', statusAfter_cons]
      dsimp only
      by_cases hskip : tdStatus = detachTd.code ∨ slot.id ≠ tdId
      · rw [if_pos hskip, if_pos hskip]
        exact ih hnodup' hlocker' (fun hd => (hdetached hd).imp_right slotOf_tail_eq_none)
          hinvalid' hedit
      · rw [if_neg hskip, if_neg hskip]
        push Not at hskip
        have hnone := slotOf_eq_none_of_nodup hnodup hskip.2
        have hset := ih hnodup' hlocker' (fun _ : true = true => Or.inr hnone) hinvalid'
          (hedit.setTdStatus hheap hv hused
            (if slot.unused then .detachTd else .attachTdAsHistoryOwner))
        rwa [statusAfter_of_none hnone] at hset

end Slots

/-! ## The recycle list of a TD array -/

section RecycleList

/-- The list names TDs in the order of the array. -/
lemma recycleList_ids (k : ℕ) (rs : List (Option Bool)) :
    (recycleList k rs).map TdRecycleStatus.id <+ range' k rs.length := by
  induction rs generalizing k with
  | nil => exact Sublist.slnil
  | cons r rs ih =>
    cases r with
    | none => exact (ih (k + 1)).cons k
    | some unused => exact (ih (k + 1)).cons_cons k

/-- The recycled TDs are TDs of the page. -/
lemma recycleList_id_range {k : ℕ} {rs : List (Option Bool)} :
    ∀ slot ∈ recycleList k rs, k ≤ slot.id ∧ slot.id < k + rs.length :=
  fun _ hmem => mem_range'_1.mp ((recycleList_ids k rs).subset (mem_map_of_mem hmem))

lemma recycleList_ne_invalid {rs : List (Option Bool)} (hcount : rs.length ≤ invalidTdSlot) :
    ∀ slot ∈ recycleList 0 rs, slot.id ≠ invalidTdSlot := by
  intro slot hmem heq
  have hlt := (recycleList_id_range slot hmem).2
  omega

/-- Every TD is recycled once. -/
lemma recycleList_nodup (k : ℕ) (rs : List (Option Bool)) :
    ((recycleList k rs).map TdRecycleStatus.id).Nodup :=
  (recycleList_ids k rs).nodup nodup_range'

/-- Looking a TD up in the list gives its own decision. -/
lemma slotOf_recycleList (k : ℕ) (rs : List (Option Bool)) (i : ℕ) :
    slotOf (recycleList k rs) (k + i) = (rs[i]?).join := by
  induction rs generalizing k i with
  | nil => rfl
  | cons r rs ih =>
    cases i with
    | zero =>
      cases r with
      | none =>
        apply slotOf_eq_none
        intro slot hmem heq
        have hmem' : slot ∈ recycleList (k + 1) rs := hmem
        have := (recycleList_id_range slot hmem').1
        omega
      | some unused => rw [recycleList, slotOf_cons, if_pos (Nat.add_zero k).symm]; rfl
    | succ i =>
      have htail := ih (k + 1) i
      rw [Nat.add_right_comm, Nat.add_assoc] at htail
      cases r with
      | none => exact htail
      | some unused =>
        rw [recycleList, slotOf_cons, if_neg (by simp)]
        exact htail

end RecycleList

/-! ## All tuples -/

section Fold

variable {page page' page'' : DataPage} {touched : ℕ → Prop} {offset s l : ℕ}

/-- Every item that is not unused is in use. -/
lemma HeapWellFormed.used (h : page.HeapWellFormed) (hv : page.ValidOffset offset)
    (hu : (page.getItemId offset).isUnused = false) : page.InUse offset := by
  by_cases hns : (page.getItemId offset).isNoStorage
  · exact Or.inr hns
  · have hstored := (isStored_iff _).mpr ⟨hu, Bool.eq_false_of_not_eq_true hns⟩
    have hlen := h.layout.header_le offset hv hstored
    rw [h.heap] at hlen
    have hpos : 0 < PageType.heap.tupleHeaderSize := by decide
    exact Or.inl (h.normal_of_len offset hv (by omega))

lemma HeapWellFormed.header_le_len (h : page.HeapWellFormed) (hv : page.ValidOffset offset)
    (hn : (page.getItemId offset).isNormal) : heapDiskTupHeaderSize ≤ (page.getItemId offset).len :=
  le_trans (h.header_le_size offset hv hn) (h.size_le_len offset hv hn)

section

variable (hwf : page.HeapWellFormed)
  (hv : page.ValidOffset offset)
  (hu : (page.getItemId offset).isUnused = false)
include hwf hv hu

/-- A tuple that is not touched keeps its link. -/
lemma TupleFrame.link_eq (h : TupleFrame page page' touched)
    (htype : page'.type = page.type) (ht : ¬ touched offset) :
    page'.getTupleTdId offset = page.getTupleTdId offset ∧
      page'.getTupleTdStatus offset = page.getTupleTdStatus offset ∧
      page'.getTupleLockerTdId offset = page.getTupleLockerTdId offset := by
  have hitem := h.item offset hv ht
  have hheap' : page'.type = .heap := htype.trans hwf.heap
  rcases hwf.used hv hu with hn | hns
  · have hn' : (page'.getItemId offset).isNormal := by rw [hitem, hn]
    have hheader := h.tupleHeader_eq hv ht hn (hwf.header_le_len hv hn)
    rw [getTupleTdId_of_normal hheap' hn', getTupleTdStatus_of_normal hheap' hn',
      getTupleLockerTdId_of_normal hheap' hn', hheader]
    exact ⟨(getTupleTdId_of_normal hwf.heap hn).symm, (getTupleTdStatus_of_normal hwf.heap hn).symm,
      (getTupleLockerTdId_of_normal hwf.heap hn).symm⟩
  · simp only [getTupleTdId, getTupleTdStatus, getTupleLockerTdId, hitem, hns, hu]
    exact ⟨rfl, rfl, rfl⟩

/-- One pass of the outer loop. -/
lemma refreshTuple_linkEdit {slots : List TdRecycleStatus}
    (hnodup : (slots.map TdRecycleStatus.id).Nodup)
    (hvalid : ∀ slot ∈ slots, slot.id ≠ invalidTdSlot) :
    LinkEdit page (refreshTuple slots page offset) offset
      (refreshedTdStatus slots (page.getTupleTdId offset) (page.getTupleTdStatus offset))
      (refreshedLocker slots (page.getTupleLockerTdId offset)) := by
  have hrefl := LinkEdit.refl hwf.heap hwf.layout offset
  have hnone : page.getTupleLockerTdId offset = invalidTdSlot →
      slotOf slots (page.getTupleLockerTdId offset) = none := by
    intro hl
    rw [hl]
    exact slotOf_eq_none hvalid
  rw [refreshTuple, if_neg (by rw [hu]; decide)]
  dsimp only
  split
  next hdone =>
    rw [refreshedTdStatus, statusAfter_of_detached slots hdone.1, refreshedLocker,
      lockerAfter_of_none (hnone hdone.2)]
    exact hrefl
  next =>
    apply refreshSlots_linkEdit hwf.heap hv (hwf.used hv hu) hnodup _ _ _ hrefl
    · intro slot hmem heq
      rcases hwf.used hv hu with hn | hns
      · exact hn
      · have hl : page.getTupleLockerTdId offset = invalidTdSlot := by
          simp [getTupleLockerTdId, hns]
        exact absurd (heq.trans hl) (hvalid slot hmem)
    · intro hd
      exact Or.inl (of_decide_eq_true hd)
    · intro hl
      exact hnone (of_decide_eq_true hl)

end

/-- The tuples in `touched` have been refreshed by `slots`. -/
structure Refreshed (slots : List TdRecycleStatus) (page page' : DataPage) (touched : ℕ → Prop) :
    Prop extends LinksEdited page page' touched where
  unused : ∀ offset, page.ValidOffset offset → (page.getItemId offset).isUnused = true →
    page'.getItemId offset = page.getItemId offset
  link : ∀ offset, page.ValidOffset offset → (page.getItemId offset).isUnused = false →
    touched offset → LinkAt page page' offset
      (refreshedTdStatus slots (page.getTupleTdId offset) (page.getTupleTdStatus offset))
      (refreshedLocker slots (page.getTupleLockerTdId offset))

variable {slots : List TdRecycleStatus}

section

variable (h : Refreshed slots page page' touched)
include h

/-- The refresh leaves flags and lengths of items. -/
lemma Refreshed.item_shape (hv : page.ValidOffset offset) :
    (page'.getItemId offset).flags = (page.getItemId offset).flags ∧
      (page'.getItemId offset).len = (page.getItemId offset).len := by
  cases hu : (page.getItemId offset).isUnused with
  | true =>
    rw [h.unused offset hv hu]
    exact ⟨rfl, rfl⟩
  | false =>
    by_cases ht : touched offset
    · rw [(h.link offset hv hu ht).item]
      split <;> exact ⟨rfl, rfl⟩
    · rw [h.frame.item offset hv ht]
      exact ⟨rfl, rfl⟩

lemma Refreshed.tupleSize_eq (hwf : page.HeapWellFormed)
    (hv : page.ValidOffset offset) (hn : (page.getItemId offset).isNormal) :
    (page'.tupleHeader offset).size = (page.tupleHeader offset).size := by
  have hu := ((isStored_iff _).mp (isStored_of_isNormal hn)).1
  by_cases ht : touched offset
  · rw [(h.link offset hv hu ht).header hn]
  · rw [h.frame.tupleHeader_eq hv ht hn (hwf.header_le_len hv hn)]

/-- The refresh keeps the page well formed. -/
lemma Refreshed.heapWellFormed (hwf : page.HeapWellFormed) : page'.HeapWellFormed := by
  have hvalid : ∀ offset, page'.ValidOffset offset → page.ValidOffset offset :=
    fun offset hv => hv.mono h.getMaxOffset_eq.le
  have hnormal : ∀ offset, page'.ValidOffset offset → (page'.getItemId offset).isNormal =
      (page.getItemId offset).isNormal := by
    intro offset hv
    rw [isNormal, isNormal, (h.item_shape (hvalid offset hv)).1]
  refine ⟨h.type_eq.trans hwf.heap, h.layout, ?_, ?_, ?_⟩
  · intro offset hv hlen
    rw [(h.item_shape (hvalid offset hv)).2] at hlen
    rw [hnormal offset hv]
    exact hwf.normal_of_len offset (hvalid offset hv) hlen
  · intro offset hv hn
    rw [hnormal offset hv] at hn
    rw [h.tupleSize_eq hwf (hvalid offset hv) hn]
    exact hwf.header_le_size offset (hvalid offset hv) hn
  · intro offset hv hn
    rw [hnormal offset hv] at hn
    rw [h.tupleSize_eq hwf (hvalid offset hv) hn, (h.item_shape (hvalid offset hv)).2]
    exact hwf.size_le_len offset (hvalid offset hv) hn

end

/-- An edit of the link survives changes at other offsets. -/
lemma LinkAt.of_frame (h : LinkAt page page' offset s l) (hwf : page'.HeapWellFormed)
    (hframe : TupleFrame page' page'' touched) (hv : page'.ValidOffset offset)
    (ht : ¬ touched offset) : LinkAt page page'' offset s l := by
  have hnormal : (page.getItemId offset).isNormal → (page'.getItemId offset).isNormal := by
    intro hn
    rw [h.item_of_normal hn, hn]
  refine ⟨(hframe.item offset hv ht).trans h.item, ?_, ?_⟩
  · intro hn
    rw [hframe.tupleHeader_eq hv ht (hnormal hn) (hwf.header_le_len hv (hnormal hn))]
    exact h.header hn
  · intro hn i hi hlt
    have hbytes := hframe.bytes offset hv ht (hnormal hn) i (by rw [h.item_of_normal hn]; exact hlt)
    rw [h.item_of_normal hn] at hbytes
    rw [hbytes]
    exact h.data hn i hi hlt

/-- Changes at other offsets may come before the edit. -/
lemma LinkAt.after_frame (h : LinkAt page' page'' offset s l) (hwf : page.HeapWellFormed)
    (hframe : TupleFrame page page' touched) (hv : page.ValidOffset offset)
    (ht : ¬ touched offset) : LinkAt page page'' offset s l := by
  have hitem := hframe.item offset hv ht
  obtain ⟨h1, h2, h3⟩ := h
  rw [hitem] at h1 h2 h3
  refine ⟨h1, ?_, ?_⟩
  · intro hn
    rw [h2 hn, hframe.tupleHeader_eq hv ht hn (hwf.header_le_len hv hn)]
  · intro hn i hi hlt
    rw [h3 hn i hi hlt]
    exact hframe.bytes offset hv ht hn i hlt

/-- One more tuple is refreshed. -/
lemma Refreshed.step (h : Refreshed slots page page' touched) (hwf : page.HeapWellFormed)
    (hv : page.ValidOffset offset) (ht : ¬ touched offset)
    (hnodup : (slots.map TdRecycleStatus.id).Nodup)
    (hvalid : ∀ slot ∈ slots, slot.id ≠ invalidTdSlot) :
    Refreshed slots page (refreshTuple slots page' offset)
      fun offset' => touched offset' ∨ offset' = offset := by
  have hwf' := h.heapWellFormed hwf
  have hv' : page'.ValidOffset offset := hv.mono h.getMaxOffset_eq.ge
  have hitem := h.frame.item offset hv ht
  cases hu : (page.getItemId offset).isUnused with
  | true =>
    have hsame : refreshTuple slots page' offset = page' := by
      rw [refreshTuple, hitem, if_pos hu]
    rw [hsame]
    refine ⟨⟨h.layout, h.type_eq, h.special_eq, h.tds_eq, h.getMaxOffset_eq,
      h.frame.mono fun _ => Or.inl⟩, h.unused, ?_⟩
    intro offset' hv1 hu1 ht1
    rcases ht1 with ht1 | rfl
    · exact h.link offset' hv1 hu1 ht1
    · rw [hu] at hu1
      exact absurd hu1 (by decide)
  | false =>
    have hu' : (page'.getItemId offset).isUnused = false := by rw [hitem, hu]
    have hedit := refreshTuple_linkEdit hwf' hv' hu' hnodup hvalid
    obtain ⟨htd, hstatus, hlocker⟩ := h.frame.link_eq hwf hv hu h.type_eq ht
    rw [htd, hstatus, hlocker] at hedit
    refine ⟨⟨hedit.layout, hedit.type_eq.trans h.type_eq, hedit.special_eq.trans h.special_eq,
      hedit.tds_eq.trans h.tds_eq, hedit.getMaxOffset_eq.trans h.getMaxOffset_eq,
      (h.frame.mono fun _ => Or.inl).trans (hedit.frame.mono fun _ => Or.inr)⟩, ?_, ?_⟩
    · intro offset' hv1 hu1
      have hne : offset' ≠ offset := by
        rintro rfl
        rw [hu] at hu1
        exact absurd hu1 (by decide)
      rw [hedit.frame.item offset' (hv1.mono h.getMaxOffset_eq.ge) hne]
      exact h.unused offset' hv1 hu1
    · intro offset' hv1 hu1 ht1
      by_cases heq : offset' = offset
      · rw [heq]
        exact hedit.toLinkAt.after_frame hwf h.frame hv ht
      · have hlink := h.link offset' hv1 hu1 (ht1.resolve_right heq)
        exact hlink.of_frame hwf' hedit.frame (hv1.mono h.getMaxOffset_eq.ge) heq

section

variable (hwf : page.HeapWellFormed) (hnodup : (slots.map TdRecycleStatus.id).Nodup)
    (hvalid : ∀ slot ∈ slots, slot.id ≠ invalidTdSlot)
include hwf hnodup hvalid

/-- One refresh after the other, each for an offset of its own. -/
lemma foldl_refreshTuple (offsets : List ℕ) (hdistinct : offsets.Nodup)
    (hrange : ∀ offset ∈ offsets, page.ValidOffset offset) :
    Refreshed slots page (offsets.foldl (refreshTuple slots) page) (· ∈ offsets) := by
  induction offsets using reverseRecOn with
  | nil =>
    refine ⟨⟨hwf.layout, rfl, rfl, rfl, rfl, TupleFrame.of_eq rfl rfl⟩, fun _ _ _ => rfl, ?_⟩
    intro offset _ _ hmem
    exact absurd hmem not_mem_nil
  | append_singleton offsets offset ih =>
    rw [nodup_append] at hdistinct
    have hnew : offset ∉ offsets := fun hmem => hdistinct.2.2 offset hmem offset (by simp) rfl
    have hdone := ih hdistinct.1 fun offset' hmem => hrange offset' (by simp [hmem])
    rw [foldl_append]
    have hstep := hdone.step hwf (hrange offset (by simp)) hnew hnodup hvalid
    simpa only [mem_append, mem_singleton, foldl_cons, foldl_nil] using hstep

/-- `RefreshTupleTdStatus` gives every tuple the link that the recycle list asks for. -/
theorem refreshTupleTdStatus_refreshed :
    Refreshed slots page (page.refreshTupleTdStatus slots) page.ValidOffset := by
  have hmem : ∀ offset, offset ∈ range' 1 page.getMaxOffset ↔ page.ValidOffset offset := by
    intro offset
    rw [mem_range'_1, ValidOffset]
    omega
  have hfold := foldl_refreshTuple hwf hnodup hvalid (range' 1 page.getMaxOffset)
    (nodup_range' 1) fun offset => (hmem offset).mp
  rwa [funext fun offset => propext (hmem offset)] at hfold

end

end Fold

end DataPage

end DStore
