import DStore.Index.IndexTuple

/-!
# Descending a b-tree

A b-tree is a list of levels, the root's first, each the chain of its pages from left to
right. A page keeps its items as the source does: on a page with a right sibling item 1 is
the high key and the data start at item 2. A search walks right while the key lies beyond
the high key, then follows the downlink a binary search picks.
-/

namespace DStore

/-- `BtrPage`: its id, its type, the right link and the tuples of its item array. -/
structure BtrPage (V : Type) where
  pageId : PageId
  isLeaf : Bool
  next : Option PageId
  items : List (IndexTuple V)
deriving DecidableEq, Repr

/-- The pages of one level, from left to right. -/
abbrev BtrLevel (V : Type) := List (BtrPage V)

/-- `BTREE_PAGE_HIKEY`. -/
def btreePageHikey : ℕ := 1

/-- `BTREE_PAGE_FIRSTKEY`. -/
def btreePageFirstkey : ℕ := 2

namespace BtrPage

variable {V : Type} (page : BtrPage V)

/-- `IsRightmost`. -/
def isRightmost : Bool := page.next.isNone

/-- `GetFirstDataOffset`. -/
def getFirstDataOffset : ℕ := if page.isRightmost then btreePageHikey else btreePageFirstkey

/-- `GetMaxOffset`. -/
def getMaxOffset : ℕ := page.items.length

/-- `GetIndexTuple`, at a one-based offset. -/
def getIndexTuple (offset : ℕ) : Option (IndexTuple V) := page.items[offset - 1]?

/-- The items from the first data offset on. -/
def dataItems : List (IndexTuple V) := page.items.drop (page.getFirstDataOffset - 1)

/-- The high key of a page with a right sibling. -/
def hikey : Option (IndexTuple V) :=
  if page.isRightmost then none else page.getIndexTuple btreePageHikey

end BtrPage

section Search

variable {V : Type} [LinearOrder V] (key : ScanKeyValues V) (strictlyGreaterThanKey : Bool)

/-- `goRightVal`. -/
def goRightVal (strictlyGreaterThanKey : Bool) : ℤ := if strictlyGreaterThanKey then 0 else 1

namespace BtrPage

/-- `CompareKeyToTuple` at an offset: the first data item of an internal page is minus
infinity. -/
def compareKeyAt (page : BtrPage V) (offset : ℕ) : ℤ :=
  if !page.isLeaf && offset == page.getFirstDataOffset then 1
  else match page.getIndexTuple offset with
    | some t => compareKeyToTuple key t
    | none => 0

/-- `BinarySearchOnPage`: on a leaf the first item beyond the key, on an internal page the item
before it. -/
def binarySearchOnPage (page : BtrPage V) : ℕ :=
  let low := page.getFirstDataOffset
  let high := page.getMaxOffset
  if high < low then low
  else
    let found := PrefixSearch.lowerBound
      (fun offset => decide (goRightVal strictlyGreaterThanKey ≤ page.compareKeyAt key offset))
      low (high + 1 - low)
    if page.isLeaf then found else found - 1

/-- The test of `StepRightIfNeeded`: the key lies beyond the high key. -/
def goesRight (page : BtrPage V) : Bool :=
  !page.isRightmost &&
    decide (goRightVal strictlyGreaterThanKey ≤ page.compareKeyAt key btreePageHikey)

end BtrPage

/-- `StepRightIfNeeded`, on the pages of a level from the current one rightwards. -/
def stepRightIfNeeded (pages : BtrLevel V) : BtrLevel V :=
  pages.dropWhile (BtrPage.goesRight key strictlyGreaterThanKey)

/-- Where a descent ends: the leaf, and the last internal page it went through. -/
structure SearchResult where
  leaf : PageId
  lastUsedParentPage : Option PageId
deriving DecidableEq, Repr

/-- `SearchBtreeFromInternalPage`: `below` are the levels under that of `pages`, which starts
with the current page. -/
def searchBtreeFromInternalPage :
    List (BtrLevel V) → BtrLevel V → Option PageId → Option SearchResult
  | below, pages, parent =>
    match stepRightIfNeeded key strictlyGreaterThanKey pages with
    | [] => none
    | page :: _ =>
      if page.isLeaf then some ⟨page.pageId, parent⟩
      else match below with
        | [] => none
        | level :: below =>
          match page.getIndexTuple (page.binarySearchOnPage key strictlyGreaterThanKey) with
          | none => none
          | some childTuple =>
            searchBtreeFromInternalPage below
              (level.dropWhile (fun child => child.pageId != childTuple.lowlevelIndexpageLink))
              (some page.pageId)

end Search

/-- A b-tree: its levels, the root's first. -/
structure Btree (V : Type) where
  info : IndexInfo
  levels : List (BtrLevel V)

namespace Btree

variable {V : Type} [LinearOrder V] (tree : Btree V) (key : ScanKeyValues V)
  (strictlyGreaterThanKey : Bool)

/-- `SearchBtree`: the search from the root. -/
def searchBtree : Option SearchResult :=
  match tree.levels with
  | [] => none
  | root :: below => searchBtreeFromInternalPage key strictlyGreaterThanKey below root none

end Btree

/-! ## Well-formed trees -/

namespace BtrPage

variable {V : Type} [LinearOrder V]

/-- The components of the high key. -/
def hikeyParts (opts : List IndexOption) (page : BtrPage V) : Option (List (KeyPart V)) :=
  page.hikey.map (IndexTuple.parts opts)

/-- The children of an internal page: the downlinks point to them from left to right, each
separator is the high key of the child before it, and the page ends where its last child
ends. -/
@[mk_iff]
structure CoversKids (opts : List IndexOption) (page : BtrPage V) (kids : BtrLevel V) :
    Prop where
  internal : page.isLeaf = false
  nonempty : kids ≠ []
  links : page.dataItems.map (fun item => item.lowlevelIndexpageLink) =
    kids.map BtrPage.pageId
  separators_ok : ∀ item ∈ page.dataItems.tail, item.Ok opts
  separators : page.dataItems.tail.map (fun item => some (item.parts opts)) =
    kids.dropLast.map (hikeyParts opts)
  hikey_last : page.hikeyParts opts = kids.getLast?.bind (hikeyParts opts)

set_option synthInstance.maxSize 512 in
instance decidableCoversKids (opts : List IndexOption) (page : BtrPage V) (kids : BtrLevel V) :
    Decidable (page.CoversKids opts kids) :=
  decidable_of_iff _ (coversKids_iff opts page kids).symm

end BtrPage

section WellFormed

variable {V : Type} [LinearOrder V]

/-- A level lies over the one below it: its pages divide the lower chain among them. -/
inductive LevelCovers (opts : List IndexOption) : BtrLevel V → BtrLevel V → Prop
  | nil : LevelCovers opts [] []
  | cons {page : BtrPage V} {pages kids downs : BtrLevel V} :
      page.CoversKids opts kids → LevelCovers opts pages downs →
      LevelCovers opts (page :: pages) (kids ++ downs)

/-- A chain of pages: only the last is rightmost, the others have a high key, and the high keys
ascend. -/
@[mk_iff]
structure LevelOk (opts : List IndexOption) (pages : BtrLevel V) : Prop where
  nodup : (pages.map BtrPage.pageId).Nodup
  not_rightmost : ∀ page ∈ pages.dropLast, page.isRightmost = false
  rightmost : ∀ page, pages.getLast? = some page → page.isRightmost = true
  nonempty : pages ≠ []
  stored : ∀ page ∈ pages, page.isRightmost = false → page.items ≠ []
  hikey_ok : ∀ page ∈ pages, ∀ h, page.hikey = some h → h.Ok opts
  ordered : (pages.filterMap (BtrPage.hikeyParts opts)).Pairwise (· ≤ ·)

set_option synthInstance.maxSize 512 in
instance decidableLevelOk (opts : List IndexOption) (pages : BtrLevel V) :
    Decidable (LevelOk opts pages) :=
  decidable_of_iff _ (levelOk_iff opts pages).symm

/-- A well-formed b-tree: one root page, every level a chain that lies over the next one,
leaves at the bottom only, and no page twice. -/
structure Btree.WellFormed (tree : Btree V) : Prop where
  root : ∃ page, tree.levels.head? = some [page]
  nodup : (tree.levels.flatten.map BtrPage.pageId).Nodup
  levels_ok : ∀ level ∈ tree.levels, LevelOk tree.info.indexOption level
  covers : tree.levels.IsChain (LevelCovers tree.info.indexOption)
  leaves : ∀ level, tree.levels.getLast? = some level → ∀ page ∈ level, page.isLeaf = true

end WellFormed

/-! ## One page -/

namespace BtrPage

variable {V : Type}

lemma getFirstDataOffset_pos (page : BtrPage V) : 1 ≤ page.getFirstDataOffset := by
  unfold getFirstDataOffset btreePageHikey btreePageFirstkey
  split_ifs <;> decide

/-- Data tuples are counted from the first data offset. -/
lemma getIndexTuple_data (page : BtrPage V) (r : ℕ) :
    page.getIndexTuple (page.getFirstDataOffset + r) = page.dataItems[r]? := by
  have hpos := page.getFirstDataOffset_pos
  rw [getIndexTuple, dataItems, List.getElem?_drop]
  congr 1
  omega

lemma length_dataItems (page : BtrPage V) :
    page.dataItems.length = page.getMaxOffset + 1 - page.getFirstDataOffset := by
  have hpos := page.getFirstDataOffset_pos
  rw [dataItems, List.length_drop, getMaxOffset]
  omega

variable [LinearOrder V] {key : ScanKeyValues V} {strict : Bool} {opts : List IndexOption}
  {page : BtrPage V} {kids before after : BtrLevel V}

open PrefixSearch List Option

/-- The binary search separates the data items the key has passed from the others. -/
lemma binarySearchOnPage_eq {n : ℕ} (hn : n ≤ page.dataItems.length)
    (hleaf : page.isLeaf ∨ page.dataItems ≠ []) (hbefore : ∀ r, r < n →
      goRightVal strict ≤ page.compareKeyAt key (page.getFirstDataOffset + r))
    (hafter : ∀ r, n ≤ r → r < page.dataItems.length →
      ¬ goRightVal strict ≤ page.compareKeyAt key (page.getFirstDataOffset + r)) :
    page.binarySearchOnPage key strict =
      if page.isLeaf then page.getFirstDataOffset + n else page.getFirstDataOffset + n - 1 := by
  have hlen := page.length_dataItems
  unfold binarySearchOnPage
  by_cases hempty : page.getMaxOffset < page.getFirstDataOffset
  · have hnil : page.dataItems.length = 0 := by omega
    have hl : page.isLeaf :=
      hleaf.resolve_right (fun hne => hne (length_eq_zero_iff.1 hnil))
    rw [if_pos hempty, if_pos hl]
    omega
  · rw [if_neg hempty]
    have hfound : lowerBound (fun offset =>
        decide (goRightVal strict ≤ page.compareKeyAt key offset)) page.getFirstDataOffset
        (page.getMaxOffset + 1 - page.getFirstDataOffset) = page.getFirstDataOffset + n :=
      lowerBound_eq (by omega) (by omega)
      (fun i hlo hhi => by
        have hr := hbefore (i - page.getFirstDataOffset) (by omega)
        rw [Nat.add_sub_cancel' hlo] at hr
        exact decide_eq_true hr)
      (fun i hlo hhi => by
        have hr := hafter (i - page.getFirstDataOffset) (by omega) (by omega)
        rw [Nat.add_sub_cancel' (by omega)] at hr
        exact decide_eq_false hr)
    dsimp only
    rw [hfound]

/-- The key lies beyond the high key. -/
def Past (key : ScanKeyValues V) (strict : Bool) (opts : List IndexOption) (page : BtrPage V) :
    Prop :=
  ∃ h ∈ page.hikeyParts opts, Passed strict key.parts h

/-- The comparison with the high key decides whether the key has passed the tuple. -/
lemma goRightVal_le_iff (hkey : key.Ok opts) {t : IndexTuple V} (ht : t.Ok opts) :
    goRightVal strict ≤ compareKeyToTuple key t ↔ Passed strict key.parts (t.parts opts) := by
  rw [compareKeyToTuple_eq hkey ht]
  exact Iff.rfl

/-- The test on the high key, in the order of components. -/
lemma goesRight_iff (hkey : key.Ok opts) (hstored : page.isRightmost = false → page.items ≠ [])
    (hok : ∀ h, page.hikey = some h → h.Ok opts) :
    page.goesRight key strict ↔ Past key strict opts page := by
  unfold goesRight Past hikeyParts
  cases hr : page.isRightmost with
  | true => simp [hikey, hr]
  | false =>
    obtain ⟨item, items, hitems⟩ := exists_cons_of_ne_nil (hstored hr)
    have htuple : page.getIndexTuple btreePageHikey = some item := by
      rw [getIndexTuple, hitems]
      rfl
    have hhikey : page.hikey = some item := by
      rw [hikey, hr, if_neg Bool.false_ne_true, htuple]
    have hcmp : page.compareKeyAt key btreePageHikey = compareKeyToTuple key item := by
      -- the high key is not the first data item
      have hfirst : (btreePageHikey == page.getFirstDataOffset) = false := by
        rw [getFirstDataOffset, hr]
        rfl
      rw [compareKeyAt, hfirst, Bool.and_false, if_neg Bool.false_ne_true, htuple]
    rw [hcmp, hhikey]
    simp only [Bool.not_false, Bool.true_and, decide_eq_true_eq, map_some,
      mem_def, some.injEq, exists_eq_left']
    exact goRightVal_le_iff hkey (hok _ hhikey)

/-- A key goes behind a pivot exactly if it has passed the child before it. -/
lemma CoversKids.compareKeyAt_succ (hc : page.CoversKids opts kids) (hkey : key.Ok opts) {r : ℕ}
    {kid : BtrPage V} (hkid : kids.dropLast[r]? = some kid) :
    goRightVal strict ≤ page.compareKeyAt key (page.getFirstDataOffset + (r + 1)) ↔
      Past key strict opts kid := by
  have hsep := congrArg (fun l => l[r]?) hc.separators
  simp only [getElem?_map, hkid, map_some] at hsep
  obtain ⟨item, hitem, hparts⟩ := map_eq_some_iff.1 hsep
  have hok : item.Ok opts := hc.separators_ok item (mem_of_getElem? hitem)
  have htuple : page.getIndexTuple (page.getFirstDataOffset + (r + 1)) = some item := by
    rw [getIndexTuple_data, ← getElem?_tail, hitem]
  have hfirst : (page.getFirstDataOffset + (r + 1) == page.getFirstDataOffset) = false := by
    simp
  rw [compareKeyAt, hfirst, Bool.and_false, if_neg Bool.false_ne_true, htuple, Past, ← hparts]
  simp only [mem_def, some.injEq, exists_eq_left']
  exact goRightVal_le_iff hkey hok

omit [LinearOrder V] in
/-- An internal page has one downlink for each child. -/
lemma CoversKids.length_dataItems (hc : page.CoversKids opts kids) :
    page.dataItems.length = kids.length := by
  rw [← length_map (f := fun item : IndexTuple V => item.lowlevelIndexpageLink), hc.links,
    length_map]

/-- The downlink the binary search picks leads to the first child whose high key the key has
not passed, or to the last child. -/
lemma CoversKids.childTuple {c : BtrPage V} (hc : page.CoversKids opts kids) (hkey : key.Ok opts)
    (hkids : kids = before ++ c :: after) (hbefore : ∀ kid ∈ before, Past key strict opts kid)
    (hafter : ∀ kid ∈ (c :: after).dropLast, ¬ Past key strict opts kid) :
    ∃ t, page.getIndexTuple (page.binarySearchOnPage key strict) = some t ∧
      t.lowlevelIndexpageLink = c.pageId := by
  have hdrop : kids.dropLast = before ++ (c :: after).dropLast := by
    rw [hkids, dropLast_append_of_ne_nil (by simp)]
  have hlen := hc.length_dataItems
  have hkidslen : kids.length = before.length + 1 + after.length := by
    rw [hkids, length_append, length_cons]
    omega
  have hoff : page.binarySearchOnPage key strict =
      page.getFirstDataOffset + (before.length + 1) - 1 := by
    rw [binarySearchOnPage_eq (n := before.length + 1) (by omega)
      (Or.inr (length_pos_iff.1 (by omega))) ?_ ?_, hc.internal,
      if_neg Bool.false_ne_true]
    · intro r hr
      cases r with
      | zero =>
        -- the first downlink counts as minus infinity
        rw [Nat.add_zero, compareKeyAt, hc.internal, beq_self_eq_true, goRightVal]
        cases strict <;> simp
      | succ r =>
        have hkid : kids.dropLast[r]? = before[r]? := by
          rw [hdrop, getElem?_append_left (by omega)]
        obtain ⟨kid, hk⟩ : ∃ kid, before[r]? = some kid :=
          ⟨before[r], getElem?_eq_getElem (by omega)⟩
        rw [hc.compareKeyAt_succ hkey (hkid.trans hk)]
        exact hbefore kid (mem_of_getElem? hk)
    · intro r hr hlt
      obtain ⟨r, rfl⟩ : ∃ r', r = r' + 1 := ⟨r - 1, by omega⟩
      have hin : r - before.length < (c :: after).dropLast.length := by
        rw [length_dropLast, length_cons]
        omega
      have hkid : kids.dropLast[r]? = (c :: after).dropLast[r - before.length]? := by
        rw [hdrop, getElem?_append_right (by omega)]
      rw [getElem?_eq_getElem hin] at hkid
      rw [hc.compareKeyAt_succ hkey hkid]
      exact hafter _ (getElem_mem hin)
  have hlink := congrArg (fun l => l[before.length]?) hc.links
  simp only [getElem?_map, hkids, getElem?_append_right (le_refl _), Nat.sub_self,
    getElem?_cons_zero, map_some] at hlink
  obtain ⟨item, hitem, heq⟩ := map_eq_some_iff.1 hlink
  refine ⟨item, ?_, heq⟩
  rw [hoff, show page.getFirstDataOffset + (before.length + 1) - 1 =
    page.getFirstDataOffset + before.length by omega, getIndexTuple_data, hitem]

end BtrPage

/-! ## One level -/

section Level

variable {V : Type} [LinearOrder V] {key : ScanKeyValues V} {strict : Bool}
  {opts : List IndexOption} {page : BtrPage V} {pages downs before after kids : BtrLevel V}

/-- The level right above the leaves, if the search starts above them. -/
def parentLevel : List (BtrLevel V) → Option (BtrLevel V)
  | [] => none
  | [_] => none
  | [parents, _] => some parents
  | _ :: level :: next :: below => parentLevel (level :: next :: below)

open BtrPage PrefixSearch List

/-- The page of a level where the search stops: the first whose high key the key has not
passed. -/
def Landed (key : ScanKeyValues V) (strict : Bool) (opts : List IndexOption)
    (pages : BtrLevel V) (page : BtrPage V) : Prop :=
  ∃ before after, pages = before ++ page :: after ∧ (∀ p ∈ before, Past key strict opts p) ∧
    ¬ Past key strict opts page

section

variable {p : BtrPage V} (hok : LevelOk opts pages)
    (hpages : pages = before ++ page :: after) (hp : p ∈ before)
include hok hpages hp

/-- A page that is not the last of its level has a high key. -/
lemma LevelOk.hikeyParts_ne_none : ∃ h, p.hikeyParts opts = some h := by
  have hmem : p ∈ pages.dropLast := by
    rw [hpages, dropLast_append_of_ne_nil (by simp)]
    exact mem_append_left _ hp
  have hr := hok.not_rightmost p hmem
  obtain ⟨item, items, hitems⟩ :=
    exists_cons_of_ne_nil (hok.stored p (dropLast_subset _ hmem) hr)
  refine ⟨item.parts opts, ?_⟩
  rw [hikeyParts, BtrPage.hikey, hr, if_neg Bool.false_ne_true, getIndexTuple, hitems]
  rfl

/-- High keys grow from left to right. -/
lemma LevelOk.hikeyParts_le {h h' : List (KeyPart V)} (hh : p.hikeyParts opts = some h)
    (hh' : page.hikeyParts opts = some h') : h ≤ h' := by
  have hord := hok.ordered
  rw [pairwise_filterMap, hpages, pairwise_append] at hord
  exact hord.2.2 p hp page mem_cons_self h hh h' hh'

/-- A key that has passed a page has passed those on its left. -/
lemma LevelOk.past_of_past (hpast : Past key strict opts page) : Past key strict opts p := by
  obtain ⟨h', hh', hpassed⟩ := hpast
  obtain ⟨h, hh⟩ := hok.hikeyParts_ne_none hpages hp
  exact ⟨h, hh, hpassed.mono (hok.hikeyParts_le hpages hp hh hh')⟩

end

/-- No key passes the rightmost page. -/
lemma not_past_of_rightmost (h : page.isRightmost) :
    ¬ Past key strict opts page := by
  rintro ⟨k, hk, -⟩
  rw [hikeyParts, BtrPage.hikey, h, if_pos rfl] at hk
  simp at hk

open Classical in
/-- The search stops at the first page the key is not past. -/
lemma landed_iff : Landed key strict opts pages page ↔
    pages.find? (fun p => decide ¬ Past key strict opts p) = some page := by
  simp only [find?_eq_some_iff_append, Landed, decide_eq_true_eq]
  constructor
  · rintro ⟨before, after, heq, hbefore, hpage⟩
    exact ⟨hpage, before, after, heq, fun p hp => by simpa using hbefore p hp⟩
  · rintro ⟨hpage, before, after, heq, hbefore⟩
    exact ⟨before, after, heq, fun p hp => by simpa using hbefore p hp, hpage⟩

/-- If some page is not passed, the search has a page to land on. -/
lemma exists_landed (hmem : page ∈ pages)
    (hnot : ¬ Past key strict opts page) : ∃ page', Landed key strict opts pages page' := by
  classical
  simp only [landed_iff, ← Option.isSome_iff_exists, find?_isSome, decide_eq_true_eq]
  exact ⟨page, hmem, hnot⟩

/-- That page is unique. -/
lemma Landed.unique {page' : BtrPage V} (h : Landed key strict opts pages page)
    (h' : Landed key strict opts pages page') :
    page = page' :=
  Option.some.inj ((landed_iff.1 h).symm.trans (landed_iff.1 h'))

lemma dropWhile_append_cons {α : Type*} {p : α → Bool} {before after : List α} {x : α}
    (hbefore : ∀ a ∈ before, p a) (hx : p x = false) :
    (before ++ x :: after).dropWhile p = x :: after := by
  rw [dropWhile_append_of_pos hbefore,
    dropWhile_cons_of_neg (fun h => absurd (hx.symm.trans h) Bool.false_ne_true)]

omit [LinearOrder V] in
lemma dropWhile_pageId (hnodup : ((before ++ page :: after).map BtrPage.pageId).Nodup) :
    (before ++ page :: after).dropWhile (fun p => p.pageId != page.pageId) = page :: after := by
  rw [map_append, map_cons, nodup_append] at hnodup
  refine dropWhile_append_cons (fun p hp => ?_) (by simp)
  rw [bne_iff_ne]
  exact hnodup.2.2 _ (mem_map_of_mem hp) _ mem_cons_self

/-- Stepping right ends at the first page that is not passed. -/
lemma LevelOk.stepRightIfNeeded_eq {start : BtrLevel V} (hok : LevelOk opts pages)
    (hkey : key.Ok opts) (hpages : pages = start ++ (before ++ page :: after))
    (hbefore : ∀ p ∈ before, Past key strict opts p) (hpage : ¬ Past key strict opts page) :
    stepRightIfNeeded key strict (before ++ page :: after) = page :: after := by
  have hmem : ∀ p ∈ before ++ page :: after, p ∈ pages := fun p hp => by
    rw [hpages]
    exact mem_append_right _ hp
  have hiff : ∀ p ∈ before ++ page :: after,
      p.goesRight key strict ↔ Past key strict opts p := fun p hp =>
    goesRight_iff hkey (hok.stored p (hmem p hp)) (hok.hikey_ok p (hmem p hp))
  refine dropWhile_append_cons (fun p hp => ?_) ?_
  · exact (hiff p (mem_append_left _ hp)).2 (hbefore p hp)
  · rw [← Bool.not_eq_true, hiff page (by simp)]
    exact hpage

/-! ## From level to level -/

omit [LinearOrder V] in
/-- The children of a level are those of its pages, one page after another. -/
lemma LevelCovers.split (hc : LevelCovers opts (before ++ page :: after) downs) :
    ∃ left kids right, downs = left ++ (kids ++ right) ∧ LevelCovers opts before left ∧
      page.CoversKids opts kids ∧ LevelCovers opts after right := by
  induction before generalizing downs with
  | nil =>
    cases hc with
    | cons hkids hrest => exact ⟨[], _, _, rfl, .nil, hkids, hrest⟩
  | cons p before ih =>
    cases hc with
    | @cons _ _ kids0 downs0 hkids hrest =>
      obtain ⟨left, kids, right, rfl, hleft, hpage, hright⟩ := ih hrest
      exact ⟨kids0 ++ left, kids, right, by simp, .cons hkids hleft, hpage, hright⟩

omit [LinearOrder V] in
/-- A level and the one below end with the same high key. -/
lemma LevelCovers.hikeyParts_getLast (hc : LevelCovers opts pages downs) :
    pages.getLast?.bind (hikeyParts opts) = downs.getLast?.bind (hikeyParts opts) := by
  induction hc with
  | nil => rfl
  | @cons page pages kids downs hkids hrest ih =>
    cases hrest with
    | nil =>
      rw [append_nil, getLast?_singleton, Option.bind_some]
      exact hkids.hikey_last
    | @cons page' pages kids' downs hkids' hrest' =>
      rw [getLast?_cons_cons, ih, getLast?_append_of_ne_nil kids
        (append_ne_nil_of_left_ne_nil hkids'.nonempty downs)]

/-- Left of a page the key has passed, the key has passed everything below. -/
lemma LevelCovers.past_left {right : BtrLevel V} (hc : LevelCovers opts pages downs)
    (hok : LevelOk opts (downs ++ right)) (hpast : ∀ p ∈ pages, Past key strict opts p) :
    ∀ p ∈ downs, Past key strict opts p := by
  intro p hp
  have hne : downs ≠ [] := ne_nil_of_mem hp
  obtain ⟨last, hlast⟩ : ∃ last, downs.getLast? = some last :=
    ⟨_, getLast?_eq_some_getLast hne⟩
  have hpne : pages ≠ [] := by
    rintro rfl
    cases hc
    exact hne rfl
  have hup := getLast?_eq_some_getLast hpne
  -- the last page below has the high key of the last page above
  have hlastPast : Past key strict opts last := by
    obtain ⟨h, hh, hpassed⟩ := hpast _ (getLast_mem hpne)
    have heq := hc.hikeyParts_getLast
    rw [hup, hlast, Option.bind_some, Option.bind_some] at heq
    exact ⟨h, by rw [← heq]; exact hh, hpassed⟩
  obtain ⟨init, hinit⟩ : ∃ init, downs = init ++ [last] :=
    ⟨downs.dropLast, (dropLast_append_getLast? last hlast).symm⟩
  rw [hinit] at hp
  rcases mem_append.1 hp with hin | heq
  · have hsplit : downs ++ right = init ++ last :: right := by
      rw [hinit, append_assoc]
      rfl
    exact hok.past_of_past hsplit hin hlastPast
  · rw [mem_singleton.1 heq]
    exact hlastPast

/-- The downlink a page picks leads to its first child the key has not passed. -/
lemma BtrPage.CoversKids.descend {left right : BtrLevel V} (hkids : page.CoversKids opts kids)
    (hkey : key.Ok opts) (hok : LevelOk opts (left ++ (kids ++ right)))
    (hpage : ¬ Past key strict opts page) :
    ∃ before child after t, kids = before ++ child :: after ∧
      (∀ p ∈ before, Past key strict opts p) ∧ ¬ Past key strict opts child ∧
      page.getIndexTuple (page.binarySearchOnPage key strict) = some t ∧
      t.lowlevelIndexpageLink = child.pageId := by
  -- the last child ends where the page ends, so the key has not passed it
  have hlast := getLast?_eq_some_getLast hkids.nonempty
  have hlastNot : ¬ Past key strict opts (kids.getLast hkids.nonempty) := by
    rintro ⟨h, hh, hpassed⟩
    refine hpage ⟨h, ?_, hpassed⟩
    rw [hkids.hikey_last, hlast]
    exact hh
  obtain ⟨child, before, after, hsplit, hbefore, hchild⟩ :=
    exists_landed (getLast_mem hkids.nonempty) hlastNot
  have hrest : ∀ kid ∈ (child :: after).dropLast, ¬ Past key strict opts kid := by
    intro kid hkid hpast
    rcases mem_cons.1 (dropLast_subset _ hkid) with rfl | htail
    · exact hchild hpast
    · obtain ⟨u, v, huv⟩ := append_of_mem htail
      have hat : left ++ (kids ++ right) =
          (left ++ before ++ child :: u) ++ kid :: (v ++ right) := by
        rw [hsplit, huv]
        simp
      exact hchild (hok.past_of_past hat (by simp) hpast)
  obtain ⟨t, ht, hlink⟩ := hkids.childTuple hkey hsplit hbefore hrest
  exact ⟨before, child, after, t, hsplit, hbefore, hchild, ht, hlink⟩

/-- From the page where the search has landed the downlink leads to a child from which it lands
below. -/
lemma Landed.descend (hkey : key.Ok opts) (hc : LevelCovers opts pages downs)
    (hok : LevelOk opts downs) (hland : Landed key strict opts pages page) :
    ∃ child before after t, downs = before ++ child :: after ∧
      (∀ p ∈ before, Past key strict opts p) ∧ ¬ Past key strict opts child ∧
      page.getIndexTuple (page.binarySearchOnPage key strict) = some t ∧
      t.lowlevelIndexpageLink = child.pageId := by
  obtain ⟨above, after, rfl, habove, hpage⟩ := hland
  obtain ⟨left, kids, right, rfl, hleft, hkids, -⟩ := hc.split
  obtain ⟨kidsBefore, child, kidsAfter, t, rfl, hkb, hchild, ht, hlink⟩ :=
    hkids.descend hkey hok hpage
  refine ⟨child, left ++ kidsBefore, kidsAfter ++ right, t, by simp, ?_, hchild, ht, hlink⟩
  intro p hp
  rcases mem_append.1 hp with hl | hk
  · exact hleft.past_left hok habove p hl
  · exact hkb p hk

/-- The levels from one on downwards: each is a chain and lies over the next, and the last
one, that of the leaves, is given by name. -/
structure LevelsOk (opts : List IndexOption) (levels : List (BtrLevel V)) (leaves : BtrLevel V) :
    Prop where
  levels_ok : ∀ level ∈ levels, LevelOk opts level
  covers : levels.IsChain (LevelCovers opts)
  last : levels.getLast? = some leaves
  leaf : ∀ page ∈ leaves, page.isLeaf = true

/-- The levels below the root level are in order too. -/
lemma LevelsOk.tail {level next : BtrLevel V} {below : List (BtrLevel V)} {leaves : BtrLevel V}
    (h : LevelsOk opts (level :: next :: below) leaves) : LevelsOk opts (next :: below) leaves where
  levels_ok := fun l hl => h.levels_ok l (mem_cons_of_mem _ hl)
  covers := (isChain_cons_cons.1 h.covers).2
  last := by
    rw [← h.last, getLast?_cons_cons]
  leaf := h.leaf

omit [LinearOrder V] in
lemma LevelCovers.internal (hc : LevelCovers opts pages downs)
    (hpage : page ∈ pages) : page.isLeaf = false := by
  obtain ⟨before, after, rfl⟩ := append_of_mem hpage
  obtain ⟨_, _, _, _, _, hkids, _⟩ := hc.split
  exact hkids.internal

omit [LinearOrder V] in
lemma parentLevel_ne_none (level next : BtrLevel V) (below : List (BtrLevel V)) :
    parentLevel (level :: next :: below) ≠ none := by
  induction below generalizing level next with
  | nil => simp [parentLevel]
  | cons l below ih =>
    rw [parentLevel]
    exact ih next l

/-- A search that starts at or left of its stop on one level ends on the stop among the leaves,
and the last internal page it went through is the stop right above them. -/
theorem searchBtreeFromInternalPage_landed {below : List (BtrLevel V)} {start leaves : BtrLevel V}
    (hkey : key.Ok opts) (hlevels : LevelsOk opts (pages :: below) leaves)
    (hpages : pages = start ++ (before ++ page :: after))
    (hbefore : ∀ p ∈ before, Past key strict opts p) (hland : Landed key strict opts pages page)
    (parent : Option PageId) :
    ∃ leaf result, searchBtreeFromInternalPage key strict below (before ++ page :: after) parent =
        some ⟨leaf.pageId, result⟩ ∧ Landed key strict opts leaves leaf ∧
      (parentLevel (pages :: below) = none → result = parent) ∧
      (∀ parents, parentLevel (pages :: below) = some parents →
        ∃ q, result = some q.pageId ∧ Landed key strict opts parents q) := by
  have hnot : ¬ Past key strict opts page := hland.choose_spec.choose_spec.2.2
  have hstep := (hlevels.levels_ok pages mem_cons_self).stepRightIfNeeded_eq hkey hpages
    hbefore hnot
  induction below generalizing pages start before after page parent with
  | nil =>
    have hlast := hlevels.last
    rw [getLast?_singleton, Option.some.injEq] at hlast
    subst hlast
    have hleaf : page.isLeaf := hlevels.leaf page (by rw [hpages]; simp)
    refine ⟨page, parent, ?_, hland, fun _ => rfl, fun parents h => ?_⟩
    rotate_left
    · simp [parentLevel] at h
    rw [searchBtreeFromInternalPage, hstep]
    dsimp only
    rw [if_pos hleaf]
  | cons level below ih =>
    have hcover := (isChain_cons_cons.1 hlevels.covers).1
    have hok := hlevels.tail.levels_ok level mem_cons_self
    obtain ⟨child, cb, ca, t, hdowns, hcb, hchild, ht, hlink⟩ := hland.descend hkey hcover hok
    have hinternal : page.isLeaf = false := hcover.internal (by rw [hpages]; simp)
    -- the downlink's page is found by its id, and the search has nothing to step over
    have hdrop : level.dropWhile (fun c => c.pageId != t.lowlevelIndexpageLink) = child :: ca := by
      rw [hdowns, hlink]
      exact dropWhile_pageId (hdowns ▸ hok.nodup)
    have hland' : Landed key strict opts level child := ⟨cb, ca, hdowns, hcb, hchild⟩
    have hpages' : level = cb ++ ([] ++ child :: ca) := hdowns
    obtain ⟨leaf, result, hsearch, hleafLand, hnone, hsome⟩ := ih hlevels.tail hpages'
      nofun hland' (some page.pageId) hchild (hok.stepRightIfNeeded_eq hkey hpages' nofun hchild)
    refine ⟨leaf, result, ?_, hleafLand, fun h => ?_, fun parents h => ?_⟩
    · rw [searchBtreeFromInternalPage, hstep]
      dsimp only
      rw [hinternal, if_neg Bool.false_ne_true, ht]
      dsimp only
      rw [hdrop]
      exact hsearch
    · exact absurd h (parentLevel_ne_none _ _ _)
    · cases below with
      | nil =>
        rw [parentLevel, Option.some.injEq] at h
        exact ⟨page, hnone (by simp [parentLevel]), h ▸ hland⟩
      | cons l below =>
        rw [parentLevel] at h
        exact hsome parents h

/-- The search from the root of a well-formed tree ends on the stop among the leaves. -/
theorem Btree.WellFormed.searchBtree_landed {tree : Btree V} (hwf : tree.WellFormed)
    (hkey : key.Ok tree.info.indexOption) (strict : Bool) :
    ∃ leaves leaf result, tree.levels.getLast? = some leaves ∧
      tree.searchBtree key strict = some ⟨leaf.pageId, result⟩ ∧
      Landed key strict tree.info.indexOption leaves leaf ∧
      (parentLevel tree.levels = none → result = none) ∧
      (∀ parents, parentLevel tree.levels = some parents →
        ∃ q, result = some q.pageId ∧ Landed key strict tree.info.indexOption parents q) := by
  obtain ⟨root, hroot⟩ := hwf.root
  obtain ⟨below, hlevels⟩ : ∃ below, tree.levels = [root] :: below :=
    ⟨tree.levels.tail, (cons_head?_tail hroot).symm⟩
  obtain ⟨leaves, hleaves⟩ : ∃ leaves, tree.levels.getLast? = some leaves :=
    ⟨_, getLast?_eq_some_getLast (by simp [hlevels])⟩
  have hok : LevelsOk tree.info.indexOption ([root] :: below) leaves :=
    ⟨hlevels ▸ hwf.levels_ok, hlevels ▸ hwf.covers, hlevels ▸ hleaves, hwf.leaves leaves hleaves⟩
  have hland : Landed key strict tree.info.indexOption [root] root :=
    ⟨[], [], rfl, fun p hp => absurd hp not_mem_nil,
      not_past_of_rightmost ((hok.levels_ok _ mem_cons_self).rightmost root rfl)⟩
  have hpages : [root] = [] ++ ([] ++ root :: []) := rfl
  obtain ⟨leaf, result, hsearch, hleaf, hnone, hsome⟩ :=
    searchBtreeFromInternalPage_landed hkey hok hpages nofun hland none
  refine ⟨leaves, leaf, result, hleaves, ?_, hleaf, hlevels ▸ hnone, hlevels ▸ hsome⟩
  rw [Btree.searchBtree, hlevels]
  exact hsearch

end Level

end DStore
