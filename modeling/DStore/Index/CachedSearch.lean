import DStore.Index.BtreeSearch
import Mathlib.Data.List.Chain
import Mathlib.Data.List.TakeWhile

/-!
# Searching from the parent page of an earlier descent

A scan remembers the last internal page of its descents. If the next positioning key lies
between the second separator and the high key of that page, the search starts there instead
of at the root. The file compares the leaf it then reaches with the one a search from the
root reaches.
-/

namespace DStore

open Option

/-- `BtrLastUsedInfo`. -/
structure BtrLastUsedInfo where
  isValid : Bool
  lastUsedParentPage : Option PageId
deriving DecidableEq, Repr

/-- What a finished descent leaves in `lastUsedInfo`. -/
def SearchResult.lastUsedInfo (result : SearchResult) : BtrLastUsedInfo :=
  ⟨true, result.lastUsedParentPage⟩

section Cached

variable {V : Type} [LinearOrder V]

/-- Reading a page by its id: the pages of its level from it on, and the levels below. -/
def readPage (pageId : PageId) : List (BtrLevel V) → Option (BtrLevel V × List (BtrLevel V))
  | [] => none
  | level :: below =>
    match level.dropWhile (fun page => page.pageId != pageId) with
    | [] => readPage pageId below
    | pages => some (pages, below)

/-- `notMatched` of `SearchFromLastAccessedPage`: the key is not between the second separator
and the high key. -/
def BtrPage.notMatched (key : ScanKeyValues V) (page : BtrPage V) : Bool :=
  let minOff := page.getFirstDataOffset
  decide (page.getMaxOffset ≤ minOff) || decide (page.compareKeyAt key (minOff + 1) < 0) ||
    (!page.isRightmost && decide (0 ≤ page.compareKeyAt key btreePageHikey))

section

variable (tree : Btree V) (lastUsedInfo : BtrLastUsedInfo) (key : ScanKeyValues V)

/-- `SearchFromLastAccessedPage`: `none` leaves the scan position invalid, otherwise the result
is that of the search from the remembered page. -/
def Btree.searchFromLastAccessedPage (strictlyGreaterThanKey : Bool) :
    Option (Option SearchResult) :=
  if !lastUsedInfo.isValid then none
  else match lastUsedInfo.lastUsedParentPage with
    | none => none
    | some parentPage =>
      match readPage parentPage tree.levels with
      | none => none
      | some (pages, below) =>
        match pages with
        | [] => none
        | page :: _ =>
          if page.notMatched key then none
          else some (searchBtreeFromInternalPage key strictlyGreaterThanKey below pages none)

/-- The search from the remembered page is not made, or reaches the leaf the search from the
root reaches. -/
def Btree.AgreesWithRoot (strictlyGreaterThanKey : Bool) : Prop :=
  tree.searchFromLastAccessedPage lastUsedInfo key strictlyGreaterThanKey = none ∨
    ∃ cached root,
      tree.searchFromLastAccessedPage lastUsedInfo key strictlyGreaterThanKey =
        some (some cached) ∧
      tree.searchBtree key strictlyGreaterThanKey = some root ∧ cached.leaf = root.leaf

/-- Entries that start with the key's values reach into the remembered parent from its left
neighbour: the neighbour's high key and the parent's second separator both equal the key on
the columns it names, and the parent's high key is beyond it. -/
def Btree.EqualRunFromLeft : Prop :=
  ∃ before left page after, parentLevel tree.levels = some (before ++ left :: page :: after) ∧
    lastUsedInfo.lastUsedParentPage = some page.pageId ∧
    (∃ h, left.hikey = some h ∧ compareKeyToTuple key h = 0) ∧
    page.getFirstDataOffset < page.getMaxOffset ∧
    page.compareKeyAt key (page.getFirstDataOffset + 1) = 0 ∧
    (page.isRightmost = false → page.compareKeyAt key btreePageHikey < 0)

end

/-! ## Reading the remembered page -/

open BtrPage PrefixSearch List

variable {tree : Btree V} {key : ScanKeyValues V} {strict : Bool} {opts : List IndexOption}
  {page q : BtrPage V} {before after left kids right downs parents : BtrLevel V}
  {uppers : List (BtrLevel V)}

omit [LinearOrder V] in
/-- The parent level lies right above the leaves. -/
lemma parentLevel_eq_some {levels : List (BtrLevel V)} (h : parentLevel levels = some parents) :
    ∃ uppers leaves, levels = uppers ++ [parents, leaves] := by
  fun_induction parentLevel levels with
  | case1 => simp at h
  | case2 => simp at h
  | case3 parents' leaves =>
    rw [some.injEq] at h
    exact ⟨[], leaves, by rw [h]; rfl⟩
  | case4 level next below rest ih =>
    obtain ⟨uppers, leaves, heq⟩ := ih h
    exact ⟨level :: uppers, leaves, by rw [heq]; rfl⟩

omit [LinearOrder V] in
/-- Page ids are unique, so reading a page gives that page and what lies right of it. -/
lemma readPage_eq {below : List (BtrLevel V)}
    (hnodup : ((uppers ++ (before ++ page :: after) :: below).flatten.map
      BtrPage.pageId).Nodup) :
    readPage page.pageId (uppers ++ (before ++ page :: after) :: below) =
      some (page :: after, below) := by
  induction uppers with
  | nil =>
    rw [nil_append, flatten_cons, map_append, nodup_append] at hnodup
    rw [nil_append, readPage, dropWhile_pageId hnodup.1]
  | cons level uppers ih =>
    rw [cons_append, flatten_cons, map_append, nodup_append] at hnodup
    have hdrop : level.dropWhile (fun p => p.pageId != page.pageId) = [] := by
      rw [dropWhile_eq_nil_iff]
      intro p hp
      rw [bne_iff_ne]
      exact hnodup.2.2 _ (mem_map_of_mem hp) _ (by simp)
    rw [cons_append, readPage, hdrop]
    exact ih hnodup.2.1

/-- What a well formed tree says of the parent level and the leaves. -/
lemma Btree.WellFormed.parents_ok (hwf : tree.WellFormed) {leaves : BtrLevel V}
    (hlevels : tree.levels = uppers ++ [parents, leaves]) :
    LevelCovers tree.info.indexOption parents leaves ∧ LevelOk tree.info.indexOption parents ∧
      LevelOk tree.info.indexOption leaves ∧ ∀ page ∈ leaves, page.isLeaf := by
  have hchain := hwf.covers
  rw [hlevels, isChain_append] at hchain
  refine ⟨isChain_pair.1 hchain.2.1, hwf.levels_ok _ (by simp [hlevels]),
    hwf.levels_ok _ (by simp [hlevels]), hwf.leaves leaves ?_⟩
  rw [hlevels, getLast?_append_of_ne_nil _ (by simp)]
  rfl

/-- The search from a page above the leaves whose high key is beyond the key ends on the page's
first child that the key has not passed. -/
lemma searchFromParent_eq (after : BtrLevel V) (hkey : key.Ok opts)
    (hkids : page.CoversKids opts kids) (hok : LevelOk opts (left ++ (kids ++ right)))
    (hleaf : ∀ p ∈ left ++ (kids ++ right), p.isLeaf) (hgoes : page.goesRight key strict = false)
    (hpage : ¬ Past key strict opts page) :
    ∃ before child rest, kids = before ++ child :: rest ∧
      (∀ p ∈ before, Past key strict opts p) ∧ ¬ Past key strict opts child ∧
      searchBtreeFromInternalPage key strict [left ++ (kids ++ right)] (page :: after) none =
        some ⟨child.pageId, some page.pageId⟩ := by
  obtain ⟨before, child, rest, t, rfl, hbefore, hchild, ht, hlink⟩ :=
    hkids.descend hkey hok hpage
  refine ⟨before, child, rest, rfl, hbefore, hchild, ?_⟩
  have hsplit : left ++ (before ++ child :: rest ++ right) =
      (left ++ before) ++ child :: (rest ++ right) := by simp
  have hstep : stepRightIfNeeded key strict (page :: after) = page :: after := by
    rw [stepRightIfNeeded, dropWhile_cons_of_neg (by simp [hgoes])]
  have hstepLeaf : stepRightIfNeeded key strict (child :: (rest ++ right)) =
      child :: (rest ++ right) := by
    have hat : left ++ (before ++ child :: rest ++ right) =
        (left ++ before) ++ ([] ++ child :: (rest ++ right)) := hsplit
    exact hok.stepRightIfNeeded_eq hkey hat (fun p hp => absurd hp not_mem_nil) hchild
  rw [searchBtreeFromInternalPage, hstep]
  dsimp only
  rw [hkids.internal, if_neg Bool.false_ne_true, ht]
  dsimp only
  rw [hlink, hsplit, dropWhile_pageId (hsplit ▸ hok.nodup), searchBtreeFromInternalPage, hstepLeaf]
  dsimp only
  rw [if_pos (hleaf child (by simp))]

omit [LinearOrder V] in
/-- A page occurs once in its level. -/
lemma before_unique {before' after' : BtrLevel V} {page' : BtrPage V}
    (hnodup : ((before ++ page :: after).map BtrPage.pageId).Nodup)
    (heq : before ++ page :: after = before' ++ page' :: after')
    (hid : page.pageId = page'.pageId) : before = before' ∧ page = page' := by
  have hdrop := dropWhile_pageId hnodup
  have hdrop' := dropWhile_pageId (heq ▸ hnodup)
  rw [← heq, ← hid, hdrop, cons.injEq] at hdrop'
  rw [hdrop'.1, hdrop'.2] at heq
  exact ⟨append_cancel_right heq, hdrop'.1⟩

/-- A key has passed the children of some pages exactly if it has passed the last of the pages. -/
lemma past_left_iff {init : BtrLevel V} (hcover : LevelCovers opts (init ++ [q]) downs)
    (hok : LevelOk opts (downs ++ right)) (hparents : LevelOk opts (init ++ q :: after)) :
    (∀ p ∈ downs, Past key strict opts p) ↔ Past key strict opts q := by
  constructor
  · intro hall
    obtain ⟨left, kids, rest, rfl, -, hkids, hnil⟩ := hcover.split
    cases hnil
    have hlast := getLast?_eq_some_getLast hkids.nonempty
    obtain ⟨h, hh, hpassed⟩ := hall (kids.getLast hkids.nonempty)
      (by simp [getLast_mem hkids.nonempty])
    refine ⟨h, ?_, hpassed⟩
    rw [hkids.hikey_last, hlast]
    exact hh
  · intro hpast
    refine hcover.past_left hok (fun p hp => ?_)
    rcases mem_append.1 hp with hin | heq
    · exact hparents.past_of_past rfl hin hpast
    · rw [mem_singleton.1 heq]
      exact hpast

lemma BtrPage.notMatched_eq_false :
    page.notMatched key = false ↔ page.getFirstDataOffset < page.getMaxOffset ∧
      0 ≤ page.compareKeyAt key (page.getFirstDataOffset + 1) ∧
      (page.isRightmost = false → page.compareKeyAt key btreePageHikey < 0) := by
  unfold notMatched
  cases page.isRightmost <;> simp [and_assoc]

/-- A cached page that matches the key is not left to the right. -/
lemma BtrPage.goesRight_of_matched (h : page.notMatched key = false) :
    page.goesRight key strict = false := by
  obtain ⟨-, -, hhikey⟩ := notMatched_eq_false.1 h
  unfold goesRight goRightVal
  cases hr : page.isRightmost with
  | true => rfl
  | false =>
    have hlt := hhikey hr
    cases strict <;> simp <;> omega

/-- The key has passed the left neighbour of a matching parent on the columns it names. -/
lemma past_left_of_matched {init : BtrLevel V} (hkey : key.Ok opts)
    (hcover : LevelCovers opts (init ++ [q]) downs) (hkids : page.CoversKids opts kids)
    (hok : LevelOk opts (downs ++ (kids ++ right)))
    (hparents : LevelOk opts (init ++ q :: page :: after))
    (hlen : page.getFirstDataOffset < page.getMaxOffset)
    (hsecond : goRightVal strict ≤ page.compareKeyAt key (page.getFirstDataOffset + 1)) :
    Past key strict opts q := by
  have hdata := hkids.length_dataItems
  have hlen' := page.length_dataItems
  obtain ⟨kid, kid', rest, rfl⟩ : ∃ kid kid' rest, kids = kid :: kid' :: rest := by
    match kids, hdata with
    | [], hdata =>
      rw [length_nil] at hdata
      omega
    | [_], hdata =>
      rw [length_singleton] at hdata
      omega
    | kid :: kid' :: rest, _ => exact ⟨kid, kid', rest, rfl⟩
  -- the second separator is the high key of the first child
  have hkid : Past key strict opts kid := (hkids.compareKeyAt_succ hkey (r := 0) rfl).1 hsecond
  refine (past_left_iff hcover hok hparents).1 (fun p hp => ?_)
  have hsplit : downs ++ (kid :: kid' :: rest ++ right) = downs ++ kid :: (kid' :: rest ++ right) :=
    rfl
  exact hok.past_of_past hsplit hp hkid

/-- A search from a matching parent agrees with the root iff the key has passed every leaf left
of the parent's children. -/
lemma Btree.agreesWithRoot_iff_past {lastUsedInfo : BtrLastUsedInfo} {cached root : SearchResult}
    {kidsBefore rest : BtrLevel V} {child leaf : BtrPage V}
    (hcached : tree.searchFromLastAccessedPage lastUsedInfo key strict = some (some cached))
    (hroot : tree.searchBtree key strict = some root) (hcachedLeaf : cached.leaf = child.pageId)
    (hrootLeaf : root.leaf = leaf.pageId)
    (hland : Landed key strict opts (left ++ (kidsBefore ++ child :: rest)) leaf)
    (hok : LevelOk opts (left ++ (kidsBefore ++ child :: rest)))
    (hbefore : ∀ p ∈ kidsBefore, Past key strict opts p) (hchild : ¬ Past key strict opts child) :
    tree.AgreesWithRoot lastUsedInfo key strict ↔ ∀ p ∈ left, Past key strict opts p := by
  have hagrees : tree.AgreesWithRoot lastUsedInfo key strict ↔ child.pageId = leaf.pageId := by
    rw [AgreesWithRoot, hcached, hroot, ← hcachedLeaf, ← hrootLeaf]
    simp
  rw [hagrees]
  constructor
  · intro hid p hp
    by_contra hnot
    -- the search from the root would stop left of the children
    obtain ⟨y, u, v, rfl, hu, hy⟩ := exists_landed hp hnot
    have hy' : Landed key strict opts (u ++ y :: v ++ (kidsBefore ++ child :: rest)) y :=
      ⟨u, v ++ (kidsBefore ++ child :: rest), by simp, hu, hy⟩
    have hnodup := hok.nodup
    rw [map_append, nodup_append] at hnodup
    refine hnodup.2.2 y.pageId (by simp) child.pageId (by simp) ?_
    rw [hid, hland.unique hy']
  · intro hall
    have hchildLand : Landed key strict opts (left ++ (kidsBefore ++ child :: rest)) child := by
      refine ⟨left ++ kidsBefore, rest, by simp, fun p hp => ?_, hchild⟩
      exact (mem_append.1 hp).elim (hall p) (hbefore p)
    rw [hchildLand.unique hland]

/-- A page is the remembered one with an equal run reaching into it iff its left neighbour's
high key is not passed although a strict search passes it. -/
lemma Btree.equalRunFromLeft_iff {lastUsedInfo : BtrLastUsedInfo} (key : ScanKeyValues V)
    (hlevel : parentLevel tree.levels = some (before ++ page :: after))
    (hparent : lastUsedInfo.lastUsedParentPage = some page.pageId)
    (hparents : LevelOk opts (before ++ page :: after)) :
    tree.EqualRunFromLeft lastUsedInfo key ↔
      ∃ init q h, before = init ++ [q] ∧ q.hikey = some h ∧ compareKeyToTuple key h = 0 ∧
        page.compareKeyAt key (page.getFirstDataOffset + 1) = 0 ∧
        page.notMatched key = false := by
  constructor
  · rintro ⟨init, q, page', after', hlevel', hparent', ⟨h, hh, hzero⟩, hlen, hsecond, hhikey⟩
    have hsame : before ++ page :: after = (init ++ [q]) ++ page' :: after' := by
      rw [hlevel, some.injEq] at hlevel'
      rw [hlevel']
      simp
    rw [hparent, some.injEq] at hparent'
    obtain ⟨rfl, rfl⟩ := before_unique hparents.nodup hsame hparent'
    exact ⟨init, q, h, rfl, hh, hzero, hsecond,
      BtrPage.notMatched_eq_false.2 ⟨hlen, le_of_eq hsecond.symm, hhikey⟩⟩
  · rintro ⟨init, q, h, rfl, hh, hzero, hsecond, hmatched⟩
    obtain ⟨hlen, -, hhikey⟩ := BtrPage.notMatched_eq_false.1 hmatched
    refine ⟨init, q, page, after, ?_, hparent, ⟨h, hh, hzero⟩, hlen, hsecond, hhikey⟩
    rw [hlevel]
    simp

/-- In a matching parent the neighbour's high key is passed unless the search is not strict and
the high key equals the key on its columns; then the second separator equals it too. -/
lemma past_neighbour_iff {init : BtrLevel V} (hkey : key.Ok opts)
    (hcover : LevelCovers opts (init ++ [q]) downs) (hkids : page.CoversKids opts kids)
    (hok : LevelOk opts (downs ++ (kids ++ right)))
    (hparents : LevelOk opts (init ++ q :: page :: after))
    (hmatched : page.notMatched key = false) :
    Past key strict opts q ↔ strict ∨ ¬ ∃ h, q.hikey = some h ∧
      compareKeyToTuple key h = 0 ∧ page.compareKeyAt key (page.getFirstDataOffset + 1) = 0 := by
  obtain ⟨hlen, hsecond, -⟩ := BtrPage.notMatched_eq_false.1 hmatched
  have hstrict : Past key true opts q :=
    past_left_of_matched hkey hcover hkids hok hparents hlen hsecond
  cases strict with
  | true => exact iff_of_true hstrict (Or.inl rfl)
  | false =>
    obtain ⟨k, hk, hpassed⟩ := hstrict
    obtain ⟨h, hh, rfl⟩ := map_eq_some_iff.1 (mem_def.1 hk)
    have hhok : h.Ok opts := hparents.hikey_ok q (by simp) h hh
    have hnonneg : 0 ≤ compareKeyToTuple key h := by
      rw [compareKeyToTuple_eq hkey hhok]
      exact hpassed
    have hpast : Past key false opts q ↔ 1 ≤ compareKeyToTuple key h := by
      rw [Past, hikeyParts, hh, compareKeyToTuple_eq hkey hhok]
      simp [Passed]
    rw [hpast]
    constructor
    · intro hone
      refine Or.inr ?_
      rintro ⟨h', hh', hzero, -⟩
      rw [hh, some.injEq] at hh'
      rw [hh'] at hone
      omega
    · intro hno
      by_contra hlt
      have hzero : compareKeyToTuple key h = 0 := by omega
      refine (hno.resolve_left Bool.false_ne_true) ⟨h, hh, hzero, ?_⟩
      by_contra hne
      have hpos : goRightVal false ≤ page.compareKeyAt key (page.getFirstDataOffset + 1) := by
        rw [goRightVal, if_neg Bool.false_ne_true]
        omega
      exact hlt (hpast.1 (past_left_of_matched hkey hcover hkids hok hparents hlen hpos))

/-- For every well-formed tree, every page an earlier descent of the scan has left behind and
every positioning key: the search from that page agrees with the search from the root iff it
is for strictly greater keys or no run of equal entries reaches into the page from its left
neighbour. -/
theorem Btree.WellFormed.agreesWithRoot_iff {tree : Btree V} (hwf : tree.WellFormed)
    {earlier key : ScanKeyValues V} {earlierStrict strict : Bool} {result : SearchResult}
    (hearlier : earlier.Ok tree.info.indexOption) (hkey : key.Ok tree.info.indexOption)
    (hresult : tree.searchBtree earlier earlierStrict = some result) :
    tree.AgreesWithRoot result.lastUsedInfo key strict ↔
      strict = true ∨ ¬ tree.EqualRunFromLeft result.lastUsedInfo key := by
  obtain ⟨-, leaf₀, parent₀, -, hsearch₀, -, hnone₀, hsome₀⟩ :=
    hwf.searchBtree_landed hearlier earlierStrict
  have hparent : result.lastUsedInfo.lastUsedParentPage = parent₀ := by
    rw [hsearch₀, some.injEq] at hresult
    rw [← hresult]
    rfl
  cases hlevel : parentLevel tree.levels with
  | none =>
    -- the root is a leaf, no parent is remembered
    refine iff_of_true (Or.inl ?_) (Or.inr ?_)
    · simp [searchFromLastAccessedPage, hparent, hnone₀ hlevel]
    · rintro ⟨_, _, _, _, hp, -⟩
      exact absurd (hlevel.symm.trans hp) (by simp)
  | some parents =>
    obtain ⟨page, hpage₀, before, after, rfl, -, -⟩ := hsome₀ parents hlevel
    obtain ⟨uppers, leaves, hlevels⟩ := parentLevel_eq_some hlevel
    obtain ⟨hcover, hparents, hok, hleaf⟩ := hwf.parents_ok hlevels
    have hread : readPage page.pageId tree.levels = some (page :: after, [leaves]) := by
      rw [hlevels]
      exact readPage_eq (hlevels ▸ hwf.nodup)
    have hcached : tree.searchFromLastAccessedPage result.lastUsedInfo key strict =
        if page.notMatched key then none
        else some (searchBtreeFromInternalPage key strict [leaves] (page :: after) none) := by
      have hvalid : result.lastUsedInfo.isValid := rfl
      simp [searchFromLastAccessedPage, hvalid, hparent.trans hpage₀, hread]
    have hrun := equalRunFromLeft_iff key hlevel (hparent.trans hpage₀) hparents
    cases hmatched : page.notMatched key with
    | true =>
      rw [hmatched, if_pos rfl] at hcached
      refine iff_of_true (Or.inl hcached) (Or.inr ?_)
      rw [hrun]
      rintro ⟨_, _, _, _, _, _, _, hfalse⟩
      exact absurd (hmatched.symm.trans hfalse) (by decide)
    | false =>
      have hgoes : page.goesRight key strict = false := BtrPage.goesRight_of_matched hmatched
      have hnot : ¬ Past key strict tree.info.indexOption page := by
        rw [← goesRight_iff hkey (hparents.stored page (by simp))
          (hparents.hikey_ok page (by simp)), hgoes]
        exact Bool.false_ne_true
      obtain ⟨left, kids, right, rfl, hleft, hkids, -⟩ := hcover.split
      obtain ⟨kb, child, ka, rfl, hkb, hchild, hsearch⟩ :=
        searchFromParent_eq after hkey hkids hok hleaf hgoes hnot
      rw [hmatched, if_neg Bool.false_ne_true, hsearch] at hcached
      obtain ⟨leaves', leaf, parent, hleaves', hroot, hland, -, -⟩ :=
        hwf.searchBtree_landed hkey strict
      have hsame : leaves' = left ++ (kb ++ child :: (ka ++ right)) := by
        rw [hlevels, getLast?_append_of_ne_nil _ (by simp)] at hleaves'
        simpa using (some.inj hleaves').symm
      rw [agreesWithRoot_iff_past hcached hroot rfl rfl (hsame ▸ hland)
        (by simpa using hok) hkb hchild, hrun]
      rcases eq_nil_or_concat' before with rfl | ⟨init, q, rfl⟩
      · -- the parent is the leftmost one
        cases hleft
        simp
      · rw [past_left_iff hleft hok (by simpa using hparents),
          past_neighbour_iff hkey hleft hkids hok (by simpa using hparents) hmatched]
        refine or_congr Iff.rfl (not_congr ⟨?_, ?_⟩)
        · rintro ⟨h, hh, hzero, hsecond⟩
          exact ⟨init, q, h, rfl, hh, hzero, hsecond, hmatched⟩
        · rintro ⟨init', q', h, heq, hh, hzero, hsecond, -⟩
          obtain ⟨-, rfl⟩ := append_inj' heq rfl |>.imp id (fun h => cons.inj h |>.1)
          exact ⟨h, hh, hzero, hsecond⟩

end Cached

/-! ## A run of equal entries across two parents -/

section Run

/-- The entry `2` of heap tuple `n`. -/
def runEntry (n : ℕ) : IndexTuple ℕ :=
  { attrs := [some 2], heapCtid := some ⟨⟨1, UInt32.ofNat n⟩, 1⟩ }

/-- The same as a high key, or as a separator with its downlink to page `child`. -/
def runItem (n child : ℕ) : IndexTuple ℕ :=
  { runEntry n with lowlevelIndexpageLink := ⟨2, UInt32.ofNat child⟩ }

/-- A page of the run: its number, its right sibling and its items. -/
def runPage (n : ℕ) (isLeaf : Bool) (next : Option ℕ) (items : List (IndexTuple ℕ)) : BtrPage ℕ :=
  ⟨⟨2, UInt32.ofNat n⟩, isLeaf, next.map (fun m => ⟨2, UInt32.ofNat m⟩), items⟩

/-- Four leaves of entries `2`, two under each parent. -/
def runTree : Btree ℕ where
  info := ⟨[⟨false, false⟩]⟩
  levels :=
    [[runPage 1 false none [runItem 0 2, runItem 2 3]],
     [runPage 2 false (some 3) [runItem 2 0, runItem 0 4, runItem 1 5],
      runPage 3 false none [runItem 0 6, runItem 3 7]],
     [runPage 4 true (some 5) [runItem 1 0, runEntry 0],
      runPage 5 true (some 6) [runItem 2 0, runEntry 1],
      runPage 6 true (some 7) [runItem 3 0, runEntry 2], runPage 7 true none [runEntry 3]]]

/-- A positioning key on the one column. -/
def runKey (v : ℕ) : ScanKeyValues ℕ := ⟨[(⟨false, false⟩, some v)], false⟩

lemma runKey_ok (v : ℕ) : (runKey v).Ok runTree.info.indexOption where
  nonempty := by simp [runKey]
  length_le := by simp [runKey, runTree, ScanKeyValues.keySize]
  flags := by simp [runKey, runTree, ScanKeyValues.keySize]
  fast := by simp [runKey]

lemma runTree_wellFormed : runTree.WellFormed where
  root := ⟨_, rfl⟩
  nodup := by decide
  levels_ok := by decide +kernel
  covers := by
    refine .cons_cons ?_ (.cons_cons ?_ (.singleton _))
    · exact @LevelCovers.cons _ _ _ _ [_, _] [] (by decide +kernel) .nil
    · exact @LevelCovers.cons _ _ _ _ [_, _] [_, _] (by decide +kernel)
        (@LevelCovers.cons _ _ _ _ [_, _] [] (by decide +kernel) .nil)
  leaves := by
    intro level h
    cases h
    decide

/-- A search for `3` leaves the second parent behind; from there the search for the first entry
from `2` on starts in the middle of the run. -/
theorem agreesWithRoot_fails_in_run : runTree.WellFormed ∧ (runKey 3).Ok runTree.info.indexOption ∧
      (runKey 2).Ok runTree.info.indexOption ∧
      ∃ result, runTree.searchBtree (runKey 3) false = some result ∧
        ¬ runTree.AgreesWithRoot result.lastUsedInfo (runKey 2) false := by
  refine ⟨runTree_wellFormed, runKey_ok 3, runKey_ok 2, ⟨⟨2, 7⟩, some ⟨2, 3⟩⟩,
    by decide +kernel, ?_⟩
  have hcached : runTree.searchFromLastAccessedPage
      (SearchResult.lastUsedInfo ⟨⟨2, 7⟩, some ⟨2, 3⟩⟩) (runKey 2) false =
      some (some ⟨⟨2, 6⟩, some ⟨2, 3⟩⟩) := by decide +kernel
  have hroot : runTree.searchBtree (runKey 2) false = some ⟨⟨2, 4⟩, some ⟨2, 2⟩⟩ := by
    decide +kernel
  rw [Btree.AgreesWithRoot, hcached, hroot]
  simp

/-- In the same tree the search for the first entry beyond `2` agrees with the root. -/
theorem agreesWithRoot_strict_in_run :
    runTree.AgreesWithRoot (SearchResult.lastUsedInfo ⟨⟨2, 7⟩, some ⟨2, 3⟩⟩) (runKey 2) true := by
  have hearlier : runTree.searchBtree (runKey 3) false = some ⟨⟨2, 7⟩, some ⟨2, 3⟩⟩ := by
    decide +kernel
  exact (runTree_wellFormed.agreesWithRoot_iff (runKey_ok 3) (runKey_ok 2) hearlier).2 (.inl rfl)

end Run

end DStore
