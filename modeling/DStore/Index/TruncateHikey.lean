import DStore.Index.IndexTuple

/-!
# The high key of a split leaf

A split makes the high key of the left half from the last tuple on the left and the first on the
right: the attributes of the right one up to the first in which the two differ or, if they
have the same key, all of them with the table oid and the heap ctid of the left one. In the order of
the index the high key lies between the two tuples.
-/

namespace DStore

open KeyPart PrefixSearch List

/-- An oid that is not `DSTORE_INVALID_OID`. -/
abbrev ValidOid := {oid : ℕ // oid ≠ 0}

/-- A plain leaf tuple of an index with the key columns `opts`; the table oid counts in a global
index. A heap page has fewer than 2¹⁴ items. -/
structure LeafEntry (V : Type) (opts : List IndexOption) where
  attrs : List (Option V)
  length_eq : attrs.length = opts.length
  tableOid : ValidOid
  heapCtid : ItemPointerData
  offset_lt : heapCtid.offset.toNat < 2 ^ 14

/-- A pivot tuple: it may have lost trailing attributes, the table oid and the heap ctid. -/
structure PivotTuple (V : Type) extends IndexTuple V where
  tableOid : Option ValidOid

/-- `m_scanKeyValues` with the heap ctid, if any, and the table oid. -/
structure CtidScanKey (V : Type) extends ScanKeyValues V where
  heapCtid : Option ItemPointerData
  tableOid : ValidOid

variable {V : Type} [LinearOrder V] {opts : List IndexOption}

/-- `UpdateScanKeyWithValues`; `isInt4` says that all key columns are of type `INT4OID`. -/
def LeafEntry.scanKey (isInt4 : Bool) (t : LeafEntry V opts) : CtidScanKey V where
  scankeys := opts.zip t.attrs
  cmpFastFlag := isInt4 && t.attrs.all Option.isSome
  heapCtid := some t.heapCtid
  tableOid := t.tableOid

/-- The end of `CompareKeyToTuple`, where a key with heap ctid meets the ctid of a tuple. -/
def compareCtid (ctid : ItemPointerData) : Option ItemPointerData → ℤ
  | none => 1
  | some c => if ctid < c then -1 else if c < ctid then 1 else 0

/-- `CompareKeyToTuple` at a pivot tuple that is not the first of an internal page. -/
def compareKeyToPivot (isGlobal : Bool) (key : CtidScanKey V) (t : PivotTuple V) : ℤ :=
  let result :=
    if key.cmpFastFlag && !t.hasNull then compareLoop compareIntAttr 0 key.scankeys t.attrs
    else compareLoop compareAttr (-1) key.scankeys t.attrs
  if result ≠ 0 then result
  else if key.keySize > t.attrs.length then 1
  else match key.heapCtid with
    | none =>
      if key.keySize = t.attrs.length ∧
        (if isGlobal then t.tableOid = none else t.heapCtid = none) then 1 else 0
    | some ctid =>
      if isGlobal then
        match t.tableOid with
        | none => 1
        | some oid =>
          if key.tableOid ≠ oid then if key.tableOid > oid then 1 else -1
          else compareCtid ctid t.heapCtid
      else compareCtid ctid t.heapCtid

/-- The loop of `CreateTruncateInternalTuple`. -/
def numAttKeeps : List (Option V) → List (Option V) → ℕ
  | l :: ls, r :: rs =>
    if l.isNone ≠ r.isNone then 1
    else if l.isNone = false ∧ l ≠ r then 1
    else numAttKeeps ls rs + 1
  | _, _ => 1

/-- `CreateTruncateInternalTuple`; `lastOid` is what the last bytes of the truncated tuple read
as. -/
def createTruncateInternalTuple (isGlobal : Bool) (left right : LeafEntry V opts)
    (needTruncateHikey : Bool) (lastOid : Option ValidOid) : PivotTuple V :=
  let keeps := numAttKeeps left.attrs right.attrs
  let keeps := if needTruncateHikey then keeps else max opts.length keeps
  let attrs := right.attrs.take (min opts.length keeps)
  if keeps ≤ opts.length then
    { attrs := attrs
      heapCtid := none
      -- `SetKeyNum` leaves `hasTableOid` as it is, the bit 14 of the offset in the copied link
      tableOid := if right.heapCtid.offset.toNat.testBit 14 then lastOid else none }
  else
    { attrs := attrs
      heapCtid := some left.heapCtid
      tableOid := if isGlobal then some left.tableOid else none }

/-! ## The order of the index -/

/-- A component of a place in an index: a column, the table oid, or the heap ctid. -/
abbrev IndexPart (V : Type) := KeyPart V ⊕ₗ (ValidOid ⊕ₗ ItemPointerData)

/-- The columns of a tuple. -/
def columns (opts : List IndexOption) (attrs : List (Option V)) : List (IndexPart V) :=
  zipWith (fun opt a => Sum.inlₗ (ofAttr opt a)) opts attrs

/-- What comes behind the columns: the table oid in a global index, and the ctid. -/
def tieBreaker (isGlobal : Bool) (oid : Option ValidOid) (ctid : Option ItemPointerData) :
    List (IndexPart V) :=
  (if isGlobal then oid.toList.map (Sum.inrₗ ∘ Sum.inlₗ) else []) ++
    ctid.toList.map (Sum.inrₗ ∘ Sum.inrₗ)

/-- The place of a leaf tuple. -/
def LeafEntry.pos (isGlobal : Bool) (t : LeafEntry V opts) : List (IndexPart V) :=
  columns opts t.attrs ++ tieBreaker isGlobal (some t.tableOid) (some t.heapCtid)

/-- The place of a pivot tuple. -/
def PivotTuple.pos (opts : List IndexOption) (isGlobal : Bool) (t : PivotTuple V) :
    List (IndexPart V) :=
  columns opts t.attrs ++ tieBreaker isGlobal t.tableOid t.heapCtid

/-- The place that a search is for. -/
def CtidScanKey.pos (isGlobal : Bool) (key : CtidScanKey V) : List (IndexPart V) :=
  key.scankeys.map (fun k => Sum.inlₗ (ofAttr k.1 k.2)) ++
    tieBreaker isGlobal (key.heapCtid.map fun _ => key.tableOid) key.heapCtid

/-- A pivot tuple of an index: it has the table oid of a global index together with the ctid. -/
structure PivotTuple.Ok (opts : List IndexOption) (isGlobal : Bool) (t : PivotTuple V) : Prop
    extends t.toIndexTuple.Ok opts where
  oid_eq : ∃ oid, t.tableOid = if isGlobal then t.heapCtid.map fun _ => oid else none

/-- `CompareKeyToTuple` is the comparison of the places. -/
lemma compareKeyToPivot_eq {isGlobal : Bool} {key : CtidScanKey V} {t : PivotTuple V}
    (hkey : key.Ok opts) (hfull : key.heapCtid ≠ none → key.keySize = opts.length)
    (ht : t.Ok opts isGlobal) : compareKeyToPivot isGlobal key t =
      endCmp (if key.heapCtid = none then 1 else 0) (key.pos isGlobal) (t.pos opts isGlobal) := by
  obtain ⟨oid, hoid⟩ := ht.oid_eq
  have hloop := compareLoop_choice hkey.nonempty ht.nonempty hkey.fast
  have heq := compareLoop_eq Sum.Lex.inl_strictMono (if key.heapCtid = none then 1 else 0)
    key.scankeys t.attrs opts
    (tieBreaker isGlobal (key.heapCtid.map fun _ => key.tableOid) key.heapCtid)
    (tieBreaker isGlobal t.tableOid t.heapCtid) hkey.flags ht.length_le ?_ ?_
  · unfold compareKeyToPivot
    dsimp only
    rw [hloop]
    refine Eq.trans (if_congr Iff.rfl rfl (ite_congr rfl (fun _ => rfl) fun hnot => ?_)) heq
    rw [hoid]
    cases hkctid : key.heapCtid with
    | none =>
      rw [ite_and]
      cases isGlobal <;> cases t.heapCtid <;> simp [tieBreaker, ScanKeyValues.keySize]
    | some kctid =>
      have hsize : key.scankeys.length = t.attrs.length :=
        le_antisymm (not_lt.mp hnot) (ht.length_le.trans (hfull (by simp [hkctid])).ge)
      rw [if_pos hsize]
      cases isGlobal with
      | false => cases t.heapCtid <;> simp [tieBreaker, compareCtid]
      | true =>
        rcases lt_trichotomy key.tableOid oid with ho | ho | ho
        · cases t.heapCtid <;> simp [tieBreaker, ho, ho.ne, not_lt_of_gt ho]
        · cases t.heapCtid <;> simp [tieBreaker, compareCtid, ho]
        · cases t.heapCtid <;> simp [tieBreaker, ho, ho.ne', not_lt_of_gt ho]
  · intro hlt
    have hnone : key.heapCtid = none := by
      by_contra hsome
      exact absurd (hfull hsome) (hlt.trans_le ht.length_le).ne
    simp [hnone, tieBreaker]
  · intro hlt
    have hnone : t.heapCtid = none := by
      by_contra hsome
      exact absurd (ht.ctid_full hsome) (hlt.trans_le hkey.length_le).ne
    simp [hoid, hnone, tieBreaker]

/-- The search for a leaf tuple compares by the tuple's place. -/
lemma LeafEntry.compareKeyToPivot_scanKey {isGlobal : Bool} (isInt4 : Bool) {t : LeafEntry V opts}
    {p : PivotTuple V} (hp : p.Ok opts isGlobal) :
    compareKeyToPivot isGlobal (t.scanKey isInt4) p =
      endCmp 0 (t.pos isGlobal) (p.pos opts isGlobal) := by
  have hlen := t.length_eq
  have hkey : (t.scanKey isInt4).Ok opts := by
    refine ⟨?_, ?_, ?_, ?_⟩
    · have hpos := (length_pos_iff.mpr hp.nonempty).trans_le hp.length_le
      simpa [← length_pos_iff, LeafEntry.scanKey, hlen] using hpos
    · simp [ScanKeyValues.keySize, LeafEntry.scanKey]
    · simp [ScanKeyValues.keySize, LeafEntry.scanKey, hlen, map_fst_zip]
    · intro hfast k hk
      simp only [LeafEntry.scanKey, Bool.and_eq_true, all_eq_true] at hfast
      exact Option.isSome_iff_ne_none.mp (hfast.2 k.2 (of_mem_zip hk).2)
  have hpos : (t.scanKey isInt4).pos isGlobal = t.pos isGlobal := by
    simp [CtidScanKey.pos, LeafEntry.pos, LeafEntry.scanKey, columns, zip, map_zipWith]
  rw [compareKeyToPivot_eq hkey (fun _ => ?_) hp, hpos]
  · rfl
  · simp [ScanKeyValues.keySize, LeafEntry.scanKey, hlen]

omit [LinearOrder V] in
/-- The columns of a truncated tuple. -/
lemma columns_take (k : ℕ) (as : List (Option V)) :
    columns opts (as.take k) = (columns opts as).take k :=
  ext_getElem (by simp [columns]; omega) (by simp [columns])

omit [LinearOrder V] in
/-- Attributes that compare equal are equal. -/
lemma ofAttr_injective (opt : IndexOption) : Function.Injective (ofAttr opt (V := V)) := by
  intro l r h
  obtain ⟨desc, nullsFirst⟩ := opt
  cases desc <;> cases nullsFirst <;> cases l <;> cases r <;> simp_all [ofAttr]

/-- The loop stops behind the first attribute in which the tuples differ. -/
lemma numAttKeeps_spec {ls rs : List (Option V)} {lt rt : List (IndexPart V)}
    (hl : ls.length = opts.length) (hr : rs.length = opts.length)
    (hle : columns opts ls ++ lt ≤ columns opts rs ++ rt) :
    0 < numAttKeeps ls rs ∧
    if numAttKeeps ls rs ≤ opts.length then
      columns opts ls ++ lt ≤ (columns opts rs).take (numAttKeeps ls rs)
    else ls = rs := by
  induction opts generalizing ls rs with
  | nil =>
    rw [length_eq_zero_iff.mp hl, length_eq_zero_iff.mp hr]
    simp [numAttKeeps]
  | cons opt opts ih =>
    obtain ⟨l, ls, rfl⟩ := exists_cons_of_length_eq_add_one hl
    obtain ⟨r, rs, rfl⟩ := exists_cons_of_length_eq_add_one hr
    have hstep : numAttKeeps (l :: ls) (r :: rs) = if l = r then numAttKeeps ls rs + 1 else 1 := by
      cases l <;> cases r <;> simp [numAttKeeps]
    simp only [columns, zipWith_cons_cons, cons_append, PrefixSearch.cons_le_cons_iff] at hle ⊢
    rw [hstep]
    by_cases heq : l = r
    · subst heq
      obtain ⟨-, hspec⟩ := ih (by simpa using hl) (by simpa using hr)
        (by simpa [columns] using hle)
      simp only [if_true, length_cons, Nat.add_le_add_iff_right, take_succ_cons,
        PrefixSearch.cons_le_cons_iff, lt_irrefl, false_or, true_and, cons.injEq]
      exact ⟨Nat.succ_pos _, hspec⟩
    · have hlt := hle.resolve_right fun h => heq (ofAttr_injective opt (by simpa using h.1))
      simp [heq, PrefixSearch.cons_le_cons_iff, hlt]

/-- The high key lies between the two tuples. -/
lemma createTruncateInternalTuple_between (hopts : opts ≠ []) (isGlobal needTruncateHikey : Bool)
    (lastOid : Option ValidOid) {left right : LeafEntry V opts}
    (hle : left.pos isGlobal ≤ right.pos isGlobal) :
    let hikey := createTruncateInternalTuple isGlobal left right needTruncateHikey lastOid
    hikey.Ok opts isGlobal ∧ left.pos isGlobal ≤ hikey.pos opts isGlobal ∧
      hikey.pos opts isGlobal ≤ right.pos isGlobal := by
  intro hikey
  obtain ⟨hpos, hspec⟩ := numAttKeeps_spec left.length_eq right.length_eq hle
  have hlen := right.length_eq
  have hcols := length_pos_iff.mpr hopts
  -- the link that is copied has no table oid
  have hbit := Nat.testBit_lt_two_pow right.offset_lt
  subst hikey
  unfold createTruncateInternalTuple
  rw [hbit, if_neg Bool.false_ne_true]
  dsimp only
  generalize hk : (if needTruncateHikey then _ else _) = k
  have hkeeps : numAttKeeps left.attrs right.attrs ≤ k ∧
      (k ≤ opts.length ↔ numAttKeeps left.attrs right.attrs ≤ opts.length) := by
    subst hk
    split_ifs <;> omega
  by_cases hfit : k ≤ opts.length
  · -- the right tuple's columns as far as they are needed: a prefix, so not larger
    have htake := take_le (numAttKeeps left.attrs right.attrs) ((columns opts right.attrs).take k)
    have htie : tieBreaker isGlobal none none = ([] : List (IndexPart V)) := by
      cases isGlobal <;> rfl
    rw [if_pos (hkeeps.2.mp hfit)] at hspec
    rw [take_take, min_eq_left hkeeps.1] at htake
    rw [if_pos hfit, min_eq_right hfit, PivotTuple.pos, columns_take, htie, append_nil]
    refine ⟨⟨⟨?_, ?_, by simp⟩, left.tableOid, by simp⟩, hspec.trans htake,
      (take_le k _).trans (le_append _ _)⟩
    · rw [← length_pos_iff, length_take]
      omega
    · rw [length_take]
      omega
  · -- equal keys: the high key is at the place of the left tuple
    rw [if_neg (hkeeps.2.not.mp hfit)] at hspec
    rw [if_neg hfit, min_eq_left (by omega), take_of_length_le hlen.le, ← hspec]
    have hplace : left.pos isGlobal = PivotTuple.pos opts isGlobal
        { attrs := left.attrs
          heapCtid := some left.heapCtid
          tableOid := if isGlobal then some left.tableOid else none } := by
      cases isGlobal <;> rfl
    refine ⟨⟨⟨?_, left.length_eq.le, fun _ => left.length_eq⟩, left.tableOid, rfl⟩, hplace.le,
      hplace.ge.trans hle⟩
    rw [← length_pos_iff, left.length_eq]
    exact hcols

/-- The high key separates the halves of a split leaf: a search for a tuple on the left does not
compare greater, a search for a tuple on the right does not compare less, and a search without
ctid that is sent to the right has no equal tuple on the left. -/
theorem createTruncateInternalTuple_separates (hopts : opts ≠ [])
    (isGlobal isInt4 needTruncateHikey : Bool) (lastOid : Option ValidOid)
    {left right : LeafEntry V opts}
    (hle : left.pos isGlobal ≤ right.pos isGlobal) :
    (∀ t : LeafEntry V opts, t.pos isGlobal ≤ left.pos isGlobal →
      compareKeyToPivot isGlobal (t.scanKey isInt4)
        (createTruncateInternalTuple isGlobal left right needTruncateHikey lastOid) ≤ 0) ∧
    (∀ t : LeafEntry V opts, right.pos isGlobal ≤ t.pos isGlobal →
      0 ≤ compareKeyToPivot isGlobal (t.scanKey isInt4)
        (createTruncateInternalTuple isGlobal left right needTruncateHikey lastOid)) ∧
    ∀ key : CtidScanKey V, key.Ok opts → key.heapCtid = none →
      1 ≤ compareKeyToPivot isGlobal key
        (createTruncateInternalTuple isGlobal left right needTruncateHikey lastOid) →
      ∀ t : LeafEntry V opts, t.pos isGlobal ≤ left.pos isGlobal →
        (t.pos isGlobal).take key.keySize ≠ key.pos isGlobal := by
  obtain ⟨hok, hleft, hright⟩ :=
    createTruncateInternalTuple_between hopts isGlobal needTruncateHikey lastOid hle
  refine ⟨fun t ht => ?_, fun t ht => ?_, fun key hkey hctid hcmp t ht heq => ?_⟩
  · rw [LeafEntry.compareKeyToPivot_scanKey isInt4 hok]
    exact endCmp_zero.1 (ht.trans hleft)
  · rw [LeafEntry.compareKeyToPivot_scanKey isInt4 hok]
    exact endCmp_zero.2 (hright.trans ht)
  · rw [compareKeyToPivot_eq hkey (absurd hctid) hok, if_pos hctid, endCmp_one,
      prefixCmp_spec.1] at hcmp
    -- the key would be the whole tuple, which has its ctid behind the columns
    have hself : (t.pos isGlobal).take key.keySize = t.pos isGlobal :=
      le_antisymm (take_le _ _) ((ht.trans hleft).trans (hcmp.trans heq.ge))
    have hlen := congrArg length hself
    have hsize := hkey.length_le
    simp only [length_take, LeafEntry.pos, columns, tieBreaker, length_append, length_zipWith,
      t.length_eq, Option.toList_some, map_cons, length_cons] at hlen
    omega

/-- Two tuples with equal keys in a global index: the high key has the table oid and the ctid of the
left one, and the search for the next key goes to the right. -/
theorem createTruncateInternalTuple_separates_equal_keys :
    let opts : List IndexOption := [⟨false, false⟩, ⟨true, true⟩]
    let left : LeafEntry ℕ opts := ⟨[some 7, none], rfl, ⟨1, one_ne_zero⟩, ⟨⟨1, 1⟩, 5⟩, by decide⟩
    let right : LeafEntry ℕ opts := ⟨[some 7, none], rfl, ⟨1, one_ne_zero⟩, ⟨⟨1, 1⟩, 6⟩, by decide⟩
    let hikey := createTruncateInternalTuple true left right true none
    let next : CtidScanKey ℕ := ⟨⟨[(⟨false, false⟩, some 8)], false⟩, none, ⟨1, one_ne_zero⟩⟩
    (hikey.attrs = [some 7, none] ∧ hikey.heapCtid = some ⟨⟨1, 1⟩, 5⟩) ∧
      compareKeyToPivot true (left.scanKey true) hikey ≤ 0 ∧
      0 ≤ compareKeyToPivot true (right.scanKey true) hikey ∧
      1 ≤ compareKeyToPivot true next hikey ∧ (left.pos true).take 1 ≠ next.pos true := by
  intro opts left right hikey next
  have hnext : next.Ok opts :=
    ⟨by decide, by decide, by decide, fun hfast => absurd hfast Bool.false_ne_true⟩
  have hright : 1 ≤ compareKeyToPivot true next hikey := by decide
  obtain ⟨hleft, hge, hmissed⟩ :=
    createTruncateInternalTuple_separates (by decide : opts ≠ []) true true true none
      (by decide : left.pos true ≤ right.pos true)
  exact ⟨by decide, hleft left le_rfl, hge right le_rfl, hright,
    hmissed next hnext rfl hright left le_rfl⟩

end DStore
