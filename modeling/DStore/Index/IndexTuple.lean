import DStore.Page.ItemId
import DStore.Lib.PrefixSearch
import Mathlib.Data.Sum.Order

/-!
# Index tuples and their order

An index tuple has the key attributes of one entry (nulls allowed) and the heap ctid it
points to. Pivot tuples, the high keys and the downlinks of internal pages, may have lost
trailing attributes and the ctid. Each key column has its own direction and its own place
for nulls.

The comparison functions are those of the source. Above them every tuple is read as a list
of components of one linear order, in which the source's order of the index is the
lexicographic one.
-/

namespace DStore

/-- `indoption` of one key column: `INDEX_OPTION_DESC` and `INDEX_OPTION_NULLS_FIRST`. -/
structure IndexOption where
  desc : Bool
  nullsFirst : Bool
deriving DecidableEq, Repr

/-- `IndexInfo`: the options of the key columns. -/
structure IndexInfo where
  indexOption : List IndexOption
deriving DecidableEq, Repr

/-! ## Item pointers -/

namespace ItemPointerData

/-- File, block and offset as one number: `Compare` looks at them in this order. -/
def rank (p : ItemPointerData) : ℕ :=
  (p.pageId.fileId.toNat * 2 ^ 32 + p.pageId.blockId.toNat) * 2 ^ 16 + p.offset.toNat

lemma rank_injective : Function.Injective rank := by
  rintro ⟨⟨f, b⟩, o⟩ ⟨⟨f', b'⟩, o'⟩ h
  have hb : b.toNat < 2 ^ 32 := b.toNat_lt
  have hb' : b'.toNat < 2 ^ 32 := b'.toNat_lt
  have ho : o.toNat < 2 ^ 16 := o.toNat_lt
  have ho' : o'.toNat < 2 ^ 16 := o'.toNat_lt
  simp only [rank] at h
  have hoff : o = o' := UInt16.toNat_inj.1 (by omega)
  have hblock : b = b' := UInt32.toNat_inj.1 (by omega)
  have hfile : f = f' := UInt16.toNat_inj.1 (by omega)
  rw [hoff, hblock, hfile]

/-- The order of `ItemPointerData::Compare`. -/
instance linearOrder : LinearOrder ItemPointerData := LinearOrder.lift' rank rank_injective

end ItemPointerData

/-! ## Tuples -/

/-- `IndexTuple`: the key attributes it still has, the heap ctid if it has one and the downlink
of a pivot. -/
structure IndexTuple (V : Type) where
  attrs : List (Option V)
  heapCtid : Option ItemPointerData
  lowlevelIndexpageLink : PageId := ⟨0xFFFF, 0xFFFFFFFF⟩
deriving DecidableEq, Repr

/-- `HasNull`. -/
def IndexTuple.hasNull {V : Type} (t : IndexTuple V) : Bool := t.attrs.any Option.isNone

/-! ## Comparison as the source does it -/

section Compare

variable {V : Type} [LinearOrder V]

/-- One round of `CompareNKeys`: the sign of the key's value against the tuple's. -/
def compareAttr (opt : IndexOption) (key attr : Option V) : ℤ :=
  match key, attr with
  | some k, some a =>
    -- the support function compares the tuple's value with the key's
    let result : ℤ := if a = k then 0 else if k < a then 1 else -1
    if opt.desc then result else -result
  | none, none => 0
  | none, some _ => if opt.nullsFirst then -1 else 1
  | some _, none => if opt.nullsFirst then 1 else -1

/-- One round of `CompareNIntKeyWithoutNulls`, on values that are not null. -/
def compareIntAttr (opt : IndexOption) (key attr : Option V) : ℤ :=
  if attr = key then 0
  else
    let result : ℤ := match key, attr with
      | some k, some a => if a < k then 1 else -1
      | _, _ => 0
    if opt.desc then -result else result

/-- The loop of `CompareNKeys` and of `CompareNIntKeyWithoutNulls` over the attributes both
sides have; `result` is what the loop is entered with. -/
def compareLoop (cmp : IndexOption → Option V → Option V → ℤ) :
    ℤ → List (IndexOption × Option V) → List (Option V) → ℤ
  | _, (opt, k) :: ks, a :: as =>
    if cmp opt k a ≠ 0 then cmp opt k a else compareLoop cmp 0 ks as
  | result, _, _ => result

/-- `m_scanKeyValues` of a search without heap ctid: for each leading column its flags and its
value, and whether integers are compared directly. -/
structure ScanKeyValues (V : Type) where
  scankeys : List (IndexOption × Option V)
  cmpFastFlag : Bool := false
deriving DecidableEq, Repr

/-- `keySize`. -/
def ScanKeyValues.keySize (key : ScanKeyValues V) : ℕ := key.scankeys.length

/-- `CompareKeyToTuple` of a search without heap ctid, at an offset that is not the first data
offset of an internal page. The branch for global indexes, which compares the table oid as a
further attribute, is left out. -/
def compareKeyToTuple (key : ScanKeyValues V) (t : IndexTuple V) : ℤ :=
  let result :=
    if key.cmpFastFlag && !t.hasNull then compareLoop compareIntAttr 0 key.scankeys t.attrs
    else compareLoop compareAttr (-1) key.scankeys t.attrs
  if result ≠ 0 then result
  -- truncated attributes are minus infinity
  else if key.keySize > t.attrs.length then 1
  else if key.keySize = t.attrs.length ∧ t.heapCtid = none then 1
  else 0

end Compare

/-! ## Tuples as lists of components -/

/-- A component of a key: a value in ascending or in descending order, a null before or after
all values, or a heap ctid. -/
abbrev KeyPart (V : Type) := WithBot (WithTop (V ⊕ₗ (Vᵒᵈ ⊕ₗ ItemPointerData)))

namespace KeyPart

variable {V : Type} [LinearOrder V]

/-- The value of a column. -/
def ofAttr (opt : IndexOption) : Option V → KeyPart V
  | none => if opt.nullsFirst then ⊥ else WithBot.some ⊤
  | some v =>
    if opt.desc then WithBot.some (WithTop.some (Sum.inrₗ (Sum.inlₗ (OrderDual.toDual v))))
    else WithBot.some (WithTop.some (Sum.inlₗ v))

/-- A heap ctid. -/
def ofCtid (ctid : ItemPointerData) : KeyPart V :=
  WithBot.some (WithTop.some (Sum.inrₗ (Sum.inrₗ ctid)))

/-- Values are ordered as the option says. -/
lemma ofAttr_lt_ofAttr (opt : IndexOption) (v w : V) :
    ofAttr opt (some v) < ofAttr opt (some w) ↔ if opt.desc then w < v else v < w := by
  cases hd : opt.desc <;> simp [ofAttr, hd]

/-- Null comes first if the option says so. -/
lemma ofAttr_none_lt (opt : IndexOption) (v : V) :
    ofAttr opt none < ofAttr opt (some v) ↔ opt.nullsFirst := by
  cases hd : opt.desc <;> cases hn : opt.nullsFirst <;> simp [ofAttr, hd, hn]

/-- Null comes last otherwise. -/
lemma ofAttr_lt_none (opt : IndexOption) (v : V) :
    ofAttr opt (some v) < ofAttr opt none ↔ opt.nullsFirst = false := by
  cases hd : opt.desc <;> cases hn : opt.nullsFirst <;>
    simp [ofAttr, hd, hn, -WithBot.coe_top]

end KeyPart

section Order

variable {V : Type} [LinearOrder V]

variable {r : ℤ} {ks : List (IndexOption × Option V)} {as : List (Option V)} {t : IndexTuple V}

open KeyPart PrefixSearch List

/-- Comparing two attributes is comparing key parts. -/
lemma compareAttr_eq (opt : IndexOption) (k a : Option V) :
    compareAttr opt k a = if ofAttr opt k < ofAttr opt a then -1
      else if ofAttr opt a < ofAttr opt k then 1 else 0 := by
  cases k with
  | none =>
    cases a with
    | none => simp [compareAttr]
    | some a =>
      rw [compareAttr]
      simp only [ofAttr_none_lt, ofAttr_lt_none]
      cases opt.nullsFirst <;> rfl
  | some k =>
    cases a with
    | none =>
      rw [compareAttr]
      simp only [ofAttr_none_lt, ofAttr_lt_none]
      cases opt.nullsFirst <;> rfl
    | some a =>
      rw [compareAttr]
      simp only [ofAttr_lt_ofAttr]
      rcases lt_trichotomy a k with hlt | heq | hgt
      · cases opt.desc <;> simp [hlt, ne_of_lt hlt, not_lt_of_gt hlt]
      · cases opt.desc <;> simp [heq]
      · cases opt.desc <;> simp [hgt, (ne_of_lt hgt).symm, not_lt_of_gt hgt]

/-- The comparison without null checks agrees on values. -/
lemma compareIntAttr_eq (opt : IndexOption) (k a : V) :
    compareIntAttr opt (some k) (some a) = compareAttr opt (some k) (some a) := by
  rw [compareIntAttr, compareAttr]
  rcases lt_trichotomy a k with hlt | heq | hgt
  · cases opt.desc <;> simp [hlt, ne_of_lt hlt, not_lt_of_gt hlt]
  · cases opt.desc <;> simp [heq]
  · cases opt.desc <;> simp [hgt, (ne_of_lt hgt).symm, not_lt_of_gt hgt]

/-- The components of a tuple of an index: its attributes, then its heap ctid. -/
def IndexTuple.parts (opts : List IndexOption) (t : IndexTuple V) : List (KeyPart V) :=
  List.zipWith ofAttr opts t.attrs ++ (t.heapCtid.map ofCtid).toList

/-- The components a search key names. -/
def ScanKeyValues.parts (key : ScanKeyValues V) : List (KeyPart V) :=
  key.scankeys.map (fun k => ofAttr k.1 k.2)

/-- A tuple of an index: it has at most the key attributes, and a heap ctid only if it has
all of them. -/
@[mk_iff]
structure IndexTuple.Ok (opts : List IndexOption) (t : IndexTuple V) : Prop where
  nonempty : t.attrs ≠ []
  length_le : t.attrs.length ≤ opts.length
  ctid_full : t.heapCtid ≠ none → t.attrs.length = opts.length

instance IndexTuple.decidableOk (opts : List IndexOption) (t : IndexTuple V) :
    Decidable (t.Ok opts) :=
  decidable_of_iff _ (ok_iff opts t).symm

/-- A search key of an index: it names at least one column, with the columns' own flags, and
compares integers directly only if no value is null. -/
structure ScanKeyValues.Ok (opts : List IndexOption) (key : ScanKeyValues V) : Prop where
  nonempty : key.scankeys ≠ []
  length_le : key.keySize ≤ opts.length
  flags : key.scankeys.map Prod.fst = opts.take key.keySize
  fast : key.cmpFastFlag = true → ∀ k ∈ key.scankeys, k.2 ≠ none

omit [LinearOrder V] in
/-- The initial result is lost once an attribute is compared. -/
lemma compareLoop_init {cmp : IndexOption → Option V → Option V → ℤ} {r' : ℤ} (hks : ks ≠ [])
    (has : as ≠ []) :
    compareLoop cmp r ks as = compareLoop cmp r' ks as := by
  obtain ⟨k, ks, rfl⟩ := exists_cons_of_ne_nil hks
  obtain ⟨a, as, rfl⟩ := exists_cons_of_ne_nil has
  rw [compareLoop, compareLoop]

/-- Without nulls the two loops agree. -/
lemma compareLoop_int (hks : ∀ k ∈ ks, k.2 ≠ none) (has : ∀ a ∈ as, a ≠ none) :
    compareLoop compareIntAttr r ks as = compareLoop compareAttr r ks as := by
  induction ks generalizing r as with
  | nil => rw [compareLoop.eq_def, compareLoop.eq_def]
  | cons k ks ih =>
    cases as with
    | nil => rw [compareLoop.eq_def, compareLoop.eq_def]
    | cons a as =>
      obtain ⟨v, hv⟩ := Option.ne_none_iff_exists'.1 (hks k mem_cons_self)
      obtain ⟨w, hw⟩ := Option.ne_none_iff_exists'.1 (has a mem_cons_self)
      have htail := ih (r := 0) (fun k' hk' => hks k' (mem_cons_of_mem _ hk'))
        (fun a' ha' => has a' (mem_cons_of_mem _ ha'))
      obtain ⟨opt, kv⟩ := k
      dsimp only at hv
      rw [compareLoop, compareLoop, hv, hw, compareIntAttr_eq, htail]

/-- Which of the two loops is run does not matter. -/
lemma compareLoop_choice {fast : Bool} (hks : ks ≠ []) (hattrs : t.attrs ≠ [])
    (hfast : fast = true → ∀ k ∈ ks, k.2 ≠ none) :
    (if fast && !t.hasNull then compareLoop compareIntAttr 0 ks t.attrs
      else compareLoop compareAttr (-1) ks t.attrs) = compareLoop compareAttr 0 ks t.attrs := by
  split_ifs with hint
  · rw [Bool.and_eq_true, Bool.not_eq_true', IndexTuple.hasNull, any_eq_false] at hint
    exact compareLoop_int (hfast hint.1) (fun a ha hnone => by
      rw [hnone] at ha
      exact hint.2 none ha rfl)
  · exact compareLoop_init hks hattrs

/-- The loop and the tests behind it compare the components, where `kt` and `tail` come behind the
columns; the components may be embedded into a larger order. -/
lemma compareLoop_eq {α : Type} [LinearOrder α] {f : KeyPart V → α} (hf : StrictMono f) (e : ℤ)
    (ks : List (IndexOption × Option V)) (as : List (Option V)) (opts : List IndexOption)
    (kt tail : List α) (hflags : ks.map Prod.fst = opts.take ks.length)
    (hlen : as.length ≤ opts.length) (hkt : ks.length < as.length → kt = [])
    (htail : as.length < ks.length → tail = []) :
    (if compareLoop compareAttr 0 ks as ≠ 0 then compareLoop compareAttr 0 ks as
      else if ks.length > as.length then 1
      else if ks.length = as.length then endCmp e kt tail else 0) =
    endCmp e (ks.map (fun k => f (ofAttr k.1 k.2)) ++ kt)
      (zipWith (fun opt a => f (ofAttr opt a)) opts as ++ tail) := by
  induction ks generalizing as opts with
  | nil =>
    cases as with
    | nil => simp [compareLoop]
    | cons a as =>
      cases opts with
      | nil => simp at hlen
      | cons opt opts => simp [compareLoop, hkt]
  | cons k ks ih =>
    cases as with
    | nil => simp [compareLoop, htail]
    | cons a as =>
      cases opts with
      | nil => simp at hlen
      | cons opt opts =>
        rw [map_cons, length_cons, take_succ_cons, cons.injEq] at hflags
        have hrest := ih as opts hflags.2 (by simpa using hlen)
          (fun hlt => hkt (by simpa using hlt)) (fun hlt => htail (by simpa using hlt))
        rw [zipWith_cons_cons, cons_append, map_cons, cons_append, endCmp_cons, ← hrest,
          compareLoop, hflags.1, compareAttr_eq]
        simp only [hf.lt_iff_lt]
        rcases lt_trichotomy (ofAttr opt k.2) (ofAttr opt a) with h | h | h
        · simp [h]
        · simp [h]
        · simp [h, not_lt_of_gt h]

/-- `CompareKeyToTuple` is the comparison of the search key with the tuple's components. -/
lemma compareKeyToTuple_eq {opts : List IndexOption} {key : ScanKeyValues V} (hkey : key.Ok opts)
    (ht : t.Ok opts) :
    compareKeyToTuple key t = prefixCmp key.parts (t.parts opts) := by
  have hloop := compareLoop_choice hkey.nonempty ht.nonempty hkey.fast
  have htail : t.attrs.length < key.scankeys.length →
      (t.heapCtid.map (ofCtid (V := V))).toList = [] := by
    intro hlt
    have hnone : t.heapCtid = none := by
      by_contra hsome
      exact absurd (ht.ctid_full hsome) (hlt.trans_le hkey.length_le).ne
    rw [hnone]
    rfl
  have heq := compareLoop_eq strictMono_id 1 key.scankeys t.attrs opts [] _ hkey.flags
    ht.length_le (fun _ => rfl) htail
  rw [append_nil] at heq
  rw [compareKeyToTuple, hloop, ← endCmp_one]
  refine Eq.trans (if_congr Iff.rfl rfl (if_congr Iff.rfl rfl ?_)) heq
  rw [ite_and]
  cases t.heapCtid <;> rfl

end Order

end DStore
