import DStore.Lib.ByteMem
import DStore.Page.ItemId

/-!
# Heap tuples

The bytes of a heap tuple: a 16-byte header, then `size - 16` bytes of data. Setters write one
header field in place. The header is read as one record, and what a setter does is stated
once, as an update of that record.
-/

namespace DStore

open ByteMem BitField UInt64

/-- `HeapDiskTupLiveMode`. -/
inductive HeapDiskTupLiveMode where
  | tupleByNormalInsert
  | newTupleByInplaceUpdate
  | newTupleBySamePageUpdate
  | oldTupleBySamePageUpdate
  | oldTupleByAnotherPageUpdate
  | newTupleByAnotherPageUpdate
  | tupleByNormalDelete
deriving DecidableEq, Repr

/-- The three bits that store a `HeapDiskTupLiveMode`. -/
def HeapDiskTupLiveMode.code : HeapDiskTupLiveMode → ℕ
  | tupleByNormalInsert => 0
  | newTupleByInplaceUpdate => 1
  | newTupleBySamePageUpdate => 2
  | oldTupleBySamePageUpdate => 3
  | oldTupleByAnotherPageUpdate => 4
  | newTupleByAnotherPageUpdate => 5
  | tupleByNormalDelete => 6

/-- `HEAP_DISK_TUP_HEADER_SIZE`. -/
def heapDiskTupHeaderSize : ℕ := 16

/-- The fields of the tuple header: `m_tuple_info` and the `m_info` word. -/
structure HeapTupleHeader where
  tdId : ℕ
  lockerTdId : ℕ
  size : ℕ
  xid : Xid
  info : ℕ
deriving DecidableEq, Repr

/-- The raw `m_tdStatus` bits. -/
def HeapTupleHeader.tdStatus (h : HeapTupleHeader) : ℕ := get 4 2 h.info

/-- The raw `m_liveMode` bits. -/
def HeapTupleHeader.liveMode (h : HeapTupleHeader) : ℕ := get 6 3 h.info

namespace HeapDiskTuple

variable (m : ByteMem) (off : ℕ)

/-- `GetTdId`. -/
def getTdId : ℕ := m.readLE off 1

/-- `GetLockerTdId`. -/
def getLockerTdId : ℕ := m.readLE (off + 1) 1

/-- `GetTupleSize`. -/
def getTupleSize : ℕ := m.readLE (off + 2) 2

/-- `GetXid`. -/
def getXid : Xid := ofNat (m.readLE (off + 4) 8)

/-- `GetInfo`. -/
def getInfo : ℕ := m.readLE (off + 12) 4

/-- `GetTdStatus`, as the raw bits. -/
def getTdStatus : ℕ := get 4 2 (getInfo m off)

/-- `SetTdId`. -/
def setTdId (tdId : ℕ) : ByteMem := m.writeLE off 1 tdId

/-- `SetLockerTdId`. -/
def setLockerTdId (tdId : ℕ) : ByteMem := m.writeLE (off + 1) 1 tdId

/-- `SetTupleSize`. -/
def setTupleSize (size : ℕ) : ByteMem := m.writeLE (off + 2) 2 size

/-- `SetXid`. -/
def setXid (xid : Xid) : ByteMem := m.writeLE (off + 4) 8 xid.toNat

/-- `SetInfo`. -/
def setInfo (info : ℕ) : ByteMem := m.writeLE (off + 12) 4 info

/-- `SetTdStatus`. -/
def setTdStatus (status : TupleTdStatus) : ByteMem :=
  setInfo m off (set 4 2 status.code (getInfo m off))

/-- `SetLiveMode`. -/
def setLiveMode (mode : HeapDiskTupLiveMode) : ByteMem :=
  setInfo m off (set 6 3 mode.code (getInfo m off))

/-- The header at `off`. -/
def header : HeapTupleHeader :=
  ⟨getTdId m off, getLockerTdId m off, getTupleSize m off, getXid m off, getInfo m off⟩

/-- The tuple data at `off`. -/
def data : List UInt8 := m.load (off + heapDiskTupHeaderSize)
  (getTupleSize m off - heapDiskTupHeaderSize)

/-! ## Setters as updates of the header -/

section Setters

variable (tdId size info : ℕ) (xid : Xid) (status : TupleTdStatus) (mode : HeapDiskTupLiveMode)

/-- Writing one field leaves the other fields of the header. -/
@[simp] lemma header_setTdId :
    header (setTdId m off tdId) off = { header m off with tdId := tdId % 256 } := by
  simp (disch := omega) only [header, setTdId, getTdId, getLockerTdId, getTupleSize, getXid,
    getInfo, readLE_writeLE_self, readLE_writeLE_of_disjoint, pow_one]

@[simp] lemma header_setLockerTdId :
    header (setLockerTdId m off tdId) off = { header m off with lockerTdId := tdId % 256 } := by
  simp (disch := omega) only [header, setLockerTdId, getTdId, getLockerTdId, getTupleSize, getXid,
    getInfo, readLE_writeLE_self, readLE_writeLE_of_disjoint, pow_one]

@[simp] lemma header_setTupleSize :
    header (setTupleSize m off size) off = { header m off with size := size % 256 ^ 2 } := by
  simp (disch := omega) only [header, setTupleSize, getTdId, getLockerTdId, getTupleSize, getXid,
    getInfo, readLE_writeLE_self, readLE_writeLE_of_disjoint]

@[simp] lemma header_setXid : header (setXid m off xid) off = { header m off with xid := xid } := by
  have hxid : ofNat (xid.toNat % 256 ^ 8) = xid := by
    rw [Nat.mod_eq_of_lt (show xid.toNat < 256 ^ 8 from xid.toNat_lt), UInt64.ofNat_toNat]
  simp (disch := omega) only [header, setXid, getTdId, getLockerTdId, getTupleSize, getXid,
    getInfo, readLE_writeLE_self, readLE_writeLE_of_disjoint, hxid]

@[simp] lemma header_setInfo :
    header (setInfo m off info) off = { header m off with info := info % 256 ^ 4 } := by
  simp (disch := omega) only [header, setInfo, getTdId, getLockerTdId, getTupleSize, getXid,
    getInfo, readLE_writeLE_self, readLE_writeLE_of_disjoint]

lemma setBits_lt {lo w : ℕ} (h : lo + w ≤ 32) (x : ℕ) : set lo w x (getInfo m off) < 256 ^ 4 :=
  set_lt h x (readLE_lt m _ 4)

/-- The td status is a field of the info word. -/
@[simp] lemma header_setTdStatus :
    header (setTdStatus m off status) off =
      { header m off with info := set 4 2 status.code (header m off).info } := by
  rw [setTdStatus, header_setInfo, Nat.mod_eq_of_lt (setBits_lt m off (by decide) _)]
  rfl

@[simp] lemma header_setLiveMode :
    header (setLiveMode m off mode) off =
      { header m off with info := set 6 3 mode.code (header m off).info } := by
  rw [setLiveMode, header_setInfo, Nat.mod_eq_of_lt (setBits_lt m off (by decide) _)]
  rfl

end Setters

/-! ## Frames -/

variable {m off}

/-- `m'` is `m` with another header at `off`. -/
def HeaderEdit (off : ℕ) (m m' : ByteMem) : Prop :=
  ByteMem.SameOutside off (off + heapDiskTupHeaderSize) m m'

lemma HeaderEdit.trans {m' m'' : ByteMem} (h : HeaderEdit off m m') (h' : HeaderEdit off m' m'') :
    HeaderEdit off m m'' := ByteMem.SameOutside.trans h h'

/-- A write inside the header is an edit of it. -/
lemma headerEdit_writeLE {pos n : ℕ} (h : pos + n ≤ heapDiskTupHeaderSize) (v : ℕ) :
    HeaderEdit off m (m.writeLE (off + pos) n v) :=
  (sameOutside_writeLE m _ _ _).mono (by omega) (by omega)

variable (m off) in
lemma headerEdit_setTdId (tdId : ℕ) : HeaderEdit off m (setTdId m off tdId) :=
  show HeaderEdit off m (m.writeLE (off + 0) 1 tdId) from headerEdit_writeLE (by decide) tdId

variable (m off) in
lemma headerEdit_setLockerTdId (tdId : ℕ) : HeaderEdit off m (setLockerTdId m off tdId) :=
  headerEdit_writeLE (by decide) tdId

variable (m off) in
lemma headerEdit_setTupleSize (size : ℕ) : HeaderEdit off m (setTupleSize m off size) :=
  headerEdit_writeLE (by decide) size

variable (m off) in
lemma headerEdit_setXid (xid : Xid) : HeaderEdit off m (setXid m off xid) :=
  headerEdit_writeLE (by decide) xid.toNat

variable (m off) in
lemma headerEdit_setInfo (info : ℕ) : HeaderEdit off m (setInfo m off info) :=
  headerEdit_writeLE (by decide) info

variable (m off) in
lemma headerEdit_setTdStatus (status : TupleTdStatus) :
    HeaderEdit off m (setTdStatus m off status) := headerEdit_setInfo m off _

variable (m off) in
lemma headerEdit_setLiveMode (mode : HeapDiskTupLiveMode) :
    HeaderEdit off m (setLiveMode m off mode) := headerEdit_setInfo m off _

/-- The header is a function of its bytes. -/
lemma header_congr {m' : ByteMem} {off' : ℕ}
    (h : ∀ i, i < heapDiskTupHeaderSize → m (off + i) = m' (off' + i)) :
    header m off = header m' off' := by
  have hword : ∀ pos n, pos + n ≤ heapDiskTupHeaderSize →
      m.readLE (off + pos) n = m'.readLE (off' + pos) n := by
    intro pos n hpos
    apply readLE_congr
    intro i hi
    rw [Nat.add_assoc, Nat.add_assoc]
    exact h (pos + i) (by omega)
  have h0 := hword 0 1 (by decide)
  simp only [header, getTdId, getLockerTdId, getTupleSize, getXid, getInfo,
    hword 1 1 (by decide), hword 2 2 (by decide), hword 4 8 (by decide), hword 12 4 (by decide)]
  rw [show m.readLE off 1 = m'.readLE off' 1 from h0]

/-- The header of a tuple that was copied from an image. -/
lemma header_of_image {image : ByteMem} {size : ℕ}
    (hbytes : ∀ i, i < size → m (off + i) = image i) (hsize : heapDiskTupHeaderSize ≤ size) :
    header m off = header image 0 := by
  apply header_congr
  intro i hi
  rw [Nat.zero_add]
  exact hbytes i (lt_of_lt_of_le hi hsize)

/-- The bytes of a tuple are its header and what follows. -/
lemma load_eq_iff_header {m' : ByteMem} {off' n : ℕ} (hn : heapDiskTupHeaderSize ≤ n) :
    m.load off n = m'.load off' n ↔ header m off = header m' off' ∧
      m.load (off + heapDiskTupHeaderSize) (n - heapDiskTupHeaderSize) =
        m'.load (off' + heapDiskTupHeaderSize) (n - heapDiskTupHeaderSize) := by
  rw [load_eq_iff, load_eq_iff]
  constructor
  · intro h
    refine ⟨header_congr fun i hi => h i (by omega), fun i hi => ?_⟩
    rw [Nat.add_assoc, Nat.add_assoc]
    exact h _ (by omega)
  · intro ⟨hheader, hdata⟩ i hi
    by_cases hi' : i < heapDiskTupHeaderSize
    · simp only [header, HeapTupleHeader.mk.injEq] at hheader
      obtain ⟨h₁, h₂, h₃, h₄, h5⟩ := hheader
      have hxid : m.readLE (off + 4) 8 = m'.readLE (off' + 4) 8 := by
        have h := congrArg toNat h₄
        rwa [getXid, getXid, toNat_ofNat_of_lt' (readLE_lt m _ 8),
          toNat_ofNat_of_lt' (readLE_lt m' _ 8)] at h
      -- the fields cover the header without gaps
      have hfield : ∀ pos n, m.readLE (off + pos) n = m'.readLE (off' + pos) n → pos ≤ i →
          i < pos + n → m (off + i) = m' (off' + i) := by
        intro pos n h hlo hhi
        have := eq_of_readLE_eq h (i - pos) (by omega)
        rwa [Nat.add_assoc, Nat.add_assoc, Nat.add_sub_cancel' hlo] at this
      unfold heapDiskTupHeaderSize at hi'
      by_cases h1 : i < 1
      · exact hfield 0 1 h₁ (by omega) (by omega)
      by_cases h2 : i < 2
      · exact hfield 1 1 h₂ (by omega) (by omega)
      by_cases h3 : i < 4
      · exact hfield 2 2 h₃ (by omega) (by omega)
      by_cases h4 : i < 12
      · exact hfield 4 8 hxid (by omega) (by omega)
      · exact hfield 12 4 h5 (by omega) (by omega)
    · have := hdata (i - heapDiskTupHeaderSize) (by omega)
      rwa [Nat.add_assoc, Nat.add_assoc, Nat.add_sub_cancel' (by omega)] at this

/-- The fields read from memory fit into their widths. -/
lemma header_lt (m : ByteMem) (off : ℕ) :
    (header m off).tdId < 256 ∧ (header m off).size < 256 ^ 2 ∧ (header m off).info < 256 ^ 4 :=
  ⟨readLE_lt m off 1, readLE_lt m _ 2, readLE_lt m _ 4⟩

/-! ## Changing the td status -/

/-- `m'` is `m` with the td status of the tuple at `off` set to `s`. -/
structure StatusEdit (off : ℕ) (m m' : ByteMem) (s : ℕ) : Prop where
  edit : HeaderEdit off m m'
  header_eq : header m' off =
    { header m off with info := set 4 2 s (header m off).info }

variable (m off) in
/-- Writing the status a tuple has changes nothing. -/
lemma StatusEdit.refl : StatusEdit off m m (header m off).tdStatus := by
  refine ⟨ByteMem.SameOutside.refl _ _ m, ?_⟩
  rw [HeapTupleHeader.tdStatus, set_get_self]

variable (m off) in
lemma statusEdit_setTdStatus (status : TupleTdStatus) :
    StatusEdit off m (setTdStatus m off status) status.code :=
  ⟨headerEdit_setTdStatus m off status, header_setTdStatus m off status⟩

/-- The status that was set is the one that is read. -/
lemma StatusEdit.tdStatus_eq {m' : ByteMem} {s : ℕ} (h : StatusEdit off m m' s) (hs : s < 4) :
    (header m' off).tdStatus = s := by
  rw [HeapTupleHeader.tdStatus, h.header_eq, get_set_self]
  exact Nat.mod_eq_of_lt hs

lemma tdStatus_lt (h : HeapTupleHeader) : h.tdStatus < 4 := get_lt 4 2 h.info

end HeapDiskTuple

end DStore
