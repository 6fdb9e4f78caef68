import Mathlib.Tactic.Ring
import DStore.Common.Types

/-!
# Log positions

A log stream is a sequence of files of one size, each with a header. A byte position counts the
bytes of log data only; a plsn also counts the headers. A position between two files is the end of
the first one when it ends a group, and lies behind the header of the second one otherwise.
-/

namespace DStore

/-- `WAL_FILE_HDR_SIZE`: the size of `WalFileHeaderData`, aligned. -/
def walFileHdrSize : ℕ := 40

/-- The offset of `WalFileHeaderData::lastRecordRemainLen`. -/
def lastRecordRemainLenOff : ℕ := 32

/-- `WAL_BLCKSZ`. -/
def walBlckSz : ℕ := 8192

/-- The size of `WalRecordAtomicGroup` without its records, `WAL_GROUP_HEADER_SIZE`. -/
def walGroupHeaderSize : ℕ := 18

/-- `WalUtils::GetWalFileUsableBytes`. -/
def getWalFileUsableBytes (walFileSize : ℕ) : ℕ := walFileSize - walFileHdrSize

/-- `WalUtils::WalBytePosToPlsn<isEnd>`. -/
def walBytePosToPlsn (isEnd : Bool) (walFileSize bytepos : ℕ) : ℕ :=
  bytepos / getWalFileUsableBytes walFileSize * walFileSize +
      bytepos % getWalFileUsableBytes walFileSize +
    if isEnd ∧ bytepos % getWalFileUsableBytes walFileSize = 0 then 0 else walFileHdrSize

/-- `WalUtils::WalPlsnToBytePos`. -/
def walPlsnToBytePos (walFileSize plsn : ℕ) : ℕ :=
  plsn / walFileSize * getWalFileUsableBytes walFileSize +
    (plsn % walFileSize - walFileHdrSize)

/-- `WalUtils::GetRecordPlsn<isEnd>`. -/
def getRecordPlsn (isEnd : Bool) (groupStartPlsn recordOffset walFileSize : ℕ) : ℕ :=
  walBytePosToPlsn isEnd walFileSize (walPlsnToBytePos walFileSize groupStartPlsn + recordOffset)

/-- `WalUtils::GetWalGroupStartPlsn`: the start of a group with one record of `recordLen` bytes. -/
def getWalGroupStartPlsn (groupEndPlsn recordLen walFileSize : ℕ) : ℕ :=
  walBytePosToPlsn false walFileSize
    (walPlsnToBytePos walFileSize groupEndPlsn - recordLen - walGroupHeaderSize)

/-- Within a file plsns follow each other. -/
lemma plsn_add_div_mod {walFileSize plsn i : ℕ} (h : plsn % walFileSize + i < walFileSize) :
    (plsn + i) / walFileSize = plsn / walFileSize ∧
      (plsn + i) % walFileSize = plsn % walFileSize + i := by
  have hplsn := Nat.div_add_mod plsn walFileSize
  exact (Nat.div_mod_unique (by omega)).2 ⟨by omega, h⟩

section Positions

variable {walFileSize b b' : ℕ}

/-- A start behind the header of its file. -/
lemma walBytePosToPlsn_start (walFileSize b : ℕ) :
    walBytePosToPlsn false walFileSize b =
      b / getWalFileUsableBytes walFileSize * walFileSize +
        b % getWalFileUsableBytes walFileSize + walFileHdrSize := by
  simp [walBytePosToPlsn]

/-- An end at a file border stays in the file before. -/
lemma walBytePosToPlsn_end (walFileSize b : ℕ) :
    walBytePosToPlsn true walFileSize b =
      if b % getWalFileUsableBytes walFileSize = 0 then
        b / getWalFileUsableBytes walFileSize * walFileSize
      else walBytePosToPlsn false walFileSize b := by
  unfold walBytePosToPlsn
  split_ifs with h1 h2 h3 <;> simp_all

/-- An end comes no later than the start at the same position. -/
lemma walBytePosToPlsn_end_le (walFileSize b : ℕ) :
    walBytePosToPlsn true walFileSize b ≤ walBytePosToPlsn false walFileSize b := by
  rw [walBytePosToPlsn_end]
  split_ifs
  · rw [walBytePosToPlsn_start]
    omega
  · exact le_rfl

section

variable (hsize : walFileHdrSize < walFileSize)
include hsize

lemma usableBytes : ∃ u, getWalFileUsableBytes walFileSize = u ∧ 0 < u ∧
    u + walFileHdrSize = walFileSize :=
  ⟨_, rfl, Nat.sub_pos_of_lt hsize, Nat.sub_add_cancel hsize.le⟩

/-- File and offset of a start. -/
lemma walBytePosToPlsn_start_div_mod (b : ℕ) :
    walBytePosToPlsn false walFileSize b / walFileSize = b / getWalFileUsableBytes walFileSize ∧
      walBytePosToPlsn false walFileSize b % walFileSize =
        b % getWalFileUsableBytes walFileSize + walFileHdrSize := by
  obtain ⟨u, hu, hpos, husable⟩ := usableBytes hsize
  have hmod := Nat.mod_lt b hpos
  rw [walBytePosToPlsn_start, hu, Nat.mul_comm]
  exact (Nat.div_mod_unique (by omega)).2 ⟨by omega, by omega⟩

/-- Later positions have greater plsns. -/
lemma walBytePosToPlsn_start_lt (hlt : b < b') :
    walBytePosToPlsn false walFileSize b < walBytePosToPlsn true walFileSize b' := by
  obtain ⟨u, hu, hpos, husable⟩ := usableBytes hsize
  have hle : b / u ≤ b' / u := Nat.div_le_div_right hlt.le
  have hb := Nat.div_add_mod' b u
  have hb' := Nat.div_add_mod' b' u
  have hmod := Nat.mod_lt b hpos
  rw [walBytePosToPlsn_end, walBytePosToPlsn_start, walBytePosToPlsn_start, hu]
  generalize b / u = q at *
  generalize b' / u = q' at *
  generalize b % u = r at *
  generalize b' % u = r' at *
  rcases Nat.eq_or_lt_of_le hle with rfl | hfile
  · split_ifs <;> omega
  · -- a later file: the whole rest of the first one lies between
    have hmul : (q + 1) * walFileSize ≤ q' * walFileSize := Nat.mul_le_mul_right _ hfile
    rw [Nat.add_one_mul] at hmul
    split_ifs <;> omega

/-- Later positions have larger plsns. -/
lemma walBytePosToPlsn_strictMono (isEnd : Bool) :
    StrictMono (walBytePosToPlsn isEnd walFileSize) := by
  intro a b hlt
  have hnext := walBytePosToPlsn_start_lt hsize hlt
  cases isEnd with
  | false => exact hnext.trans_le (walBytePosToPlsn_end_le walFileSize b)
  | true => exact (walBytePosToPlsn_end_le walFileSize a).trans_lt hnext

/-- The position is recovered from the plsn. -/
lemma walPlsnToBytePos_walBytePosToPlsn (isEnd : Bool) (b : ℕ) :
    walPlsnToBytePos walFileSize (walBytePosToPlsn isEnd walFileSize b) = b := by
  have hb := Nat.div_add_mod' b (getWalFileUsableBytes walFileSize)
  obtain ⟨hdiv, hmod⟩ := walBytePosToPlsn_start_div_mod hsize b
  have hstart : walPlsnToBytePos walFileSize (walBytePosToPlsn false walFileSize b) = b := by
    rw [walPlsnToBytePos, hdiv, hmod, Nat.add_sub_cancel, hb]
  cases isEnd with
  | false => exact hstart
  | true =>
    rw [walBytePosToPlsn_end]
    split_ifs with hzero
    · -- the end of a file is the byte position of the next one
      rw [walPlsnToBytePos, Nat.mul_div_cancel _ (by omega), Nat.mul_mod_left, Nat.zero_sub]
      omega
    · exact hstart

end

/-- `WalUtils::WalBytePosToPlsn<isEnd>` in the arithmetic of `uint64`. -/
def walBytePosToPlsn64 (isEnd : Bool) (walFileSize bytepos : ℕ) : ℕ :=
  walBytePosToPlsn isEnd walFileSize bytepos % 2 ^ 64

/-- Byte positions and plsns that fit correspond: the way back, the order, the difference of the
two plsns, and the start of a group of one record that ends at the position. -/
theorem walBytePosToPlsn64_corresponds (hsize : walFileHdrSize < walFileSize)
    (hfits : walBytePosToPlsn false walFileSize b < 2 ^ 64) :
    (∀ isEnd, walPlsnToBytePos walFileSize (walBytePosToPlsn64 isEnd walFileSize b) = b ∧
      ∀ a < b, walBytePosToPlsn64 isEnd walFileSize a < walBytePosToPlsn64 isEnd walFileSize b) ∧
    (walBytePosToPlsn64 false walFileSize b = walBytePosToPlsn64 true walFileSize b +
      if b % getWalFileUsableBytes walFileSize = 0 then walFileHdrSize else 0) ∧
    ∀ start recordLen, b = start + walGroupHeaderSize + recordLen →
      getWalGroupStartPlsn (walBytePosToPlsn64 true walFileSize b) recordLen walFileSize =
        walBytePosToPlsn64 false walFileSize start := by
  have hle : ∀ isEnd a,
      walBytePosToPlsn isEnd walFileSize a ≤ walBytePosToPlsn false walFileSize a := by
    intro isEnd a
    cases isEnd with
    | false => exact le_rfl
    | true => exact walBytePosToPlsn_end_le walFileSize a
  -- up to `b` nothing wraps
  have hwrap : ∀ isEnd, ∀ a ≤ b, walBytePosToPlsn64 isEnd walFileSize a =
      walBytePosToPlsn isEnd walFileSize a := by
    intro isEnd a ha
    refine Nat.mod_eq_of_lt ((hle isEnd a).trans_lt (lt_of_le_of_lt ?_ hfits))
    exact (walBytePosToPlsn_strictMono hsize false).monotone ha
  refine ⟨fun isEnd => ⟨?_, fun a ha => ?_⟩, ?_, fun start recordLen hend => ?_⟩
  · rw [hwrap isEnd b le_rfl, walPlsnToBytePos_walBytePosToPlsn hsize]
  · rw [hwrap isEnd a ha.le, hwrap isEnd b le_rfl]
    exact walBytePosToPlsn_strictMono hsize isEnd ha
  · rw [hwrap false b le_rfl, hwrap true b le_rfl, walBytePosToPlsn_end]
    split_ifs with hzero
    · rw [walBytePosToPlsn_start, hzero, Nat.add_zero]
    · rfl
  · rw [getWalGroupStartPlsn, hwrap true b le_rfl, walPlsnToBytePos_walBytePosToPlsn hsize,
      hwrap false start (by omega)]
    congr 1
    omega

theorem walBytePosToPlsn64_corresponds_file_end :
    walPlsnToBytePos 100 (walBytePosToPlsn64 true 100 60) = 60 :=
  ((@walBytePosToPlsn64_corresponds 100 60 (by decide) (by decide)).1 true).1

/-- A plsn that does not fit wraps around. -/
theorem walBytePosToPlsn64_wraps :
    walPlsnToBytePos 41 (walBytePosToPlsn64 false 41 (2 ^ 63)) ≠ 2 ^ 63 := by
  decide

end Positions

end DStore
