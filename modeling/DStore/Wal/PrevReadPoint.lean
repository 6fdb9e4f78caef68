import DStore.Undo.TxnSlot
import DStore.Wal.Plsn

/-!
# The previous point to read from

`GetPrevReadStartPoint` looks for the last place before a plsn at which a group starts: in the file
that holds the plsn or, if the first group of that file starts later, in the files before it. The
loop over these never leaves the head of the list.
-/

namespace DStore

/-- A file of the list: where it starts, and `startPlsn` and `lastRecordRemainLen` of its header,
unless the header cannot be read. -/
structure WalFile where
  startPlsn : ℕ
  header : Option (ℕ × ℕ)

/-- `WalFile::GetFirstWalGroupPlsn`. -/
def WalFile.getFirstWalGroupPlsn (file : WalFile) : ℕ :=
  match file.header with
  | none => invalidPlsn
  | some (startPlsn, lastRecordRemainLen) => startPlsn + lastRecordRemainLen + walFileHdrSize

/-- `WalFileManager`: the files from `m_headFile` on, all of one size. -/
structure WalFileManager where
  walFileSize : ℕ
  files : List WalFile

namespace WalFileManager

variable (mgr : WalFileManager) (plsn : ℕ)

/-- `GetWalFileByPlsn`: the place of the file in the list. -/
def getWalFileByPlsn : Option ℕ :=
  mgr.files.findIdx? fun file => file.startPlsn ≤ plsn ∧ plsn < file.startPlsn + mgr.walFileSize

/-- The start of the first group of the file at a place. -/
def firstGroup (i : ℕ) : ℕ := mgr.files[i]?.elim invalidPlsn WalFile.getFirstWalGroupPlsn

/-- The loop of `GetPrevReadStartPoint`, which does not change `nowWalFile`. -/
def prevReadLoop (nowWalFile located : ℕ) : ℕ → ℕ → Option ℕ
  | 0, _ => none
  | fuel + 1, result =>
    if nowWalFile = located then some result
    else
      let first := mgr.firstGroup nowWalFile
      prevReadLoop nowWalFile located fuel
        (if first < plsn then if result < first then first else result else result)

/-- `WalStream::GetPrevReadStartPoint`. -/
def getPrevReadStartPoint (fuel : ℕ) : Option ℕ :=
  match mgr.getWalFileByPlsn plsn with
  | none => some invalidPlsn
  | some located =>
    if mgr.firstGroup located < plsn then some (mgr.firstGroup located)
    else mgr.prevReadLoop plsn 0 located fuel invalidPlsn

/-- The largest start of a first group below the plsn in the files up to `located`, or
`INVALID_PLSN`, which is the least plsn, if there is none. -/
def IsPrevReadStart (located result : ℕ) : Prop :=
  (result = invalidPlsn ∨ ∃ i ≤ located, mgr.firstGroup i = result ∧ result < plsn) ∧
    ∀ i ≤ located, mgr.firstGroup i < plsn → mgr.firstGroup i ≤ result

/-- The search ends with the right result. -/
def FindsPrevReadStart : Prop :=
  ∃ fuel result, mgr.getPrevReadStartPoint plsn fuel = some result ∧
    match mgr.getWalFileByPlsn plsn with
    | none => result = invalidPlsn
    | some located => mgr.IsPrevReadStart plsn located result

variable {mgr plsn}

/-- A loop that does not start at the file it looks for never ends. -/
lemma prevReadLoop_of_ne {nowWalFile located : ℕ} (hne : nowWalFile ≠ located) (fuel result : ℕ) :
    mgr.prevReadLoop plsn nowWalFile located fuel result = none := by
  induction fuel generalizing result with
  | zero => rfl
  | succ fuel ih =>
    rw [prevReadLoop, if_neg hne]
    exact ih _

/-- `GetPrevReadStartPoint` finds the previous start exactly if the file of the plsn has it, or the
first group of this file starts later and the file is the head of the list. -/
theorem getPrevReadStartPoint_iff (mgr : WalFileManager) (plsn : ℕ) :
    mgr.FindsPrevReadStart plsn ↔ ∀ located ∈ mgr.getWalFileByPlsn plsn,
      if mgr.firstGroup located < plsn then
        ∀ i < located, mgr.firstGroup i < plsn → mgr.firstGroup i ≤ mgr.firstGroup located
      else located = 0 := by
  unfold FindsPrevReadStart getPrevReadStartPoint
  cases mgr.getWalFileByPlsn plsn with
  | none => simp
  | some located =>
    simp only [Option.mem_some_iff, forall_eq']
    split_ifs with hfirst
    · constructor
      · rintro ⟨-, result, hresult, -, hall⟩ i hi hlt
        cases hresult
        exact hall i hi.le hlt
      · intro hall
        refine ⟨0, _, rfl, .inr ⟨located, le_rfl, rfl, hfirst⟩, fun i hi hlt => ?_⟩
        rcases hi.lt_or_eq with hi | rfl
        · exact hall i hi hlt
        · exact le_rfl
    · constructor
      · rintro ⟨fuel, result, hresult, -⟩
        by_contra hne
        rw [prevReadLoop_of_ne (Ne.symm hne)] at hresult
        cases hresult
      · rintro rfl
        refine ⟨1, invalidPlsn, rfl, .inl rfl, fun i hi hlt => ?_⟩
        rw [Nat.le_zero.mp hi] at hlt
        exact absurd hlt hfirst

/-- A group of the first file ends at plsn 150, where the first one of the second file starts: the
search for the point before does not end. -/
theorem getPrevReadStartPoint_stuck :
    ¬FindsPrevReadStart ⟨100, [⟨0, some (0, 0)⟩, ⟨100, some (100, 10)⟩]⟩ 150 := by
  rintro ⟨fuel, result, hresult, -⟩
  cases (prevReadLoop_of_ne (by decide) fuel invalidPlsn).symm.trans hresult

end WalFileManager

end DStore
