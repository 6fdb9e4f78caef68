import DStore.Lib.LaneOrder
import DStore.Wal.RedoData

/-!
# Records of different lanes commute

The records of a page are redone in log order, and so are those of a tablespace; these are the
lanes. Records of different lanes meet only at a data file. There the versions in the records
decide: a record behind the version of the file does nothing, one ahead of it waits, and the drop of
a file forgets what was done to its pages.
-/

namespace DStore

open Function Option LaneOrder RedoWalRecord

/-- What is redone in log order. -/
inductive RedoLane where
  | page (pageId : PageId)
  | tablespace (tablespaceId : ℕ)
  | relmap
deriving DecidableEq, Repr

/-- The lane of a record. -/
def RedoWalRecord.lane (record : RedoWalRecord) : RedoLane :=
  if record.type = .systableWriteBuiltinRelmap then .relmap
  else if record.type.isWalRecordWithoutPageInfo then .tablespace record.tablespaceId
  else .page record.pageId

/-- The lane of an entry. -/
def RedoWalRecordEntry.lane (entry : RedoWalRecordEntry) : RedoLane :=
  entry.walRecord.elim .relmap (·.lane)

namespace RedoEnv

variable {Body Relmap : Type} {env : RedoEnv Body Relmap} {entry entry' : RedoWalRecordEntry}
  {record record' : RedoWalRecord} {file file1 file2 : RedoFile Body} {dropped dropped' : Bool}

/-! ## One file -/

/-- The version that a record for a file or a page carries. -/
def recordVersion (env : RedoEnv Body Relmap) (entry : RedoWalRecordEntry)
    (record : RedoWalRecord) : ℕ :=
  match record.type with
  | .tbsCreateDataFile | .tbsDropDataFile => (env.recordBody entry).preReuseVersion
  | _ => record.filePreVersion.toNat

/-- The record is one of a page, if it is for a file. -/
def isPageRecord (record : RedoWalRecord) : Prop :=
  record.type ≠ .tbsCreateDataFile ∧ record.type ≠ .tbsDropDataFile

lemma redoFile_page (hpage : isPageRecord record) :
    env.redoFile entry record file = (env.redoPage entry record file).map (·, false) := by
  unfold redoFile
  split
  · exact absurd (by assumption) hpage.1
  · exact absurd (by assumption) hpage.2
  · rfl

lemma recordVersion_page (hpage : isPageRecord record) :
    env.recordVersion entry record = record.filePreVersion.toNat := by
  unfold recordVersion
  split
  · exact absurd (by assumption) hpage.1
  · exact absurd (by assumption) hpage.2
  · rfl

variable {version recordVersion : ℕ}

/-- What the version check answers. -/
lemma walRecordCheckVersion_spec :
    (walRecordCheckVersion version recordVersion = .noNeedToReplay ↔ recordVersion < version) ∧
    (walRecordCheckVersion version recordVersion = .replayable ↔ version = recordVersion) ∧
    (walRecordCheckVersion version recordVersion = .notReplayable ↔ version < recordVersion) := by
  unfold walRecordCheckVersion
  split_ifs <;> simp <;> omega

lemma walRecordCheckVersion_self (version : ℕ) :
    walRecordCheckVersion version version = .replayable :=
  walRecordCheckVersion_spec.2.1.2 rfl

/-- A record of an older version of the file is skipped. -/
lemma redoFile_stale (h : env.recordVersion entry record < file.item.reuseVersion) :
    env.redoFile entry record file = some (file, false) := by
  by_cases hpage : isPageRecord record
  · rw [recordVersion_page hpage] at h
    rw [redoFile_page hpage]
    simp [redoPage, pageDue, walRecordCheckVersion_spec.1.2 h]
  · unfold isPageRecord at hpage
    unfold recordVersion at h
    unfold redoFile
    split <;> simp_all [walRecordCheckVersion_spec.1.2]

@[simp]
lemma writePage_item : (env.writePage entry record file).item = file.item := rfl

/-- Redo of a page leaves the file's entry. -/
lemma redoPage_item (h : env.redoPage entry record file = some file1) : file1.item = file.item := by
  obtain ⟨due, -, rfl⟩ := map_eq_some_iff.1 h
  cases due <;> rfl

lemma le_nextReuseVersion (version pre : ℕ) : version ≤ nextReuseVersion version pre := by
  unfold nextReuseVersion
  split <;> omega

/-- A record that is redone is not ahead of the version, which does not fall; only a drop drops the
file. -/
lemma redoFile_spec (h : env.redoFile entry record file = some (file1, dropped)) :
    env.recordVersion entry record ≤ file.item.reuseVersion ∧
      file.item.reuseVersion ≤ file1.item.reuseVersion ∧
      (dropped → record.type = .tbsDropDataFile) := by
  by_cases hpage : isPageRecord record
  · rw [redoFile_page hpage] at h
    obtain ⟨_, hredo, heq⟩ := map_eq_some_iff.1 h
    cases heq
    rw [recordVersion_page hpage, redoPage_item hredo]
    refine ⟨not_lt.1 fun hlt => ?_, le_rfl, nofun⟩
    simp [redoPage, pageDue, walRecordCheckVersion_spec.2.2.2 hlt] at hredo
  · refine ⟨not_lt.1 fun hlt => ?_, ?_⟩
    · have hcheck := walRecordCheckVersion_spec.2.2.2 hlt
      unfold isPageRecord at hpage
      unfold recordVersion at hcheck
      unfold redoFile at h
      split at h <;> simp_all
    · dsimp only [redoFile] at h
      split at h
      · split at h
        · cases h
          exact ⟨le_rfl, nofun⟩
        · cases h
        · obtain ⟨_, hcreate, heq⟩ := map_eq_some_iff.1 h
          cases heq
          unfold redoCreateDataFile at hcreate
          split at hcreate <;> cases hcreate
          exact ⟨le_nextReuseVersion _ _, nofun⟩
      · rename_i htype
        refine ⟨?_, fun _ => htype⟩
        split at h
        · cases h
          rfl
        · cases h
        · obtain ⟨_, hdrop, heq⟩ := map_eq_some_iff.1 h
          cases heq
          unfold redoDropDataFile at hdrop
          split at hdrop <;> cases hdrop
          exact le_nextReuseVersion _ _
      · rename_i hcreate hdrop
        exact absurd ⟨hcreate, hdrop⟩ hpage

/-! ### Two pages of the file -/

/-- Extending a file keeps the blocks it has. -/
lemma extendFile_isSome (blocks : Option ℕ) (blockId : ℕ) (h : blocks.any (blockId < ·)) :
    (env.extendFile entry record blocks).any (blockId < ·) := by
  unfold extendFile
  split
  · cases blocks with
    | none => exact h
    | some n =>
      simp only [map_some, any_some, decide_eq_true_eq] at h ⊢
      exact lt_of_lt_of_le h (le_max_right _ _)
  · exact h

section

variable (hblock : record.pageId.blockId ≠ record'.pageId.blockId)
include hblock

/-- Writing one page does not change whether another is due. -/
lemma pageDue_writePage {due : Bool} (h : env.pageDue entry record file = some due) :
    env.pageDue entry record (env.writePage entry' record' file) = some due := by
  have hpage : (env.writePage entry' record' file).page record.pageId.blockId =
      file.page record.pageId.blockId := update_of_ne hblock _ _
  unfold pageDue at h ⊢
  rw [writePage_item, hpage]
  split at h
  · exact h
  · cases h
  · split at h
    · rename_i hreadable
      have hreadable' : (env.writePage entry' record' file).readable record.pageId.blockId :=
        extendFile_isSome _ _ hreadable
      rw [if_pos hreadable']
      exact h
    · cases h

/-- Writes of two pages commute. -/
lemma writePage_comm :
    env.writePage entry record (env.writePage entry' record' file) =
      env.writePage entry' record' (env.writePage entry record file) := by
  simp only [writePage, RedoFile.mk.injEq, true_and]
  constructor
  · unfold extendFile
    split_ifs <;> cases file.blocks <;> simp [max_left_comm]
  · rw [update_of_ne hblock, update_of_ne hblock.symm,
      update_comm hblock.symm]

/-- So does redo of two pages. -/
lemma redoPage_comm (h1 : env.redoPage entry record file = some file1)
    (h2 : env.redoPage entry' record' file = some file2) :
    ∃ file3, env.redoPage entry' record' file1 = some file3 ∧
      env.redoPage entry record file2 = some file3 := by
  obtain ⟨due, hdue, rfl⟩ := map_eq_some_iff.1 h1
  obtain ⟨due', hdue', rfl⟩ := map_eq_some_iff.1 h2
  have hdue2 : env.pageDue entry record
      (if due' then env.writePage entry' record' file else file) = some due := by
    cases due'
    · exact hdue
    · exact pageDue_writePage hblock hdue
  have hdue1 : env.pageDue entry' record'
      (if due then env.writePage entry record file else file) = some due' := by
    cases due
    · exact hdue'
    · exact pageDue_writePage hblock.symm hdue'
  refine ⟨_, by rw [redoPage, hdue1]; rfl, ?_⟩
  rw [redoPage, hdue2, map_some]
  cases due <;> cases due' <;> simp [writePage_comm hblock]

end

/-! ### The order of the records of a file -/

/-- What the log says about a record and a later one of another lane for the same file: the version
has grown, both are for pages, or the file is dropped after a record for a page. -/
def Earlier (env : RedoEnv Body Relmap) (entry : RedoWalRecordEntry) (record : RedoWalRecord)
    (entry' : RedoWalRecordEntry) (record' : RedoWalRecord) : Prop :=
  env.recordVersion entry record < env.recordVersion entry' record' ∨
    isPageRecord record ∧ isPageRecord record' ∨
    isPageRecord record ∧ record'.type = .tbsDropDataFile ∧
      env.recordVersion entry record ≤ env.recordVersion entry' record'

section

variable (h1 : env.redoFile entry record file = some (file1, dropped))
  (h2 : env.redoFile entry' record' file = some (file2, dropped'))
include h1 h2

/-- A stale record commutes with any other. -/
lemma redoFile_comm_stale (hstale : env.recordVersion entry record < file.item.reuseVersion) :
    ∃ file3, env.redoFile entry' record' file1 = some (file3, dropped') ∧
      env.redoFile entry record file2 = some (file3, dropped) := by
  rw [redoFile_stale hstale] at h1
  cases h1
  exact ⟨file2, h2, redoFile_stale (lt_of_lt_of_le hstale (redoFile_spec h2).2.1)⟩

/-- The drop of a file forgets what was written to a page. -/
lemma redoFile_comm_drop (hpage : isPageRecord record) (hdrop : record'.type = .tbsDropDataFile)
    (hversion : env.recordVersion entry record = file.item.reuseVersion)
    (hversion' : env.recordVersion entry' record' = file.item.reuseVersion) :
    ∃ file3, env.redoFile entry' record' file1 = some (file3, dropped') ∧
      env.redoFile entry record file2 = some (file3, dropped) := by
  have hpre : (env.recordBody entry').preReuseVersion = file.item.reuseVersion := by
    simpa [recordVersion, hdrop] using hversion'
  have hitem : file1.item = file.item ∧ dropped = false := by
    rw [redoFile_page hpage] at h1
    obtain ⟨file3, hredo, heq⟩ := map_eq_some_iff.1 h1
    cases heq
    exact ⟨redoPage_item hredo, rfl⟩
  have hsame : env.redoFile entry' record' file1 = env.redoFile entry' record' file := by
    simp only [redoFile, hdrop, hitem.1, hpre, walRecordCheckVersion_self, redoDropDataFile]
  have hgrown : env.recordVersion entry record < file2.item.reuseVersion := by
    simp only [redoFile, hdrop, hpre, walRecordCheckVersion_self] at h2
    obtain ⟨_, hredo, heq⟩ := map_eq_some_iff.1 h2
    cases heq
    unfold redoDropDataFile at hredo
    split at hredo <;> cases hredo
    rw [hversion]
    simp [nextReuseVersion, hpre]
  refine ⟨file2, hsame.trans h2, ?_⟩
  rw [redoFile_stale hgrown, hitem.2]

/-- Records of different lanes commute on a file. -/
lemma redoFile_comm (hearlier : env.Earlier entry record entry' record')
    (hblock : isPageRecord record → isPageRecord record' →
      record.pageId.blockId ≠ record'.pageId.blockId) :
    ∃ file3, env.redoFile entry' record' file1 = some (file3, dropped') ∧
      env.redoFile entry record file2 = some (file3, dropped) := by
  have hle := (redoFile_spec h2).1
  rcases hearlier with hlt | ⟨hpage, hpage'⟩ | ⟨hpage, hdrop, hversion⟩
  · exact redoFile_comm_stale h1 h2 (lt_of_lt_of_le hlt hle)
  · rw [redoFile_page hpage] at h1 ⊢
    rw [redoFile_page hpage'] at h2 ⊢
    obtain ⟨_, hredo, heq⟩ := map_eq_some_iff.1 h1
    cases heq
    obtain ⟨_, hredo', heq⟩ := map_eq_some_iff.1 h2
    cases heq
    obtain ⟨file3, h3, h4⟩ := redoPage_comm (hblock hpage hpage') hredo hredo'
    exact ⟨file3, by rw [h3]; rfl, by rw [h4]; rfl⟩
  · rcases lt_or_eq_of_le (hversion.trans hle) with hstale | heq
    · exact redoFile_comm_stale h1 h2 hstale
    · exact redoFile_comm_drop h1 h2 hpage hdrop heq (le_antisymm hle (heq ▸ hversion))

end

/-! ## All data -/

variable {data data1 data2 : RedoData Body Relmap} {tablespaceId tablespaceId' : ℕ}
  {body body' : RedoWalRecordBody} {tablespace : ℕ → ControlTablespaceItem}

/-- Removing a file leaves the other tablespaces. -/
lemma removeFile_of_ne (h : tablespaceId' ≠ tablespaceId) :
    removeFile body tablespaceId tablespace tablespaceId' = tablespace tablespaceId' := by
  unfold removeFile
  split
  · exact update_of_ne h _ _
  · rfl

lemma removeFile_update (h : tablespaceId' ≠ tablespaceId) (item : ControlTablespaceItem) :
    removeFile body tablespaceId (update tablespace tablespaceId' item) =
      update (removeFile body tablespaceId tablespace) tablespaceId' item := by
  unfold removeFile
  split
  · dsimp only
    rw [update_of_ne h.symm, update_comm h]
  · rfl

/-- Removing files of two tablespaces commutes. -/
lemma removeFile_comm (h : tablespaceId' ≠ tablespaceId) :
    removeFile body tablespaceId (removeFile body' tablespaceId' tablespace) =
      removeFile body' tablespaceId' (removeFile body tablespaceId tablespace) := by
  conv_lhs => rw [removeFile.eq_def body' tablespaceId' tablespace]
  conv_rhs => rw [removeFile.eq_def body' tablespaceId']
  split
  · dsimp only
    rw [removeFile_update h, removeFile_of_ne h]
  · rfl

/-- The tablespaces after a record for a file. -/
def afterFile (env : RedoEnv Body Relmap) (entry : RedoWalRecordEntry) (record : RedoWalRecord)
    (dropped : Bool) (tablespace : ℕ → ControlTablespaceItem) : ℕ → ControlTablespaceItem :=
  if dropped then removeFile (env.recordBody entry) record.tablespaceId tablespace else tablespace

/-- The lane of an entry is that of its record. -/
lemma lane_of_record (hrecord : entry.walRecord = some record) : entry.lane = record.lane := by
  simp [RedoWalRecordEntry.lane, hrecord]

lemma lane_of_drop (htype : record.type = .tbsDropDataFile) :
    record.lane = .tablespace record.tablespaceId := by
  simp [lane, htype, WalType.isWalRecordWithoutPageInfo]

lemma lane_of_tablespace {id : ℕ} (htarget : env.target entry record = .tablespace id) :
    record.lane = .tablespace id := by
  unfold target at htarget
  split at htarget <;> cases htarget <;>
    simp_all [lane, WalType.isWalRecordWithoutPageInfo]

lemma lane_of_relmap (htarget : env.target entry record = .relmap) : record.lane = .relmap := by
  unfold target at htarget
  split at htarget <;> cases htarget
  simp_all [lane]

variable {fileId : UInt16}

/-- A page record is in the lane of its page. -/
lemma lane_of_page (htarget : env.target entry record = .file fileId)
    (hpage : isPageRecord record) :
    record.lane = .page record.pageId ∧ record.pageId.fileId = fileId := by
  unfold target at htarget
  split at htarget
  · exact absurd (by assumption) hpage.1
  · exact absurd (by assumption) hpage.2
  all_goals try cases htarget
  refine ⟨?_, rfl⟩
  unfold lane
  rw [if_neg (by assumption), if_neg]
  unfold WalType.isWalRecordWithoutPageInfo
  split <;> simp_all

section

variable (hrecord : entry.walRecord = some record)
include hrecord

/-- Redo of a record for a file. -/
lemma redoEntry_file
    (htarget : env.target entry record = .file fileId) (hfile : data.file fileId = file)
    {result : RedoFile Body × Bool} (hredo : env.redoFile entry record file = some result) :
    env.redoEntry data entry = some { data with
      file := update data.file fileId result.1
      tablespace := env.afterFile entry record result.2 data.tablespace } := by
  simp only [redoEntry, hrecord, htarget, hfile, hredo, map_some, afterFile]

/-- A record for a file was redone on that file. -/
lemma of_redoEntry_file (htarget : env.target entry record = .file fileId)
    (h : env.redoEntry data entry = some data1) :
    ∃ result, env.redoFile entry record (data.file fileId) = some result ∧
      data1 = { data with
        file := update data.file fileId result.1
        tablespace := env.afterFile entry record result.2 data.tablespace } := by
  simp only [redoEntry, hrecord, htarget] at h
  obtain ⟨result, hredo, rfl⟩ := map_eq_some_iff.1 h
  exact ⟨result, hredo, rfl⟩

/-- Redo of a record for a tablespace. -/
lemma redoEntry_tablespace (htarget : env.target entry record = .tablespace tablespaceId)
    {item item' : ControlTablespaceItem} (hitem : data.tablespace tablespaceId = item)
    (hredo : env.redoTablespace entry record item = some item') :
    env.redoEntry data entry =
      some { data with tablespace := update data.tablespace tablespaceId item' } := by
  simp only [redoEntry, hrecord, htarget, hitem, hredo, map_some]

/-- A record for a tablespace was redone on that tablespace. -/
lemma of_redoEntry_tablespace (htarget : env.target entry record = .tablespace tablespaceId)
    (h : env.redoEntry data entry = some data1) :
    ∃ item, env.redoTablespace entry record (data.tablespace tablespaceId) = some item ∧
      data1 = { data with tablespace := update data.tablespace tablespaceId item } := by
  simp only [redoEntry, hrecord, htarget] at h
  obtain ⟨item, hredo, rfl⟩ := map_eq_some_iff.1 h
  exact ⟨item, hredo, rfl⟩

end

/-- The updates of the tablespace after two file records commute. -/
lemma afterFile_comm (hlane : record.lane ≠ record'.lane) {file' : RedoFile Body}
    {result result' : RedoFile Body × Bool} (h1 : env.redoFile entry record file = some result)
    (h2 : env.redoFile entry' record' file' = some result') :
    env.afterFile entry' record' result'.2 (env.afterFile entry record result.2 tablespace) =
      env.afterFile entry record result.2 (env.afterFile entry' record' result'.2 tablespace) := by
  obtain ⟨file1, dropped⟩ := result
  obtain ⟨file2, dropped'⟩ := result'
  cases dropped with
  | false => rfl
  | true =>
    cases dropped' with
    | false => rfl
    | true =>
      rw [lane_of_drop ((redoFile_spec h1).2.2 rfl),
        lane_of_drop ((redoFile_spec h2).2.2 rfl)] at hlane
      exact removeFile_comm fun heq => hlane (congrArg _ heq)

section

variable (hrecord : entry.walRecord = some record) (hrecord' : entry'.walRecord = some record')
  (hlane : record.lane ≠ record'.lane)
include hrecord hrecord' hlane

section

variable (htarget : env.target entry record = .file fileId)
include htarget

/-- Two records for one file. -/
lemma diamond_same_file (htarget' : env.target entry' record' = .file fileId)
    (hearlier : env.Earlier entry record entry' record') : Diamond env.redoEntry entry entry' := by
  intro data data1 data2 h1 h2
  obtain ⟨⟨file1, dropped⟩, hfile1, rfl⟩ := of_redoEntry_file hrecord htarget h1
  obtain ⟨⟨file2, dropped'⟩, hfile2, rfl⟩ := of_redoEntry_file hrecord' htarget' h2
  have hblock : isPageRecord record → isPageRecord record' →
      record.pageId.blockId ≠ record'.pageId.blockId := by
    intro hpage hpage' hblock
    obtain ⟨hlane1, hid1⟩ := lane_of_page htarget hpage
    obtain ⟨hlane2, hid2⟩ := lane_of_page htarget' hpage'
    have hpageId : record.pageId = record'.pageId := by
      rw [PageId.mk.injEq]
      exact ⟨hid1.trans hid2.symm, hblock⟩
    exact hlane (by rw [hlane1, hlane2, hpageId])
  obtain ⟨file3, h3, h4⟩ := redoFile_comm hfile1 hfile2 hearlier hblock
  refine ⟨_, redoEntry_file hrecord' htarget' (update_self ..) h3, ?_⟩
  rw [redoEntry_file hrecord htarget (update_self ..) h4]
  simp only [some.injEq, RedoData.mk.injEq, update_idem, true_and, and_true]
  exact (afterFile_comm hlane hfile1 hfile2).symm

/-- Records for two files commute. -/
lemma diamond_two_files {fileId' : UInt16}
    (htarget' : env.target entry' record' = .file fileId') (hfile : fileId ≠ fileId') :
    Diamond env.redoEntry entry entry' := by
  intro data data1 data2 h1 h2
  obtain ⟨result, hfile1, rfl⟩ := of_redoEntry_file hrecord htarget h1
  obtain ⟨result', hfile2, rfl⟩ := of_redoEntry_file hrecord' htarget' h2
  refine ⟨_, redoEntry_file hrecord' htarget' (update_of_ne hfile.symm _ _) hfile2, ?_⟩
  rw [redoEntry_file hrecord htarget (update_of_ne hfile _ _) hfile1]
  simp only [some.injEq, RedoData.mk.injEq, and_true]
  exact ⟨update_comm hfile.symm _ _ _, (afterFile_comm hlane hfile1 hfile2).symm⟩

/-- A record for a file and one for a tablespace. -/
lemma diamond_file_tablespace (htarget' : env.target entry' record' = .tablespace tablespaceId) :
    Diamond env.redoEntry entry entry' := by
  intro data data1 data2 h1 h2
  obtain ⟨⟨file1, dropped⟩, hfile, rfl⟩ := of_redoEntry_file hrecord htarget h1
  obtain ⟨item, hitem, rfl⟩ := of_redoEntry_tablespace hrecord' htarget' h2
  have hne : dropped → tablespaceId ≠ record.tablespaceId := by
    rintro rfl heq
    rw [lane_of_drop ((redoFile_spec hfile).2.2 rfl), lane_of_tablespace htarget', heq] at hlane
    exact hlane rfl
  have hsame : env.afterFile entry record dropped data.tablespace tablespaceId =
      data.tablespace tablespaceId := by
    cases dropped with
    | false => rfl
    | true => exact removeFile_of_ne (hne rfl)
  refine ⟨_, redoEntry_tablespace hrecord' htarget' hsame hitem, ?_⟩
  have hredo : env.redoEntry
      { data with tablespace := update data.tablespace tablespaceId item } entry = _ :=
    redoEntry_file hrecord htarget rfl hfile
  rw [hredo]
  simp only [some.injEq, RedoData.mk.injEq, true_and, and_true]
  cases dropped with
  | false => rfl
  | true => exact removeFile_update (hne rfl) _

end

/-- Records for two tablespaces commute. -/
lemma diamond_two_tablespaces (htarget : env.target entry record = .tablespace tablespaceId)
    (htarget' : env.target entry' record' = .tablespace tablespaceId') :
    Diamond env.redoEntry entry entry' := by
  intro data data1 data2 h1 h2
  obtain ⟨item, hitem, rfl⟩ := of_redoEntry_tablespace hrecord htarget h1
  obtain ⟨item', hitem', rfl⟩ := of_redoEntry_tablespace hrecord' htarget' h2
  have hne : tablespaceId ≠ tablespaceId' := by
    rintro rfl
    exact hlane ((lane_of_tablespace htarget).trans (lane_of_tablespace htarget').symm)
  refine ⟨_, redoEntry_tablespace hrecord' htarget' (update_of_ne hne.symm _ _) hitem', ?_⟩
  rw [redoEntry_tablespace hrecord htarget (update_of_ne hne _ _) hitem]
  simp only [some.injEq, RedoData.mk.injEq, true_and, and_true]
  exact update_comm hne.symm _ _ _

/-- Relmap records commute with those of other lanes. -/
lemma diamond_relmap (htarget : env.target entry record = .relmap) :
    Diamond env.redoEntry entry entry' := by
  intro data data1 data2 h1 h2
  simp only [redoEntry, hrecord, htarget] at h1 ⊢
  cases h1
  cases htarget' : env.target entry' record' with
  | file fileId =>
    obtain ⟨result, hresult, rfl⟩ := of_redoEntry_file hrecord' htarget' h2
    exact ⟨_, redoEntry_file hrecord' htarget' rfl hresult, rfl⟩
  | tablespace tablespaceId =>
    obtain ⟨item, hitem, rfl⟩ := of_redoEntry_tablespace hrecord' htarget' h2
    exact ⟨_, redoEntry_tablespace hrecord' htarget' rfl hitem, rfl⟩
  | relmap => exact absurd ((lane_of_relmap htarget).trans (lane_of_relmap htarget').symm) hlane

/-- Records of different lanes commute, if the log has the records of each file in the order of
their versions. -/
theorem diamond (hearlier : ∀ fileId, env.target entry record = .file fileId →
      env.target entry' record' = .file fileId → env.Earlier entry record entry' record') :
    Diamond env.redoEntry entry entry' := by
  cases htarget : env.target entry record with
  | file fileId =>
    cases htarget' : env.target entry' record' with
    | file fileId' =>
      by_cases hfile : fileId = fileId'
      · subst hfile
        exact diamond_same_file hrecord hrecord' hlane htarget htarget'
          (hearlier fileId htarget htarget')
      · exact diamond_two_files hrecord hrecord' hlane htarget htarget' hfile
    | tablespace tablespaceId =>
      exact diamond_file_tablespace hrecord hrecord' hlane htarget htarget'
    | relmap => exact (diamond_relmap hrecord' hrecord hlane.symm htarget').symm
  | tablespace tablespaceId =>
    cases htarget' : env.target entry' record' with
    | file fileId' =>
      exact (diamond_file_tablespace hrecord' hrecord hlane.symm htarget' htarget).symm
    | tablespace tablespaceId' =>
      exact diamond_two_tablespaces hrecord hrecord' hlane htarget htarget'
    | relmap => exact (diamond_relmap hrecord' hrecord hlane.symm htarget').symm
  | relmap => exact diamond_relmap hrecord hrecord' hlane htarget

end

end RedoEnv

end DStore
