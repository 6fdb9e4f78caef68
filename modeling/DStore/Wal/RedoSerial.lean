import DStore.Wal.RedoCommute

/-!
# Serial redo and the log it reads

The log is written by an execution: the version in a record is that of the file at the time, and
grows by one when a file is created or dropped. So the records of a file stand in the log in the
order of their versions, which is what makes records of different lanes commute. Serial redo takes
the records one after another; a record of many pages is the same to it as the entries that the
dispatcher makes of it, as long as none of its pages has to wait.
-/

namespace DStore

open List Function Option RedoWalRecordEntry

/-- The entries that change something, of those that the dispatcher makes of an entry. -/
def RedoWalRecordEntry.redoEntries (entry : RedoWalRecordEntry) : List RedoWalRecordEntry :=
  match entry.walRecord with
  | none => []
  | some record =>
    if record.type = .barrierCsn ∨ record.type.isRedoableWalRecord = false then []
    else if record.type.isWalRecordWithMultiPagesInfo then
      (List.range record.pageCount).map fun i =>
        ⟨entry.recordEndPlsn, some (splitRecord record i)⟩
    else [entry]

/-- The entries that change something, of a log. -/
def redoEntries (log : List RedoWalRecordEntry) : List RedoWalRecordEntry :=
  log.flatMap (·.redoEntries)

/-- The entry for one page of a record of many pages. -/
abbrev RedoWalRecordEntry.split (entry : RedoWalRecordEntry) (record : RedoWalRecord) (i : ℕ) :
    RedoWalRecordEntry :=
  ⟨entry.recordEndPlsn, some (splitRecord record i)⟩

/-- What the dispatcher hands out of an entry. -/
lemma RedoConfig.dispatchEntry_redoEntries (cfg : RedoConfig) (entry : RedoWalRecordEntry) :
    ((cfg.dispatchEntry entry).map (·.entry)).filter (·.isRedo) = entry.redoEntries := by
  have hall : entry.isRedo = false →
      ((cfg.dispatchToAllWorkers entry).map (·.entry)).filter (·.isRedo) = [] := by
    intro hredo
    refine List.filter_eq_nil_iff.2 fun other hother => ?_
    obtain ⟨target, htarget, rfl⟩ := List.mem_map.1 hother
    rw [cfg.dispatchToAllWorkers_entry htarget, hredo]
    exact Bool.false_ne_true
  unfold dispatchEntry RedoWalRecordEntry.redoEntries
  cases hrecord : entry.walRecord with
  | none => exact hall (by simp [isRedo, hrecord])
  | some record =>
    dsimp only
    by_cases hbarrier : record.type = .barrierCsn
    · rw [if_pos hbarrier, if_pos (Or.inl hbarrier)]
      split
      · exact hall (by simp [isRedo, hrecord, hbarrier])
      · rfl
    · rw [if_neg hbarrier]
      unfold dispatchWalRecord
      by_cases hredo : record.type.isRedoableWalRecord = false
      · rw [if_pos hredo, if_pos (Or.inr hredo)]
        rfl
      rw [if_neg hredo, if_neg (not_or.2 ⟨hbarrier, hredo⟩)]
      have hsplit : ((cfg.splitAndDispatch entry.recordEndPlsn record).map (·.entry)).filter
          (·.isRedo) = (List.range record.pageCount).map (entry.split record) := by
        rw [splitAndDispatch, List.map_map]
        refine List.filter_eq_self.2 fun other hother => ?_
        obtain ⟨i, -, rfl⟩ := List.mem_map.1 hother
        simp only [Function.comp_apply, isRedo, Option.any_some, splitRecord,
          splitTypeAndSize]
        split <;> rfl
      have hself : (⟨entry.recordEndPlsn, some record⟩ : RedoWalRecordEntry) = entry := by
        rw [← hrecord]
      have hisRedo : entry.isRedo := by
        simp [isRedo, hrecord, hbarrier]
      by_cases hdata : record.type = .tbsInitMultipleDataPages
      · rw [if_pos hdata, hsplit, if_pos (by rw [hdata]; rfl)]
      by_cases hbitmap : record.type = .tbsInitBitmapPages
      · rw [if_neg hdata, if_pos hbitmap, hsplit, if_pos (by rw [hbitmap]; rfl)]
      have hmulti : record.type.isWalRecordWithMultiPagesInfo = false := by
        unfold WalType.isWalRecordWithMultiPagesInfo
        split <;> simp_all
      rw [if_neg hdata, if_neg hbitmap, hmulti, if_neg Bool.false_ne_true, hself]
      split <;> simp [hisRedo]

namespace RedoEnv

variable {Body Relmap : Type}

/-! ## The log of an execution -/

/-- The version of a data file in the execution that wrote the log, and whether the file was
there. -/
structure FileEpoch where
  version : ℕ
  live : Bool
deriving DecidableEq, Repr

/-- The versions after a record was written: a record for a file carries its version, pages are
changed and files are dropped only while the file is there, and created only while it is not. -/
def epochStep (env : RedoEnv Body Relmap) (epoch : UInt16 → FileEpoch)
    (entry : RedoWalRecordEntry) : Option (UInt16 → FileEpoch) :=
  match entry.walRecord with
  | none => some epoch
  | some record =>
    match env.target entry record with
    | .file fileId =>
      let version := env.recordVersion entry record
      if epoch fileId = ⟨version, record.type ≠ .tbsCreateDataFile⟩ then
        match record.type with
        | .tbsCreateDataFile => some (Function.update epoch fileId ⟨version + 1, true⟩)
        | .tbsDropDataFile => some (Function.update epoch fileId ⟨version + 1, false⟩)
        | _ => some epoch
      else none
    | _ => some epoch

/-- What the dispatcher writes to the entry for the `i`-th page of a record of many pages, in
`WalRecordTbsInitOneDataPage::SetData` or `WalRecordTbsInitOneBitmapPage::SetData`. -/
def splitBody (body : RedoWalRecordBody) (i : ℕ) : RedoWalRecordBody :=
  { body with
    pagePre := body.preWalPointer i
    fsmIndex := ⟨body.fsmIndex.page, body.fsmIndex.slot + UInt16.ofNat i⟩
    dataPageId := ⟨body.dataPageId.fileId,
      body.dataPageId.blockId + UInt32.ofNat (i * (dfBitmapBitCnt * body.extentSize))⟩ }

/-- The log was written by an execution, and the entries for the pages of a record of many pages
hold what the dispatcher has put there. -/
structure WrittenLog (env : RedoEnv Body Relmap) (log : List RedoWalRecordEntry) : Prop where
  versions : ∃ epoch, ((redoEntries log).foldlM env.epochStep epoch).isSome
  split : ∀ entry ∈ log, ∀ record, entry.walRecord = some record →
    record.type.isWalRecordWithMultiPagesInfo → ∀ i < record.pageCount,
      env.recordBody ⟨entry.recordEndPlsn, some (splitRecord record i)⟩ =
        splitBody (env.recordBody entry) i

/-- A record that is still to come: the version it carries is not behind. -/
def Ahead (env : RedoEnv Body Relmap) (epoch : UInt16 → FileEpoch)
    (entry : RedoWalRecordEntry) : Prop :=
  ∀ record fileId, entry.walRecord = some record → env.target entry record = .file fileId →
    (epoch fileId).version < env.recordVersion entry record ∨
      epoch fileId = ⟨env.recordVersion entry record, record.type ≠ .tbsCreateDataFile⟩

variable {env : RedoEnv Body Relmap} {epoch epoch' : UInt16 → FileEpoch}
  {entry entry' : RedoWalRecordEntry} {record record' : RedoWalRecord} {fileId : UInt16}
  {entries : List RedoWalRecordEntry}

/-- A record for a file needs the version that the file has at that point. -/
lemma epochStep_file (hrecord : entry.walRecord = some record)
    (htarget : env.target entry record = .file fileId)
    (h : env.epochStep epoch entry = some epoch') :
    epoch fileId = ⟨env.recordVersion entry record, record.type ≠ .tbsCreateDataFile⟩ ∧
      (isPageRecord record ∧ epoch' = epoch ∨
        ¬ isPageRecord record ∧ epoch' = update epoch fileId
          ⟨env.recordVersion entry record + 1, record.type = .tbsCreateDataFile⟩) := by
  simp only [epochStep, hrecord, htarget, ite_none_right_eq_some] at h
  obtain ⟨hepoch, h⟩ := h
  refine ⟨hepoch, ?_⟩
  split at h <;> cases h
  · rename_i htype
    exact Or.inr ⟨fun hpage => hpage.1 htype, by simp [htype]⟩
  · rename_i htype
    exact Or.inr ⟨fun hpage => hpage.2 htype, by simp [htype]⟩
  · rename_i hcreate hdrop
    exact Or.inl ⟨⟨hcreate, hdrop⟩, rfl⟩

/-- Other records leave the versions. -/
lemma epochStep_other (hrecord : entry.walRecord = some record)
    (htarget : ∀ fileId, env.target entry record ≠ .file fileId)
    (h : env.epochStep epoch entry = some epoch') : epoch' = epoch := by
  simp only [epochStep, hrecord] at h
  exact (some.inj h).symm

/-- A record that is ahead later is ahead now. -/
lemma Ahead.of_step (hstep : env.epochStep epoch entry = some epoch')
    (h : env.Ahead epoch' entry') : env.Ahead epoch entry' := by
  intro record' fileId' hrecord' htarget'
  have hahead := h record' fileId' hrecord' htarget'
  cases hrecord : entry.walRecord with
  | none =>
    simp only [epochStep, hrecord, some.injEq] at hstep
    rwa [hstep]
  | some record =>
    cases htarget : env.target entry record with
    | file fileId =>
      obtain ⟨hepoch, ⟨-, rfl⟩ | ⟨-, rfl⟩⟩ := epochStep_file hrecord htarget hstep
      · exact hahead
      · by_cases hfile : fileId' = fileId
        · subst hfile
          -- the version after the step is one more than before
          left
          rw [update_self] at hahead
          rw [hepoch]
          rcases hahead with hlt | heq
          · exact (Nat.lt_succ_self _).trans hlt
          · exact Nat.lt_of_succ_le (congrArg FileEpoch.version heq).le
        · rwa [update_of_ne hfile] at hahead
    | tablespace id =>
      rwa [epochStep_other hrecord (by simp [htarget]) hstep] at hahead
    | relmap => rwa [epochStep_other hrecord (by simp [htarget]) hstep] at hahead

/-- Every record of a written log is ahead of the start. -/
lemma ahead_of_mem (h : (entries.foldlM env.epochStep epoch).isSome) :
    ∀ entry ∈ entries, env.Ahead epoch entry := by
  induction entries generalizing epoch with
  | nil => exact fun entry hentry => absurd hentry not_mem_nil
  | cons first rest ih =>
    obtain ⟨last, hlast⟩ := isSome_iff_exists.1 h
    rw [foldlM_cons] at hlast
    obtain ⟨next, hstep, hrest⟩ := bind_eq_some_iff.1 hlast
    intro entry hentry
    rcases mem_cons.1 hentry with rfl | hmem
    · intro record fileId hrecord htarget
      exact Or.inr (epochStep_file hrecord htarget hstep).1
    · exact (ih (by rw [hrest]; rfl) entry hmem).of_step hstep

/-- A record and a later one for the same file. -/
lemma Ahead.earlier (hstep : env.epochStep epoch entry = some epoch')
    (h : env.Ahead epoch' entry') (hrecord : entry.walRecord = some record)
    (hrecord' : entry'.walRecord = some record') (htarget : env.target entry record = .file fileId)
    (htarget' : env.target entry' record' = .file fileId) :
    env.Earlier entry record entry' record' := by
  have hahead := h record' fileId hrecord' htarget'
  obtain ⟨hepoch, ⟨hpage, rfl⟩ | ⟨-, rfl⟩⟩ := epochStep_file hrecord htarget hstep
  · rw [hepoch] at hahead
    rcases hahead with hlt | heq
    · exact Or.inl hlt
    · rw [FileEpoch.mk.injEq, decide_eq_decide] at heq
      by_cases hpage' : isPageRecord record'
      · exact Or.inr (Or.inl ⟨hpage, hpage'⟩)
      · have hcreate' : record'.type ≠ .tbsCreateDataFile := heq.2.1 hpage.1
        have hdrop' : record'.type = .tbsDropDataFile := by
          by_contra hdrop
          exact hpage' ⟨hcreate', hdrop⟩
        exact Or.inr (Or.inr ⟨hpage, hdrop', heq.1.le⟩)
  · left
    rw [update_self] at hahead
    rcases hahead with hlt | heq
    · exact (Nat.lt_succ_self _).trans hlt
    · exact Nat.lt_of_succ_le (congrArg FileEpoch.version heq).le

/-- In the log of an execution records of different lanes commute. -/
theorem pairwise_diamond (hrecord : ∀ entry ∈ entries, entry.walRecord ≠ none)
    (h : (entries.foldlM env.epochStep epoch).isSome) :
    entries.Pairwise fun first entry =>
      first.lane ≠ entry.lane → LaneOrder.Diamond env.redoEntry first entry := by
  induction entries generalizing epoch with
  | nil => exact List.Pairwise.nil
  | cons first rest ih =>
    obtain ⟨last, hlast⟩ := isSome_iff_exists.1 h
    rw [foldlM_cons] at hlast
    obtain ⟨next, hstep, hrest⟩ := bind_eq_some_iff.1 hlast
    have hsome : (rest.foldlM env.epochStep next).isSome := by rw [hrest]; rfl
    refine pairwise_cons.2 ⟨fun entry hentry hlane => ?_,
      ih (fun other hother => hrecord other (mem_cons_of_mem _ hother)) hsome⟩
    obtain ⟨record, hfirst⟩ := ne_none_iff_exists'.1 (hrecord first mem_cons_self)
    obtain ⟨record', hentry'⟩ :=
      ne_none_iff_exists'.1 (hrecord entry (mem_cons_of_mem _ hentry))
    rw [lane_of_record hfirst, lane_of_record hentry'] at hlane
    exact diamond hfirst hentry' hlane fun fileId htarget htarget' =>
      (ahead_of_mem hsome entry hentry).earlier hstep hfirst hentry' htarget htarget'

/-! ## Serial redo -/

/-- The condition on a record in the state in which serial redo comes to it: the bytes of a barrier
read as a page record are of a file version that is passed, or on a standby reached; and no page
that a record of many pages initialises has to wait for a record of another stream. -/
structure SerialOk (env : RedoEnv Body Relmap) (standby : Bool) (data : RedoData Body Relmap)
    (entry : RedoWalRecordEntry) : Prop where
  barrier : ∀ record, entry.walRecord = some record → record.type = .barrierCsn →
    record.filePreVersion.toNat < (data.file record.pageId.fileId).item.reuseVersion ∨
      standby ∧ (data.file record.pageId.fileId).item.reuseVersion = record.filePreVersion.toNat
  init : ∀ record, entry.walRecord = some record → record.type.isWalRecordWithMultiPagesInfo →
    (data.file record.pageId.fileId).item.reuseVersion = record.filePreVersion.toNat →
    ∀ i < record.pageCount, ∀ file,
      env.redoInitPages entry record i (data.file record.pageId.fileId) = some file →
      env.gate entry.recordEndPlsn ((env.recordBody entry).preWalPointer i)
        (file.page (initPageId record i).blockId) ≠ .notReplayable

/-- `RedoSingle` of the records of a log, one after another, where each meets the condition; the
list has the pages that each record reads. -/
inductive SerialRun (env : RedoEnv Body Relmap) (standby : Bool) :
    RedoData Body Relmap → List RedoWalRecordEntry → List (RedoWalRecordEntry × List PageId) →
    RedoData Body Relmap → Prop
  | nil (data : RedoData Body Relmap) : SerialRun env standby data [] [] data
  | cons {data data₁ data₂ : RedoData Body Relmap} {entry : RedoWalRecordEntry}
      {rest : List RedoWalRecordEntry} {pages : List PageId}
      {reads : List (RedoWalRecordEntry × List PageId)} (hok : env.SerialOk standby data entry)
      (hredo : env.redoSingle standby data entry = some (data₁, pages))
      (hrest : SerialRun env standby data₁ rest reads data₂) :
      SerialRun env standby data (entry :: rest) ((entry, pages) :: reads) data₂

variable {data data₁ : RedoData Body Relmap} {standby : Bool} {pages : List PageId}
  {file file1 : RedoFile Body}

/-- Each part of a record for several pages is for the same file. -/
lemma target_splitRecord (i : ℕ) :
    env.target entry (splitRecord record i) = .file record.pageId.fileId := by
  unfold target splitRecord splitTypeAndSize
  split_ifs <;> rfl

lemma isPageRecord_splitRecord (i : ℕ) : isPageRecord (splitRecord record i) := by
  unfold isPageRecord splitRecord splitTypeAndSize
  split_ifs <;> exact ⟨nofun, nofun⟩

/-- The redo of the entry for one page is the turn of the loop, if the page does not have to wait.
-/
lemma redoFile_splitRecord {i : ℕ}
    (hbody : env.recordBody (entry.split record i) = splitBody (env.recordBody entry) i)
    (hversion : file.item.reuseVersion = record.filePreVersion.toNat)
    (hgate : env.gate entry.recordEndPlsn ((env.recordBody entry).preWalPointer i)
      (file.page (initPageId record i).blockId) ≠ .notReplayable)
    (h : env.redoInitPage entry record file i = some file1) :
    env.redoFile (entry.split record i) (splitRecord record i) file = some (file1, false) := by
  simp only [redoInitPage, ite_none_right_eq_some] at h
  obtain ⟨hreadable, h⟩ := h
  have hblock : (splitRecord record i).pageId.blockId = (initPageId record i).blockId := rfl
  have hdue : env.pageDue (entry.split record i)
      (splitRecord record i) file = some (decide (env.gate entry.recordEndPlsn
        ((env.recordBody entry).preWalPointer i) (file.page (initPageId record i).blockId) =
          .replayable)) := by
    have hcheck : walRecordCheckVersion file.item.reuseVersion
        (splitRecord record i).filePreVersion.toNat = .replayable := by
      rw [hversion]
      exact walRecordCheckVersion_self _
    simp only [pageDue, hcheck, hblock, hreadable, if_true, hbody, splitBody]
    cases hcase : env.gate entry.recordEndPlsn ((env.recordBody entry).preWalPointer i)
      (file.page (initPageId record i).blockId) with
    | notReplayable => exact absurd hcase hgate
    | replayable => rfl
    | noNeedToReplay => rfl
  rw [redoFile_page (isPageRecord_splitRecord i), redoPage, hdue]
  simp only [map_some, decide_eq_true_eq]
  split_ifs at h ⊢ with hreplay <;> cases h
  · -- what the entry writes is what the turn of the loop writes
    have hextend : env.extendFile (entry.split record i)
        (splitRecord record i) file.blocks = file.blocks := by
      unfold extendFile splitRecord splitTypeAndSize
      split_ifs <;> first | rfl | simp_all
    have hwrite : env.redoWalRecordByType (entry.split record i)
        (splitRecord record i) (file.page (initPageId record i).blockId) =
          env.initPage entry record i (file.page (initPageId record i).blockId) := by
      simp only [redoWalRecordByType, hbody, splitBody, initPage]
      by_cases hdata : record.type = .tbsInitMultipleDataPages
      · simp [splitRecord, splitTypeAndSize, hdata, initPageId]
      · simp [splitRecord, splitTypeAndSize, hdata, initPageId]
    simp only [writePage, hextend, hblock, hwrite]
  · rfl

/-- Initialising a page leaves the file's entry. -/
lemma redoInitPage_item {i : ℕ} (h : env.redoInitPage entry record file i = some file1) :
    file1.item = file.item := by
  simp only [redoInitPage, ite_none_right_eq_some] at h
  obtain ⟨-, h⟩ := h
  split_ifs at h <;> cases h <;> rfl

/-- The entries for the first pages of a record of many pages do what the loop does. -/
lemma foldlM_splitRecord (count : ℕ)
    (hbody : ∀ i < count,
      env.recordBody (entry.split record i) = splitBody (env.recordBody entry) i)
    (hversion : (data.file record.pageId.fileId).item.reuseVersion =
      record.filePreVersion.toNat)
    (hgate : ∀ i < count, ∀ file,
      env.redoInitPages entry record i (data.file record.pageId.fileId) = some file →
      env.gate entry.recordEndPlsn ((env.recordBody entry).preWalPointer i)
        (file.page (initPageId record i).blockId) ≠ .notReplayable)
    (h : env.redoInitPages entry record count (data.file record.pageId.fileId) = some file1) :
    ((range count).map (entry.split record)).foldlM env.redoEntry data =
        some { data with file := update data.file record.pageId.fileId file1 } ∧
    file1.item = (data.file record.pageId.fileId).item := by
  induction count generalizing file1 with
  | zero =>
    cases h
    rw [update_eq_self]
    exact ⟨rfl, rfl⟩
  | succ count ih =>
    rw [redoInitPages, range_succ, foldlM_append] at h
    obtain ⟨file, hfile, h⟩ := bind_eq_some_iff.1 h
    rw [foldlM_cons] at h
    obtain ⟨file2, hturn, h⟩ := bind_eq_some_iff.1 h
    cases h
    obtain ⟨hrun, hitem⟩ := ih (fun i hi => hbody i (Nat.lt_succ_of_lt hi))
      (fun i hi => hgate i (Nat.lt_succ_of_lt hi)) hfile
    refine ⟨?_, (redoInitPage_item hturn).trans hitem⟩
    rw [range_succ, map_append, foldlM_append, hrun]
    have hredo := redoFile_splitRecord (hbody count (Nat.lt_succ_self _))
      ((congrArg ControlDataFileItem.reuseVersion hitem).trans hversion)
      (hgate count (Nat.lt_succ_self _) file hfile) hturn
    have hentry : env.redoEntry
        { data with file := update data.file record.pageId.fileId file }
        (entry.split record count) = _ :=
      redoEntry_file rfl (target_splitRecord count) (update_self ..) hredo
    rw [bind_eq_bind, bind_some, map_cons, map_nil, foldlM_cons, hentry]
    simp only [update_idem, bind_eq_bind, bind_some]
    rfl

/-- Serial redo of a record of many pages is redo of the entries for its pages. -/
lemma redoSingleForPages_split (hrecord : entry.walRecord = some record)
    (hmulti : record.type.isWalRecordWithMultiPagesInfo) (hok : env.SerialOk standby data entry)
    (hbody : ∀ i < record.pageCount,
      env.recordBody (entry.split record i) = splitBody (env.recordBody entry) i)
    (h : env.redoSingleForPages entry record data = some (data₁, pages)) :
    ((range record.pageCount).map (entry.split record)).foldlM env.redoEntry data = some data₁ := by
  simp only [redoSingleForPages] at h
  split at h
  · -- a file version that is passed: no entry does anything
    rename_i hcheck
    cases h
    have hstale : ∀ i, env.redoEntry data (entry.split record i) = some data := by
      intro i
      have hfile : env.redoFile (entry.split record i) _ _ = _ := redoFile_stale (by
        rw [recordVersion_page (isPageRecord_splitRecord i)]
        exact walRecordCheckVersion_spec.1.1 hcheck)
      rw [redoEntry_file rfl (target_splitRecord i) rfl hfile, update_eq_self]
      rfl
    generalize range record.pageCount = indices
    induction indices with
    | nil => rfl
    | cons i rest ih =>
      rw [map_cons, foldlM_cons, hstale i]
      exact ih
  · cases h
  · rename_i hcheck
    rw [ite_none_right_eq_some] at h
    obtain ⟨file, hfile, heq⟩ := map_eq_some_iff.1 h.2
    cases heq
    have hversion := walRecordCheckVersion_spec.2.1.1 hcheck
    exact (foldlM_splitRecord record.pageCount hbody hversion
      (hok.init record hrecord hmulti hversion) hfile).1

/-- A barrier changes no data. -/
lemma redoSingleForBarrier_data
    (h : env.redoSingleForBarrier standby entry record data = some (data₁, pages)) :
    data₁ = data := by
  simp only [redoSingleForBarrier] at h
  split at h
  · cases h; rfl
  · cases h
  · split at h
    · cases h; rfl
    · rw [ite_none_right_eq_some] at h
      replace h := h.2
      split at h
      · cases h; rfl
      · cases h
      · rw [ite_none_left_eq_some] at h
        cases h.2
        rfl

/-- Serial redo of a record is redo of the entries that are made of it. -/
lemma redoSingle_redoEntries (hok : env.SerialOk standby data entry)
    (hbody : ∀ record, entry.walRecord = some record →
      record.type.isWalRecordWithMultiPagesInfo → ∀ i < record.pageCount,
        env.recordBody (entry.split record i) = splitBody (env.recordBody entry) i)
    (h : env.redoSingle standby data entry = some (data₁, pages)) :
    entry.redoEntries.foldlM env.redoEntry data = some data₁ := by
  unfold redoSingle at h
  unfold RedoWalRecordEntry.redoEntries
  cases hrecord : entry.walRecord with
  | none =>
    rw [hrecord] at h
    cases h
    rfl
  | some record =>
    rw [hrecord] at h
    dsimp only at h ⊢
    have hone : ∀ {read : List PageId}, (env.redoEntry data entry).map (·, read) =
        some (data₁, pages) → [entry].foldlM env.redoEntry data = some data₁ := by
      intro read hmap
      obtain ⟨data2, hredo, heq⟩ := map_eq_some_iff.1 hmap
      cases heq
      rw [foldlM_cons, hredo]
      rfl
    split_ifs at h with hredoable hmulti hddl hbarrier
    · cases h
      rw [if_pos (Or.inr hredoable)]
      rfl
    · have hbarrier : record.type ≠ .barrierCsn := by
        intro heq
        rw [heq] at hmulti
        cases hmulti
      rw [if_neg (not_or.2 ⟨hbarrier, hredoable⟩), if_pos hmulti]
      exact redoSingleForPages_split hrecord hmulti hok (hbody record hrecord hmulti) h
    · have hbarrier : record.type ≠ .barrierCsn := by
        intro heq
        rw [heq] at hddl
        cases hddl
      rw [if_neg (not_or.2 ⟨hbarrier, hredoable⟩), if_neg hmulti]
      exact hone h
    · rw [if_pos (Or.inl hbarrier), redoSingleForBarrier_data h]
      rfl
    · rw [if_neg (not_or.2 ⟨hbarrier, hredoable⟩), if_neg hmulti]
      exact hone h

/-- A serial run redoes the entries one after another. -/
lemma SerialRun.redoEntries {log : List RedoWalRecordEntry}
    {reads : List (RedoWalRecordEntry × List PageId)}
    (hbody : ∀ entry ∈ log, ∀ record, entry.walRecord = some record →
      record.type.isWalRecordWithMultiPagesInfo → ∀ i < record.pageCount,
        env.recordBody (entry.split record i) = splitBody (env.recordBody entry) i)
    (h : env.SerialRun standby data log reads data₁) :
    (DStore.redoEntries log).foldlM env.redoEntry data = some data₁ := by
  induction h with
  | nil data => rfl
  | cons hok hredo _ ih =>
    rw [DStore.redoEntries, flatMap_cons, foldlM_append,
      redoSingle_redoEntries hok (hbody _ mem_cons_self) hredo]
    exact ih fun entry hentry => hbody entry (mem_cons_of_mem _ hentry)

/-- A record of which no page worker gets anything. -/
def WithoutPage (entry : RedoWalRecordEntry) : Prop :=
  ∀ other ∈ entry.redoEntries, ∀ pageId, other.lane ≠ .page pageId

/-- Serial redo does not read a page for a record of which no page worker gets anything. -/
lemma redoSingle_pages (hok : env.SerialOk standby data entry) (hpage : WithoutPage entry)
    (h : env.redoSingle standby data entry = some (data₁, pages)) : pages = [] := by
  unfold redoSingle at h
  cases hrecord : entry.walRecord with
  | none =>
    rw [hrecord] at h
    cases h
    rfl
  | some record =>
    rw [hrecord] at h
    dsimp only at h
    split_ifs at h with hredoable hmulti hddl hbarrier
    · cases h
      rfl
    · -- without pages the loop makes no turn
      have hentries : entry.redoEntries = (range record.pageCount).map (entry.split record) := by
        unfold RedoWalRecordEntry.redoEntries
        rw [hrecord]
        dsimp only
        have hbarrier : record.type ≠ .barrierCsn := by
          intro heq
          rw [heq] at hmulti
          cases hmulti
        rw [if_neg (not_or.2 ⟨hbarrier, hredoable⟩), if_pos hmulti]
      have hcount : record.pageCount = 0 := by
        by_contra hpos
        have htarget : env.target entry (splitRecord record 0) = .file record.pageId.fileId :=
          target_splitRecord 0
        refine hpage (entry.split record 0) ?_ _
          (lane_of_page htarget (isPageRecord_splitRecord 0)).1
        rw [hentries]
        exact mem_map.2 ⟨0, mem_range.2 (Nat.pos_of_ne_zero hpos), rfl⟩
      simp only [redoSingleForPages, hcount] at h
      split at h
      · cases h; rfl
      · cases h
      · rw [ite_none_right_eq_some] at h
        obtain ⟨file, -, heq⟩ := map_eq_some_iff.1 h.2
        cases heq
        rfl
    · obtain ⟨_, -, heq⟩ := map_eq_some_iff.1 h
      cases heq
      rfl
    -- a barrier is stale, or it is redone on a standby, where it reads no page
    · rcases hok.barrier record hrecord hbarrier with hlt | ⟨hstandby, hversion⟩
      · simp only [redoSingleForBarrier, walRecordCheckVersion_spec.1.2 hlt] at h
        cases h
        rfl
      · simp only [redoSingleForBarrier, hversion, walRecordCheckVersion_self, hstandby,
          if_true] at h
        cases h
        rfl
    · refine absurd ?_ (hpage entry ?_ record.pageId)
      · rw [lane_of_record hrecord, RedoWalRecord.lane, if_neg, if_neg hddl]
        rintro heq
        rw [heq] at hddl
        exact hddl rfl
      · simp [RedoWalRecordEntry.redoEntries, hrecord, hbarrier, hredoable, hmulti]

/-- A record without page reads none. -/
lemma SerialRun.withoutPage {log : List RedoWalRecordEntry}
    {reads : List (RedoWalRecordEntry × List PageId)}
    (h : env.SerialRun standby data log reads data₁) :
    ∀ read ∈ reads, WithoutPage read.1 → read.2 = [] := by
  induction h with
  | nil data => exact nofun
  | cons hok hredo _ ih =>
    intro read hread hpage
    rcases mem_cons.1 hread with rfl | hread
    · exact redoSingle_pages hok hpage hredo
    · exact ih read hread hpage

end RedoEnv

end DStore
