import DStore.Heap.OpFrame
import DStore.Page.AllocTdRedo
import DStore.Page.UndoChain

/-!
# Tuple locks and the allocation of TDs

A tuple lock is held through a TD: the tuple names the TD, the TD names the locker.
`DoAllocTd` recycles TDs and clears both entries. It leaves alone a TD that a running
transaction owns or holds as locker, so no lock of a running transaction is lost.
-/

namespace DStore

open List TD TxnEnv

section Status

variable (env : TxnEnv) (xid : Xid)

/-- The transaction is running. -/
def TxnEnv.InProgress : Prop := (env.queryXidStatus xid).status = .inProgress

/-- The transaction is running or about to commit. -/
def TxnEnv.Open : Prop := env.InProgress xid ∨ (env.queryXidStatus xid).status = .pendingCommit

instance TxnEnv.decidableInProgress : Decidable (env.InProgress xid) :=
  inferInstanceAs (Decidable (_ = _))

instance TxnEnv.decidableOpen : Decidable (env.Open xid) := inferInstanceAs (Decidable (_ ∨ _))

instance TxnEnv.decidableEnded : Decidable (env.Ended xid) := inferInstanceAs (Decidable (_ ∨ _))

variable {env xid}

lemma TxnEnv.InProgress.ne_invalid (h : env.InProgress xid) : xid ≠ invalidXid :=
  ne_invalidXid_of_status h (by decide)

/-- A transaction that has ended is not running. -/
lemma TxnEnv.Ended.not_inProgress (h : env.Ended xid) : ¬ env.InProgress xid := by
  intro hrun
  rw [InProgress] at hrun
  rw [Ended, hrun] at h
  exact absurd h (by decide)

end Status

/-- What page code keeps of a TD: its owner has ended, or it has no commit hint and its owner, if
any, is open; an unoccupied TD has neither owner nor locker; a running owner and a running locker
share the TD with each other only if they are the same. -/
structure TD.LockSound (env : TxnEnv) (td : TD) : Prop where
  owner : env.Ended td.xid ∨
    ((td.xid = invalidXid ∨ env.Open td.xid) ∧ td.csnStatus ≠ .isCurXidCsn)
  free : td.status = .unoccupyAndPruneable → td.xid = invalidXid ∧ td.lockerXid = invalidXid
  own : env.InProgress td.xid → td.lockerXid = invalidXid ∨ td.lockerXid = td.xid
  lock : env.InProgress td.lockerXid →
    td.xid = td.lockerXid ∨ td.xid = invalidXid ∨ env.Ended td.xid

/-- `td'` is `td` after an allocation by some transaction. -/
structure TD.AllocKept (env : TxnEnv) (td td' : TD) : Prop where
  sound : td'.LockSound env
  locker : env.InProgress td.lockerXid → td'.lockerXid = td.lockerXid
  lockerBack : env.InProgress td'.lockerXid → td'.lockerXid = td.lockerXid
  owner : env.InProgress td.xid ∨ env.InProgress td'.xid → td' = td

/-- The TD may be used by `xid`: no other transaction is its locker or its running owner. -/
structure TD.Granted (env : TxnEnv) (xid : Xid) (td : TD) : Prop where
  locker : td.lockerXid = invalidXid ∨ td.lockerXid = xid
  owner : td.xid = xid ∨ td.xid = invalidXid ∨ env.Ended td.xid

section Td

variable {env : TxnEnv} {ctx : TDAllocContext} {td : TD}

lemma TD.LockSound.reset (env : TxnEnv) : reset.LockSound env :=
  ⟨Or.inr ⟨Or.inl rfl, by decide⟩, fun _ => ⟨rfl, rfl⟩, fun h => absurd rfl h.ne_invalid,
    fun h => absurd rfl h.ne_invalid⟩

lemma TD.AllocKept.refl (h : td.LockSound env) : td.AllocKept env td :=
  ⟨h, fun _ => rfl, fun _ => rfl, fun _ => rfl⟩

lemma TD.Granted.reset (env : TxnEnv) (xid : Xid) : reset.Granted env xid :=
  ⟨Or.inl rfl, Or.inr (Or.inl rfl)⟩

/-- A running transaction may use a TD it owns or locks through. -/
lemma TD.LockSound.granted {xid : Xid} (h : td.LockSound env) (hrun : env.InProgress xid)
    (hown : td.xid = xid ∨ td.lockerXid = xid) : td.Granted env xid := by
  rcases hown with rfl | rfl
  · exact ⟨h.own hrun, Or.inl rfl⟩
  · exact ⟨Or.inr rfl, h.lock hrun⟩

/-- The status of the owner, as read through the TD, is that of the environment unless both say that
it ended. -/
lemma TD.LockSound.xidStatus (h : td.LockSound env) (hvalid : td.xid ≠ invalidXid) :
    (td.xidStatus env).status = (env.queryXidStatus td.xid).status ∨
      ((td.xidStatus env).status = .committed ∧ env.Ended td.xid) := by
  have hocc : td.status ≠ .unoccupyAndPruneable := fun hs => hvalid (h.free hs).1
  by_cases hcur : td.csnStatus = .isCurXidCsn
  · right
    rw [TD.xidStatus, if_pos hcur]
    exact ⟨rfl, h.owner.resolve_right fun ho => ho.2 hcur⟩
  · left
    rw [TD.xidStatus, if_neg hcur, if_neg hocc]

/-- No owner is found aborted while the rollback of its TD is due. -/
lemma TD.LockSound.not_aborted (h : td.LockSound env) : abortedTd env ctx td = false := by
  rw [Bool.eq_false_iff]
  intro habort
  obtain ⟨hvalid, _, hst⟩ := abortedTd_eq_true.mp habort
  rcases h.xidStatus hvalid with heq | ⟨heq, _⟩
  · rw [hst] at heq
    rcases h.owner with he | ⟨hnone | ho, _⟩
    · rw [Ended, ← heq] at he
      exact absurd he (by decide)
    · exact hvalid hnone
    · rw [Open, InProgress, ← heq] at ho
      exact absurd ho (by decide)
  · rw [hst] at heq
    exact absurd heq (by decide)

/-- What the scan does to a TD; a recycled TD loses its locker, which is not running. -/
structure ScanKept (env : TxnEnv) (td : TD) (scan : TdScan) : Prop where
  kept : td.AllocKept env scan.td
  ignored : scan.recycle = none → scan.td.lockerXid = td.lockerXid
  recycled : scan.recycle ≠ none → ¬ env.InProgress td.lockerXid ∧
    scan.td.lockerXid = invalidXid ∧ (td.xid = invalidXid ∨ env.Ended td.xid) ∧
    scan.td.xid = td.xid

/-- A TD that the scan passes over is kept. -/
lemma ScanKept.of_ignored (h : td.LockSound env)
    {st : TrxSlotStatus} {c : Bool} {wait : Option Xid} :
    ScanKept env td ⟨td, st, none, c, wait⟩ :=
  ⟨AllocKept.refl h, fun _ => rfl, fun hne => absurd rfl hne⟩

lemma TD.LockSound.of_ended (hended : env.Ended td.xid) (hocc : td.status ≠ .unoccupyAndPruneable) :
    td.LockSound env :=
  ⟨Or.inl hended, fun hs => absurd hs hocc, fun hrun => absurd hrun hended.not_inProgress,
    fun _ => Or.inr (Or.inr hended)⟩

/-- Recycling the TD of an ended owner keeps running lockers. -/
lemma reuseEndedTd_kept (h : td.LockSound env) (hvalid : td.xid ≠ invalidXid)
    (hended : env.Ended td.xid) (xs : XidState) : ScanKept env td (reuseEndedTd env ctx td xs) := by
  obtain ⟨hx, _, hl, hs, _⟩ := fillCsnWith_owner td xs
  unfold reuseEndedTd
  generalize td.fillCsnWith xs = filled at hx hl hs
  have hocc : filled.status ≠ .unoccupyAndPruneable := by
    rcases hs with hs | hs <;> rw [hs]
    · exact fun hfree => hvalid (h.free hfree).1
    · decide
  have hkept : ∀ td' : TD, td'.xid = td.xid → td'.status ≠ .unoccupyAndPruneable →
      (env.InProgress td.lockerXid → td'.lockerXid = td.lockerXid) →
      (env.InProgress td'.lockerXid → td'.lockerXid = td.lockerXid) → td.AllocKept env td' := by
    intro td' hx' hocc' h1 h2
    refine ⟨LockSound.of_ended (by rw [hx']; exact hended) hocc', h1, h2, ?_⟩
    rw [hx', or_self]
    exact fun hrun => absurd hrun hended.not_inProgress
  dsimp only
  split
  next => exact ⟨hkept _ hx hocc (fun _ => hl) fun _ => hl, fun _ => hl, fun hne => absurd rfl hne⟩
  next hfree =>
    rw [hl, hx] at hfree
    -- the locker is none, or the owner itself
    have hnot : ¬ env.InProgress td.lockerXid := by
      intro hrun
      refine hfree ⟨hrun.ne_invalid, fun heq => ?_, hrun⟩
      rw [heq] at hrun
      exact hended.not_inProgress hrun
    by_cases hlocker : filled.lockerXid ≠ invalidXid
    · rw [if_pos hlocker]
      have hscan : td.AllocKept env
          { filled with lockerXid := invalidXid, status := .occupyTrxEnd } :=
        hkept _ hx (show TDStatus.occupyTrxEnd ≠ .unoccupyAndPruneable by decide)
          (fun hrun => absurd hrun hnot) fun hrun => absurd rfl hrun.ne_invalid
      split
      all_goals exact ⟨hscan, by simp, fun _ => ⟨hnot, rfl, Or.inr hended, hx⟩⟩
    · rw [if_neg hlocker]
      have hscan : td.AllocKept env filled := hkept _ hx hocc (fun _ => hl) fun _ => hl
      split
      all_goals exact ⟨hscan, by simp, fun _ => ⟨hnot, not_not.mp hlocker, Or.inr hended, hx⟩⟩

/-- Releasing the locker of a TD without xid keeps running lockers. -/
lemma reuseLockerTd_kept (h : td.LockSound env) (hx : td.xid = invalidXid) :
    ScanKept env td (reuseLockerTd env ctx td) := by
  have hidle : ∀ xid, xid = invalidXid → ¬ env.InProgress xid := fun xid heq hrun =>
    hrun.ne_invalid heq
  unfold reuseLockerTd
  split
  next hlocker =>
    split
    · exact ScanKept.of_ignored h
    split
    · exact ScanKept.of_ignored h
    next hrun =>
      have hcsn : td.csnStatus ≠ .isCurXidCsn :=
        (h.owner.resolve_left fun he => he.ne_invalidXid hx).2
      refine ⟨⟨⟨Or.inr ⟨Or.inl hx, hcsn⟩, fun _ => ⟨hx, rfl⟩, fun ho => absurd ho (hidle _ hx),
        fun hl => absurd hl (hidle _ rfl)⟩, fun hl => absurd hl hrun,
        fun hl => absurd hl (hidle _ rfl), ?_⟩, by simp, ?_⟩
      · rintro (hl | hl) <;> exact absurd hl (hidle _ hx)
      · exact fun _ => ⟨hrun, rfl, Or.inl hx, rfl⟩
  next hlocker =>
    have hnone : td.lockerXid = invalidXid := not_not.mp hlocker
    exact ⟨AllocKept.refl h, fun _ => rfl, fun _ => ⟨hidle _ hnone, hnone, Or.inl hx, rfl⟩⟩

variable (ctx) in
/-- The scan of a TD keeps running lockers. -/
lemma scanTd_kept (h : td.LockSound env) : ScanKept env td (scanTd env ctx td) := by
  unfold scanTd
  split
  next hvalid =>
    split
    · exact ScanKept.of_ignored h
    · have hended : (td.xidStatus env).status = .frozen ∨ (td.xidStatus env).status = .committed →
          env.Ended td.xid := by
        intro hst
        rcases h.xidStatus hvalid with heq | ⟨_, he⟩
        · rw [Ended, ← heq]
          exact hst.symm
        · exact he
      cases hst : (td.xidStatus env).status with
      | frozen => simpa only [hst] using reuseEndedTd_kept h hvalid (hended (Or.inl hst)) _
      | committed => simpa only [hst] using reuseEndedTd_kept h hvalid (hended (Or.inr hst)) _
      | _ =>
        simp only [hst]
        exact ScanKept.of_ignored h
  next hx => exact reuseLockerTd_kept h (not_not.mp hx)

/-- `GetAvailableTd` on a scanned TD. -/
lemma ScanKept.availTd {scan : TdScan} (h : ScanKept env td scan) (c : Bool) (xid : Xid) :
    td.AllocKept env (availTd c scan.recycle scan.td) ∧
      (scan.recycle ≠ none → (availTd c scan.recycle scan.td).Granted env xid) := by
  cases hrec : scan.recycle with
  | none => exact ⟨h.kept, fun hne => absurd rfl hne⟩
  | some unused =>
    obtain ⟨hnot, hnone, howner, hxid⟩ := h.recycled (by rw [hrec]; simp)
    have hidle : ¬ env.InProgress td.xid := by
      rcases howner with hx | he
      · exact fun hrun => hrun.ne_invalid hx
      · exact he.not_inProgress
    rw [DStore.availTd]
    split
    · refine ⟨⟨LockSound.reset env, fun hl => absurd hl hnot, fun hl => absurd rfl hl.ne_invalid,
        ?_⟩, fun _ => Granted.reset env xid⟩
      rintro (hl | hl)
      · exact absurd hl hidle
      · exact absurd rfl hl.ne_invalid
    have hgranted : ∀ td' : TD, td'.xid = scan.td.xid → td'.lockerXid = scan.td.lockerXid →
        td'.Granted env xid := by
      intro td' hx' hl'
      refine ⟨Or.inl (hl'.trans hnone), Or.inr ?_⟩
      rw [hx', hxid]
      exact howner
    split
    · refine ⟨⟨⟨h.kept.sound.owner,
        fun hs => absurd hs (show TDStatus.occupyTrxEnd ≠ .unoccupyAndPruneable by decide),
        h.kept.sound.own, fun hl => ?_⟩, h.kept.locker, h.kept.lockerBack, ?_⟩,
          fun _ => hgranted _ rfl rfl⟩
      · exact absurd hnone hl.ne_invalid
      · show env.InProgress td.xid ∨ env.InProgress scan.td.xid → _
        rw [hxid, or_self]
        exact fun hrun => absurd hrun hidle
    · exact ⟨h.kept, fun _ => hgranted _ rfl rfl⟩

end Td

namespace DataPage

/-- The transaction named by the lock of the tuple at `offset`, `INVALID_XID` for none. -/
def tupleLocker (page : DataPage) (offset : ℕ) : Xid :=
  (page.getTd (page.tupleHeader offset).lockerTdId).lockerXid

/-- What an allocation by `xid` that found `tdId` leaves of TDs and tuple locks. -/
structure AllocLockKept (env : TxnEnv) (xid : Xid) (page page' : DataPage) (tdId : ℕ) : Prop where
  wf : page'.HeapWellFormed
  td : ∀ i, (page.getTd i).AllocKept env (page'.getTd i)
  getMaxOffset_eq : page'.getMaxOffset = page.getMaxOffset
  normal : ∀ offset, page.ValidOffset offset →
    (page'.getItemId offset).isNormal = (page.getItemId offset).isNormal
  locker : ∀ offset, page.ValidOffset offset → (page.getItemId offset).isNormal = true →
    ((page'.tupleHeader offset).lockerTdId = (page.tupleHeader offset).lockerTdId ∧
        page'.tupleLocker offset = page.tupleLocker offset) ∨
      ((page'.tupleHeader offset).lockerTdId = invalidTdSlot ∧
        ¬ env.InProgress (page.tupleLocker offset))
  granted : tdId ≠ invalidTdSlot → tdId < page'.tdCount ∧ (page'.getTd tdId).Granted env xid

section Alloc

variable {env : TxnEnv} {ctx ctx' : TDAllocContext} {page page' : DataPage} {xid : Xid}
  {fuel tdId : ℕ}

lemma getTd_of_lt {i : ℕ} (hlt : i < page.tds.length) : page.getTd i = page.tds[i] :=
  getD_eq_getElem _ _ hlt

lemma getTd_of_ge {i : ℕ} (hge : page.tds.length ≤ i) : page.getTd i = reset :=
  getD_eq_default _ _ hge

/-- TD ids are below `INVALID_TD_SLOT`. -/
lemma Layout.tdCount_lt (h : page.Layout) : page.tds.length < invalidTdSlot := by
  have h1 := h.lower_le_upper
  have h2 := h.upper_le_special
  have h3 := h.special_le
  rw [lower] at h1
  unfold blckSz at h3
  unfold sizeofTd at h1
  unfold invalidTdSlot
  omega

/-- A page with other TDs that still fit is well formed. -/
lemma HeapWellFormed.of_tds (hwf : page.HeapWellFormed) (htype : page'.type = page.type)
    (hspecial : page'.special = page.special) (hupper : page'.upper = page.upper)
    (hitems : page'.items = page.items) (hmem : page'.mem = page.mem)
    (hlower : page'.lower ≤ page'.upper) : page'.HeapWellFormed := by
  have hitem : ∀ offset, page'.getItemId offset = page.getItemId offset := fun offset => by
    rw [getItemId, getItemId, hitems]
  have hvalid : ∀ offset, page'.ValidOffset offset → page.ValidOffset offset := fun offset hv => by
    rwa [ValidOffset, getMaxOffset, hitems] at hv
  have hframe : TupleFrame page page' (fun _ => False) := TupleFrame.of_eq hitems hmem
  refine hwf.of_frame htype ?_ hframe (fun offset hv => Or.inl (hvalid offset hv))
    fun _ _ hfalse => hfalse.elim
  exact hwf.layout.of_subset hlower hupper.le hspecial htype fun offset hv _ =>
    ⟨hvalid offset hv, hitem offset⟩

/-- A page on which nothing happens keeps its locks. -/
lemma AllocLockKept.refl (hwf : page.HeapWellFormed) (hsound : ∀ i, (page.getTd i).LockSound env)
    (hgranted : tdId ≠ invalidTdSlot → tdId < page.tdCount ∧ (page.getTd tdId).Granted env xid) :
    AllocLockKept env xid page page tdId :=
  ⟨hwf, fun i => AllocKept.refl (hsound i), rfl, fun _ _ => rfl,
    fun _ _ _ => Or.inl ⟨rfl, rfl⟩, hgranted⟩

/-- A TD that already belongs to the transaction is granted to it. -/
lemma findTd_granted (hsound : ∀ i, (page.getTd i).LockSound env) (hrun : env.InProgress xid)
    (hfind : page.findTd xid = some tdId) :
    tdId < page.tdCount ∧ (page.getTd tdId).Granted env xid := by
  have hfound : ∀ p : TD → Bool, page.tds.findIdx? p = some tdId →
      tdId < page.tdCount ∧ p (page.getTd tdId) := by
    intro p hp
    obtain ⟨hlt, hval, _⟩ := findIdx?_eq_some_iff_getElem.mp hp
    exact ⟨hlt, by rw [getTd_of_lt hlt]; exact hval⟩
  rw [findTd] at hfind
  split at hfind
  next i hown =>
    obtain rfl := Option.some.inj hfind
    obtain ⟨hlt, hval⟩ := hfound _ hown
    rw [decide_eq_true_eq] at hval
    refine ⟨hlt, ?_⟩
    exact (hsound i).granted hrun hval.2
  next =>
    obtain ⟨hlt, hval⟩ := hfound _ hfind
    rw [decide_eq_true_eq] at hval
    exact ⟨hlt, Or.inl ((hsound tdId).free hval).2, Or.inr (Or.inl ((hsound tdId).free hval).1)⟩

lemma doTds_eq_map (env : TxnEnv) (ctx : TDAllocContext) (tds : List TD) :
    doTds env ctx tds = tds.map fun td =>
      availTd (canReset env ctx tds) (scanTd env ctx td).recycle (scanTd env ctx td).td := by
  rw [doTds, recycles, zipWith_map, zipWith_self]

/-- `TryReuseTdSlots` keeps the locks of running transactions. -/
lemma tryReuseTdSlots_kept (xid : Xid) (hwf : page.HeapWellFormed)
    (hsound : ∀ i, (page.getTd i).LockSound env)
    (h : page.tryReuseTdSlots env ctx fuel = some (page', ctx', tdId)) :
    AllocLockKept env xid page page' tdId ∧ page'.tdCount = page.tdCount := by
  have hmem : ∀ td ∈ page.tds, td.LockSound env := by
    intro td htd
    obtain ⟨i, hi, rfl⟩ := mem_iff_getElem.mp htd
    rw [← getTd_of_lt hi]
    exact hsound i
  obtain ⟨settled, hsettle, hpage, htdId, _⟩ := tryReuseTdSlots_spec h
  obtain rfl := settled_eq (settleTds_forall₂ hsettle) fun td htd => (hmem td htd).not_aborted
  rw [refreshed] at hpage
  have hscan : ∀ i, ScanKept env (page.getTd i) (scanTd env ctx (page.getTd i)) := fun i =>
    scanTd_kept ctx (hsound i)
  set slots := recycleList 0 (recycles env ctx page.tds) with hslots
  have hcount : page.tds.length < invalidTdSlot := hwf.layout.tdCount_lt
  have hvalid : ∀ slot ∈ slots, slot.id ≠ invalidTdSlot :=
    recycleList_ne_invalid (by rw [recycles, length_map]; omega)
  have hrefreshed := refreshTupleTdStatus_refreshed hwf
    (recycleList_nodup 0 (recycles env ctx page.tds)) hvalid
  rw [← hslots] at hrefreshed
  have hlen : page'.tds.length = page.tds.length := by
    rw [hpage, withTds_tds, doTds_eq_map, length_map]
  -- the entry of a TD in the recycle list is what the scan said about it
  have htd : ∀ i, (page.getTd i).AllocKept env (page'.getTd i) ∧
      if (slotOf slots i).isSome then ¬ env.InProgress (page.getTd i).lockerXid ∧
        i < page.tds.length ∧ (page'.getTd i).Granted env xid
      else (page'.getTd i).lockerXid = (page.getTd i).lockerXid := by
    intro i
    have hslot := slotOf_recycleList 0 (recycles env ctx page.tds) i
    rw [Nat.zero_add, ← hslots, recycles, getElem?_map] at hslot
    by_cases hlt : i < page.tds.length
    · have hnew : page'.getTd i = availTd (canReset env ctx page.tds)
          (scanTd env ctx (page.getTd i)).recycle (scanTd env ctx (page.getTd i)).td := by
        rw [getTd_of_lt (hlen ▸ hlt), getTd_of_lt hlt]
        simp only [hpage, withTds_tds, doTds_eq_map, getElem_map]
      rw [getElem?_eq_getElem hlt, ← getTd_of_lt hlt, Option.map_some, Option.join_some] at hslot
      obtain ⟨hkept, hgranted⟩ := (hscan i).availTd (canReset env ctx page.tds) xid
      rw [hslot, hnew]
      refine ⟨hkept, ?_⟩
      split
      next hsome =>
        have hrec := Option.isSome_iff_ne_none.mp hsome
        exact ⟨((hscan i).recycled hrec).1, hlt, hgranted hrec⟩
      next hnone =>
        have hrec := Option.not_isSome_iff_eq_none.mp hnone
        rw [hrec]
        exact (hscan i).ignored hrec
    · rw [hslot, getElem?_eq_none (by omega), getTd_of_ge (hlen.le.trans (not_lt.mp hlt)),
        getTd_of_ge (not_lt.mp hlt)]
      exact ⟨AllocKept.refl (LockSound.reset env), rfl⟩
  have hbase := hrefreshed.heapWellFormed hwf
  refine ⟨⟨?_, fun i => (htd i).1, ?_, ?_, ?_, ?_⟩, hlen⟩
  · rw [hpage]
    refine hbase.of_tds rfl rfl rfl rfl rfl ?_
    rw [← hpage, lower, hlen, ← hrefreshed.tds_eq, hpage]
    exact hbase.layout.lower_le_upper
  · rw [hpage]
    exact hrefreshed.getMaxOffset_eq
  · intro offset hv
    rw [hpage, withTds_getItemId, ItemId.isNormal, ItemId.isNormal, (hrefreshed.item_shape hv).1]
  · intro offset hv hn
    have hu := ((ItemId.isStored_iff _).mp (isStored_of_isNormal hn)).1
    have hheader := (hrefreshed.link offset hv hu hv).header hn
    have hlocker : (page'.tupleHeader offset).lockerTdId =
        refreshedLocker slots (page.tupleHeader offset).lockerTdId := by
      rw [← getTupleLockerTdId_of_normal hwf.heap hn, hpage]
      exact congrArg HeapTupleHeader.lockerTdId hheader
    have hlock := (htd (page.tupleHeader offset).lockerTdId).2
    rw [tupleLocker, hlocker, refreshedLocker, lockerAfter]
    split
    next hsome =>
      rw [if_pos hsome] at hlock
      exact Or.inr ⟨rfl, hlock.1⟩
    next hnone =>
      rw [if_neg hnone] at hlock
      exact Or.inl ⟨rfl, hlock⟩
  · intro hne
    obtain ⟨slot, hslot, rfl⟩ := htdId.resolve_left hne
    have hsome : (slotOf slots slot.id).isSome := by
      rw [slotOf, Option.isSome_map, find?_isSome]
      exact ⟨slot, hslot, by simp⟩
    have hgot := (htd slot.id).2
    rw [if_pos hsome] at hgot
    exact ⟨hgot.2.1.trans_eq hlen.symm, hgot.2.2⟩

/-- `ExtendTd` adds free TDs. -/
lemma AllocLockKept.appendTds {num : ℕ} (h : AllocLockKept env xid page page' invalidTdSlot)
    (hcount : page'.tdCount = page.tdCount) (hnum : num ≠ 0)
    (hroom : num * sizeofTd ≤ page'.getFreeSpaceRaw) :
    AllocLockKept env xid page (page'.appendTds num) page.tdCount := by
  have hgetTd : ∀ i, (page'.appendTds num).getTd i = page'.getTd i := by
    intro i
    show (page'.tds ++ replicate num reset).getD i reset = page'.getTd i
    by_cases hlt : i < page'.tds.length
    · rw [getD_append _ _ _ _ hlt, getTd]
    · rw [getTd_of_ge (show page'.tds.length ≤ i by omega),
        getD_append_right _ _ _ _ (by omega)]
      by_cases hnew : i - page'.tds.length < num
      · rw [getD_replicate _ hnew]
      · rw [getD_eq_default _ _ (by rw [length_replicate]; omega)]
  refine ⟨?_, fun i => by rw [hgetTd]; exact h.td i, h.getMaxOffset_eq, h.normal, ?_, ?_⟩
  · refine h.wf.of_tds rfl rfl rfl rfl rfl ?_
    have hlower : (page'.appendTds num).lower = page'.lower + num * sizeofTd := by
      simp only [lower, DataPage.appendTds, length_append, length_replicate]
      ring
    have hle := h.wf.layout.lower_le_upper
    rw [getFreeSpaceRaw] at hroom
    rw [hlower]
    show page'.lower + num * sizeofTd ≤ page'.upper
    omega
  · intro offset hv hn
    have hlocker : (page'.appendTds num).tupleLocker offset = page'.tupleLocker offset := by
      rw [tupleLocker, hgetTd]
      rfl
    rw [hlocker]
    exact h.locker offset hv hn
  · intro _
    refine ⟨?_, ?_⟩
    · rw [← hcount, tdCount, tdCount, DataPage.appendTds, length_append, length_replicate]
      omega
    · rw [hgetTd, getTd_of_ge (by rw [← hcount]; exact le_rfl)]
      exact Granted.reset env xid

/-- `DoAllocTd` keeps the locks of running transactions, and the TD it finds is free for `xid`. -/
theorem doAllocTd_kept (hwf : page.HeapWellFormed) (hsound : ∀ i, (page.getTd i).LockSound env)
    (hrun : env.InProgress xid) (h : page.doAllocTd env ctx fuel xid = some (page', ctx', tdId)) :
    AllocLockKept env xid page page' tdId := by
  rw [doAllocTd] at h
  cases hfind : page.findTd xid with
  | some i =>
    simp only [hfind, Option.some.injEq, Prod.mk.injEq] at h
    obtain ⟨rfl, -, rfl⟩ := h
    exact AllocLockKept.refl hwf hsound fun _ => findTd_granted hsound hrun hfind
  | none =>
    simp only [hfind] at h
    rw [reuseOrExtendTd] at h
    cases hreuse : page.tryReuseTdSlots env ctx fuel with
    | none => simp [hreuse] at h
    | some r =>
      obtain ⟨page1, ctx1, tdId1⟩ := r
      obtain ⟨hkept, hcount⟩ := tryReuseTdSlots_kept xid hwf hsound hreuse
      simp only [hreuse] at h
      split at h
      · simp only [Option.some.injEq, Prod.mk.injEq] at h
        obtain ⟨rfl, -, rfl⟩ := h
        exact hkept
      next hfull =>
        rw [not_not.mp hfull] at hkept
        rw [extendTd] at h
        cases hnum : page1.numExtended with
        | none =>
          simp only [hnum, Option.some.injEq, Prod.mk.injEq] at h
          obtain ⟨rfl, -, rfl⟩ := h
          exact hkept
        | some num =>
          obtain ⟨_, hroom, hne⟩ := numExtended_room hnum
          simp only [hnum, Option.some.injEq, Prod.mk.injEq] at h
          obtain ⟨rfl, -, rfl⟩ := h
          exact hkept.appendTds hcount hne hroom

end Alloc

end DataPage

end DStore
