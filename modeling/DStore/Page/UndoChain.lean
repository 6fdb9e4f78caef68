import DStore.Txn.Snapshot

/-!
# Undo chains of a TD

The records a TD leads to form a chain: each was written through the TD and holds the content
the TD had before. A TD changes hands only after its owner has ended, so all owners down the
chain but the last are committed or frozen. This is what readers of the chain rely on.
-/

namespace DStore

open TxnEnv TD

/-! ## Ended transactions -/

section Ended

variable (env : TxnEnv)

/-- The transaction has committed, recently or before every snapshot. -/
def TxnEnv.Ended (xid : Xid) : Prop :=
  (env.queryXidStatus xid).status = .committed ∨ (env.queryXidStatus xid).status = .frozen

/-- `csn` may stand in a TD as the commit csn of `xid`. -/
def TxnEnv.CsnOf (xid : Xid) (csn : ℕ) : Prop :=
  csn ≠ invalidCsn ∧
    (((env.queryXidStatus xid).status = .committed ∧ csn = (env.queryXidStatus xid).csn) ∨
      (env.queryXidStatus xid).status = .frozen)

/-- The commit csn of the owner of a TD: the one the TD caches, or the one `FillCsn` would put
there. -/
def TD.commitCsn (td : TD) : ℕ :=
  if td.csnStatus = .isCurXidCsn then td.csn
  else if (env.queryXidStatus td.xid).status = .committed then (env.queryXidStatus td.xid).csn
  else commitSeqNoFirstNormal

variable {env}

lemma TxnEnv.CsnOf.ended {xid : Xid} {csn : ℕ} (h : env.CsnOf xid csn) : env.Ended xid :=
  h.2.imp And.left id

lemma TxnEnv.ne_invalidXid_of_status {xid : Xid} {status : TrxSlotStatus}
    (h : (env.queryXidStatus xid).status = status) (hne : status ≠ .unknown) :
    xid ≠ invalidXid := by
  rintro rfl
  rw [queryXidStatus, if_pos rfl] at h
  exact hne h.symm

lemma TxnEnv.Ended.ne_invalidXid {xid : Xid} (h : env.Ended xid) : xid ≠ invalidXid := by
  rcases h with h | h <;> exact ne_invalidXid_of_status h (by decide)

end Ended

/-! ## Chains -/

/-- The chain of undo records from `ptr`, written through the TD `tdId`, the last one by `xid`. -/
inductive UndoChain (env : TxnEnv) (tdId : ℕ) : Xid → UndoRecPtr → Prop where
  /-- The TD was never used before. -/
  | nil (ptr : UndoRecPtr) : UndoChain env tdId invalidXid ptr
  /-- The records of `xid` are gone. -/
  | recycled {xid : Xid} (ptr : UndoRecPtr) (h : env.isXidRecycled xid = true) :
    UndoChain env tdId xid ptr
  /-- A record of `xid`, and before it an earlier one or the chain of an ended owner. -/
  | record {xid : Xid} {ptr : UndoRecPtr} (hvalid : xid ≠ invalidXid)
    (htd : (env.undoRecord ptr).tdId = tdId)
    (howner : (env.undoRecord ptr).tdPreXid ≠ xid →
      (env.undoRecord ptr).tdPreXid = invalidXid ∨ env.Ended (env.undoRecord ptr).tdPreXid)
    (hcid : (env.undoRecord ptr).tdPreXid = xid →
      (env.undoRecord (env.undoRecord ptr).tdPreUndoPtr).cid ≤ (env.undoRecord ptr).cid)
    (hhint : (env.undoRecord ptr).tdPreCsnStatus = .isCurXidCsn →
      env.CsnOf (env.undoRecord ptr).tdPreXid (env.undoRecord ptr).tdPreCsn)
    (hprev : UndoChain env tdId (env.undoRecord ptr).tdPreXid (env.undoRecord ptr).tdPreUndoPtr) :
    UndoChain env tdId xid ptr

/-- `cid` is the command of a record that `xid` has on the chain from `ptr`. -/
inductive CommandOn (env : TxnEnv) (xid : Xid) : UndoRecPtr → ℕ → Prop where
  | last (ptr : UndoRecPtr) : CommandOn env xid ptr (env.undoRecord ptr).cid
  | earlier {ptr : UndoRecPtr} {cid : ℕ} (hxid : (env.undoRecord ptr).tdPreXid = xid)
    (h : CommandOn env xid (env.undoRecord ptr).tdPreUndoPtr cid) : CommandOn env xid ptr cid

/-- A TD whose chain can be followed. -/
structure TD.Readable (env : TxnEnv) (tdId : ℕ) (td : TD) : Prop where
  chain : UndoChain env tdId td.xid td.undoRecPtr
  hint : td.csnStatus = .isCurXidCsn → env.CsnOf td.xid td.csn
  unoccupied : td.status = .unoccupyAndPruneable → td.xid = invalidXid

/-- The owner of the TD is gone or has ended. -/
def TD.OwnerEnded (env : TxnEnv) (td : TD) : Prop := td.xid = invalidXid ∨ env.Ended td.xid

section Chain

variable {env : TxnEnv} {tdId : ℕ} {xid : Xid} {ptr : UndoRecPtr} {td : TD}

/-- A free TD leads to no undo record. -/
lemma TD.reset_readable (env : TxnEnv) (tdId : ℕ) : reset.Readable env tdId :=
  ⟨UndoChain.nil _, fun h => absurd h (by decide), fun _ => rfl⟩

/-- Rolling a readable TD back one record leaves it readable, with the owner or the end of its
records. -/
lemma TD.Readable.rollbackTdInfo (h : td.Readable env tdId) (hvalid : td.xid ≠ invalidXid)
    (hkept : env.isXidRecycled td.xid = false) :
    (env.undoRecord td.undoRecPtr).tdId = tdId ∧
      (td.rollbackTdInfo (env.undoRecord td.undoRecPtr)).Readable env tdId ∧
      ((td.rollbackTdInfo (env.undoRecord td.undoRecPtr)).xid ≠ td.xid →
        (td.rollbackTdInfo (env.undoRecord td.undoRecPtr)).OwnerEnded env) := by
  obtain ⟨hchain, -, hun⟩ := h
  generalize hx : td.xid = xid at hchain hvalid hkept hun
  cases hchain with
  | nil ptr => exact absurd rfl hvalid
  | recycled ptr hrec =>
    rw [hkept] at hrec
    exact absurd hrec (by decide)
  | record _ htd howner _ hhint hprev =>
    refine ⟨htd, ⟨hprev, hhint, ?_⟩, howner⟩
    intro hstatus
    show (env.undoRecord td.undoRecPtr).tdPreXid = invalidXid
    by_contra hpre
    simp only [TD.rollbackTdInfo] at hstatus
    rw [if_neg hpre] at hstatus
    split at hstatus
    · exact absurd hstatus (by decide)
    · exact hvalid (hun hstatus)

/-- The newest record of a chain has the largest command id. -/
lemma UndoChain.cid_le {cid : ℕ} (h : UndoChain env tdId xid ptr) (hvalid : xid ≠ invalidXid)
    (hkept : env.isXidRecycled xid = false) (hcommand : CommandOn env xid ptr cid) :
    cid ≤ (env.undoRecord ptr).cid := by
  induction hcommand with
  | last ptr => exact Nat.le_refl _
  | earlier hxid _ ih =>
    cases h with
    | nil ptr => exact absurd rfl hvalid
    | recycled ptr hrec =>
      rw [hkept] at hrec
      exact absurd hrec (by decide)
    | record _ _ _ hcid _ hprev =>
      rw [hxid] at hprev
      exact Nat.le_trans (ih hprev) (hcid hxid)

/-- `RollbackTdToPreTxn` ends at an owner that has ended. -/
lemma TD.Readable.rollbackLoop (fuel : ℕ) {td' : TD} (h : td.Readable env tdId)
    (hvalid : xid ≠ invalidXid) (hstart : td.xid ≠ xid → td.OwnerEnded env)
    (hrun : rollbackLoop env xid fuel td = some td') :
    td'.Readable env tdId ∧ td'.OwnerEnded env := by
  induction fuel generalizing td with
  | zero =>
    rw [rollbackLoop] at hrun
    split at hrun
    · simp at hrun
    next hne =>
      rw [← Option.some.inj hrun]
      exact ⟨h, hstart hne⟩
  | succ fuel ih =>
    rw [rollbackLoop] at hrun
    split at hrun
    next heq =>
      cases hrec : env.isXidRecycled xid with
      | true =>
        have hfetch : env.fetchUndoRecord xid td.undoRecPtr = none := by
          rw [fetchUndoRecord, hrec]
          rfl
        rw [hfetch] at hrun
        rw [← Option.some.inj hrun]
        exact ⟨reset_readable env tdId, Or.inl rfl⟩
      | false =>
        have hfetch : env.fetchUndoRecord xid td.undoRecPtr =
            some (env.undoRecord td.undoRecPtr) := by
          rw [fetchUndoRecord, hrec]
          rfl
        rw [hfetch] at hrun
        rw [← heq] at hvalid hrec
        obtain ⟨-, hread, hended⟩ := h.rollbackTdInfo hvalid hrec
        rw [heq] at hended
        exact ih hread hended hrun
    next hne =>
      rw [← Option.some.inj hrun]
      exact ⟨h, hstart hne⟩

/-- `FillCsn` on a TD whose owner has ended caches the commit csn. -/
lemma TD.Readable.fillCsn (h : td.Readable env tdId) (hended : env.Ended td.xid)
    (hcsn : ∀ xid, (env.queryXidStatus xid).status = .committed →
      (env.queryXidStatus xid).csn ≠ invalidCsn) :
    (td.fillCsn env).Readable env tdId ∧ (td.fillCsn env).xid = td.xid ∧
      (td.fillCsn env).csnStatus = .isCurXidCsn ∧ (td.fillCsn env).csn = td.commitCsn env := by
  have hvalid := hended.ne_invalidXid
  have hend : ∀ td' : TD, td'.xid = td.xid → td'.undoRecPtr = td.undoRecPtr →
      td'.csnStatus = .isCurXidCsn → td'.status = td.status → env.CsnOf td.xid td'.csn →
      td'.fillEndStatus.Readable env tdId ∧ td'.fillEndStatus.xid = td.xid ∧
        td'.fillEndStatus.csnStatus = .isCurXidCsn ∧ td'.fillEndStatus.csn = td'.csn := by
    intro td' hx hp hs hst hof
    unfold fillEndStatus
    split
    · refine ⟨⟨?_, fun _ => ?_, fun hun => TDStatus.noConfusion hun⟩, hx, hs, rfl⟩
      · show UndoChain env tdId td'.xid td'.undoRecPtr
        rw [hx, hp]
        exact h.chain
      · show env.CsnOf td'.xid td'.csn
        rw [hx]
        exact hof
    · refine ⟨⟨?_, fun _ => ?_, fun hun => ?_⟩, hx, hs, rfl⟩
      · rw [hx, hp]
        exact h.chain
      · rw [hx]
        exact hof
      · rw [hx]
        exact h.unoccupied (hst.symm.trans hun)
  unfold TD.fillCsn TD.fillCsnWith
  split
  next hcur => exact ⟨h, rfl, hcur, by rw [commitCsn, if_pos hcur]⟩
  next hcur =>
    split
    next hfro =>
      have hof : env.CsnOf td.xid commitSeqNoFirstNormal := ⟨by decide, Or.inr hfro⟩
      obtain ⟨h1, h2, h3, h4⟩ := hend
        { td with csn := commitSeqNoFirstNormal, csnStatus := .isCurXidCsn } rfl rfl rfl rfl hof
      refine ⟨h1, h2, h3, h4.trans ?_⟩
      rw [commitCsn, if_neg hcur, if_neg (by rw [hfro]; decide)]
    next hfro =>
      have hcom : (env.queryXidStatus td.xid).status = .committed := hended.resolve_right hfro
      rw [if_pos hcom]
      have hof : env.CsnOf td.xid (env.queryXidStatus td.xid).csn :=
        ⟨hcsn td.xid hcom, Or.inl ⟨hcom, rfl⟩⟩
      obtain ⟨h1, h2, h3, h4⟩ := hend
        { td with csn := (env.queryXidStatus td.xid).csn, csnStatus := .isCurXidCsn }
        rfl rfl rfl rfl hof
      refine ⟨h1, h2, h3, h4.trans ?_⟩
      rw [commitCsn, if_neg hcur, if_pos hcom]

end Chain

/-! ## Waiting for a transaction -/

section Wait

variable {env : TxnEnv} {xid x : Xid} {xs : XidState} {tdId : ℕ} {td : TD}

lemma TxnEnv.queryXidStatus_afterWait_self (hvalid : xid ≠ invalidXid) :
    (env.afterWait xid xs).queryXidStatus xid = xs := by
  simp [queryXidStatus, afterWait, hvalid]

lemma TxnEnv.queryXidStatus_afterWait_of_ne (hne : x ≠ xid) :
    (env.afterWait xid xs).queryXidStatus x = env.queryXidStatus x := by
  simp [queryXidStatus, afterWait, hne]

lemma TxnEnv.Ended.ne_of_pending (h : env.Ended x)
    (hpending : (env.queryXidStatus xid).status = .pendingCommit) : x ≠ xid := by
  intro heq
  rw [Ended, heq, hpending] at h
  rcases h with h | h <;> exact absurd h (by decide)

variable (hpending : (env.queryXidStatus xid).status = .pendingCommit)

include hpending

/-- A transaction that has ended stays so while another is waited for. -/
lemma TxnEnv.Ended.afterWait (h : env.Ended x) : (env.afterWait xid xs).Ended x := by
  rw [Ended, queryXidStatus_afterWait_of_ne (h.ne_of_pending hpending)]
  exact h

/-- It keeps its csn. -/
lemma TxnEnv.CsnOf.afterWait {csn : ℕ} (h : env.CsnOf x csn) :
    (env.afterWait xid xs).CsnOf x csn := by
  rw [CsnOf, queryXidStatus_afterWait_of_ne (h.ended.ne_of_pending hpending)]
  exact h

/-- The undo chains do not change meanwhile. -/
lemma UndoChain.afterWait {ptr : UndoRecPtr} (h : UndoChain env tdId x ptr) :
    UndoChain (env.afterWait xid xs) tdId x ptr := by
  induction h with
  | nil ptr => exact .nil ptr
  | recycled ptr h => exact .recycled ptr h
  | record hvalid htd howner hcid hhint _ ih =>
    exact .record hvalid htd (fun hne => (howner hne).imp_right fun h => h.afterWait hpending) hcid
      (fun hcur => (hhint hcur).afterWait hpending) ih

lemma TD.Readable.afterWait (h : td.Readable env tdId) : td.Readable (env.afterWait xid xs) tdId :=
  ⟨h.chain.afterWait hpending, fun hcur => (h.hint hcur).afterWait hpending, h.unoccupied⟩

/-- The commit csn of an ended owner stays. -/
lemma TD.commitCsn_afterWait (h : env.Ended td.xid) :
    td.commitCsn (env.afterWait xid xs) = td.commitCsn env := by
  rw [commitCsn, commitCsn,
    queryXidStatus_afterWait_of_ne (h.ne_of_pending hpending)]

omit hpending in
/-- The commands on a chain stay. -/
lemma CommandOn.afterWait {ptr : UndoRecPtr} {cid : ℕ} :
    CommandOn (env.afterWait xid xs) x ptr cid ↔ CommandOn env x ptr cid := by
  constructor
  · intro h
    induction h with
    | last ptr => exact .last ptr
    | earlier hxid _ ih => exact .earlier hxid ih
  · intro h
    induction h with
    | last ptr => exact .last ptr
    | earlier hxid _ ih => exact .earlier hxid ih

end Wait

end DStore
