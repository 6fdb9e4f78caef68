import DStore.Txn.TxnInfoCache

/-!
# What the transaction info cache answers

The caches of all zones under any sequence of reads and writes. A write brings a copy of a slot
that was true when it was taken; in the meantime the transaction may have ended and its slot may
have been recycled. Entries of the table are overwritten by later transactions with the same
index, and one watermark answers for every smaller logic slot id.
-/

namespace DStore

open Function List

/-- How a transaction ends: the status and the csn that its slot holds from then on. -/
structure TxnEnd where
  status : TrxSlotStatus
  csn : ℕ
  ended : status = .committed ∨ status = .aborted

/-- The states a slot goes through, in this order. -/
inductive TxnStage where
  | inProgress
  | ended
  | recycled
deriving DecidableEq, Repr

namespace TxnStage

/-- `stage` is not later than `now`. -/
def Reached : TxnStage → TxnStage → Prop
  | .inProgress, _ => True
  | .ended, now => now ≠ .inProgress
  | .recycled, now => now = .recycled

instance decidableReached : (stage now : TxnStage) → Decidable (stage.Reached now)
  | .inProgress, _ => isTrue trivial
  | .ended, now => inferInstanceAs (Decidable (now ≠ .inProgress))
  | .recycled, now => inferInstanceAs (Decidable (now = .recycled))

/-- A copy of the slot of `logicSlotId` that is true at a stage. The commit record of an ended
transaction may not be durable yet, and a recycled slot may have lost its csn and its id. -/
def TrueCopy (txnEnd : TxnEnd) (logicSlotId : ℕ) : TxnStage → TransactionSlot → Prop
  | .inProgress, slot => slot.status = .inProgress ∧ slot.csn = invalidCsn
  | .ended, slot => slot.status = .pendingCommit ∨
      slot.status = txnEnd.status ∧ slot.csn = txnEnd.csn ∧ slot.logicSlotId = logicSlotId
  | .recycled, slot => slot.status = .frozen ∧
      (slot.csn = invalidCsn ∨ slot.csn = txnEnd.csn ∧ slot.logicSlotId = logicSlotId)

end TxnStage

/-- The caches by zone, the stage of each transaction by zone and logic slot id, and every
`recycleCsnMin` that was used. -/
structure AllTxnInfoCaches where
  caches : ℕ → TxnInfoCache
  stage : ℕ → ℕ → TxnStage
  used : List ℕ

/-- What changes the caches or the slots they are filled from. -/
inductive TxnInfoStep where
  /-- The transaction commits or aborts. -/
  | finish (zone logicSlotId : ℕ)
  /-- The slot is recycled. -/
  | recycle (zone logicSlotId recycleCsnMin : ℕ)
  | read (zone logicSlotId : ℕ) (out : TransactionSlot) (recycleCsnMin : ℕ)
  | write (zone logicSlotId : ℕ) (slot : TransactionSlot) (recycleCsnMin : ℕ)
      (cacheInprogress : Bool)

namespace AllTxnInfoCaches

/-- `AllUndoZoneTxnInfoCache` after construction, with every slot still to come. -/
def initial : AllTxnInfoCaches := ⟨fun _ => .initial, fun _ _ => .inProgress, []⟩

variable (ends : ℕ → ℕ → TxnEnd) (s : AllTxnInfoCaches)

/-- When a step can be taken: a slot ends once and is recycled for a csn below the limit, and a
copy was true at a stage that has been reached. The one caller that caches a transaction in
progress, `AllocTransactionSlot`, does so without a csn. -/
def Fits : TxnInfoStep → Prop
  | .finish zone l => s.stage zone l = .inProgress
  | .recycle zone l r => s.stage zone l = .ended ∧ (ends zone l).csn < r
  | .read _ _ _ _ => True
  | .write zone l slot _ cacheInprogress =>
    (∃ stage : TxnStage, stage.Reached (s.stage zone l) ∧ stage.TrueCopy (ends zone l) l slot) ∧
      (cacheInprogress = true → slot.csn = invalidCsn)

/-- The caches after a step. -/
def step : TxnInfoStep → AllTxnInfoCaches
  | .finish zone l =>
    { s with stage := Function.update s.stage zone (Function.update (s.stage zone) l .ended) }
  | .recycle zone l r =>
    { s with
      stage := Function.update s.stage zone (Function.update (s.stage zone) l .recycled)
      used := r :: s.used }
  | .read zone l out r =>
    { s with
      caches := Function.update s.caches zone ((s.caches zone).readTxnInfoFromCache l out r).2
      used := r :: s.used }
  | .write zone l slot r cacheInprogress =>
    { s with
      caches := Function.update s.caches zone
        ((s.caches zone).writeTxnInfoToCache l slot r cacheInprogress)
      used := r :: s.used }

/-- The states that runs reach. -/
inductive Reachable : AllTxnInfoCaches → Prop where
  | start : Reachable initial
  | next {s : AllTxnInfoCaches} {e : TxnInfoStep} (hs : Reachable s) (hfits : s.Fits ends e) :
    Reachable (s.step e)

end AllTxnInfoCaches

/-! ## What a zone's cache may hold -/

section Zone

variable {txnEnd : ℕ → TxnEnd} {used used' : List ℕ} {cache : TxnInfoCache} {l r : ℕ}
  {slot out : TransactionSlot} {stage : TxnStage}

/-- The csn is below a `recycleCsnMin` that was used. -/
def BelowUsed (used : List ℕ) (csn : ℕ) : Prop := ∃ u ∈ used, csn < u

/-- More bounds used leave it so. -/
lemma BelowUsed.mono (h : BelowUsed used l) (hsub : used ⊆ used') : BelowUsed used' l := by
  obtain ⟨u, hu, hlt⟩ := h
  exact ⟨u, hsub hu, hlt⟩

/-- `status` and `csn` are an answer for a transaction that ends as `txnEnd`. -/
def SoundAnswer (used : List ℕ) (txnEnd : TxnEnd) (status : TrxSlotStatus) (csn : ℕ) : Prop :=
  status = txnEnd.status ∧ csn = txnEnd.csn ∨ status = .frozen ∧ BelowUsed used txnEnd.csn

/-- The cache of a zone whose transactions end as `txnEnd` says. -/
structure TxnInfoCache.Sound (txnEnd : ℕ → TxnEnd) (used : List ℕ) (cache : TxnInfoCache) :
    Prop where
  /-- Readable entries have the transaction's csn and an answer for it. -/
  entry : ∀ entries, cache.cachedEntry = some entries → ∀ i, (entries i).csn ≠ invalidCsn →
    (entries i).csn = (txnEnd (entries i).logicSlotId).csn ∧
      SoundAnswer used (txnEnd (entries i).logicSlotId) (entries i).status (entries i).csn
  /-- Below the watermark everything is recycled. -/
  watermark : ∀ l < cache.recycleLogicSlotId, BelowUsed used (txnEnd l).csn

namespace TxnInfoCache.Sound

/-- The cache at the start answers nothing. -/
lemma initial : TxnInfoCache.initial.Sound txnEnd used where
  entry := by
    intro entries hentries
    cases hentries
  watermark := by
    intro l hl
    exact absurd hl (Nat.not_lt_zero l)

section

variable (h : cache.Sound txnEnd used)
include h

/-- A sound cache stays so when further bounds are used. -/
lemma mono (hsub : used ⊆ used') : cache.Sound txnEnd used' where
  entry := by
    intro entries hentries i hcsn
    obtain ⟨hown, hanswer⟩ := h.entry entries hentries i hcsn
    refine ⟨hown, hanswer.imp_right ?_⟩
    exact fun ⟨hfrozen, hbelow⟩ => ⟨hfrozen, hbelow.mono hsub⟩
  watermark := fun l hl => (h.watermark l hl).mono hsub

/-- Moving the recycle bound keeps the cache sound if the csn lies below a bound used. -/
lemma refresh (hmono : Monotone fun l => (txnEnd l).csn) {csn : ℕ}
    (hbelow : csn < r → BelowUsed used (txnEnd l).csn) :
    (cache.refreshRecycleLogicSlotId l csn r).Sound txnEnd used := by
  unfold refreshRecycleLogicSlotId
  split_ifs with hlt
  · refine ⟨h.entry, fun m hm => ?_⟩
    rcases Nat.lt_or_ge m cache.recycleLogicSlotId with hold | hnew
    · exact h.watermark m hold
    · have hle : m ≤ l := by
        dsimp only at hm
        omega
      obtain ⟨u, hu, hcsn⟩ := hbelow hlt
      exact ⟨u, hu, (hmono hle).trans_lt hcsn⟩
  · exact h

/-- Reading keeps the cache sound. -/
lemma read (hmono : Monotone fun l => (txnEnd l).csn) :
    (cache.readTxnInfoFromCache l out r).2.Sound txnEnd (r :: used) := by
  have hweak := h.mono (subset_cons_self r used)
  unfold readTxnInfoFromCache
  dsimp only
  split_ifs
  · exact hweak
  · split
    · exact hweak
    · rename_i entries hentries
      split_ifs with hmiss
      · exact hweak
      · rw [not_or, not_not] at hmiss
        refine hweak.refresh hmono fun hlt => ⟨r, mem_cons_self, ?_⟩
        have hown := (h.entry entries hentries _ hmiss.1).1
        rw [← hmiss.2] at hown
        rwa [← hown]

/-- The answer of a read is sound. -/
lemma answer {copy : TransactionSlot} (hread : (cache.readTxnInfoFromCache l out r).1 = some copy) :
    SoundAnswer used (txnEnd l) copy.status copy.csn := by
  unfold readTxnInfoFromCache at hread
  dsimp only at hread
  split_ifs at hread with hrecycled
  · cases hread
    exact Or.inr ⟨rfl, h.watermark l hrecycled⟩
  · split at hread
    · cases hread
    · rename_i entries hentries
      split_ifs at hread with hmiss
      rw [not_or, not_not] at hmiss
      cases hread
      have hanswer := (h.entry entries hentries _ hmiss.1).2
      rwa [← hmiss.2] at hanswer

/-- Creating the entries keeps the cache sound. -/
lemma create :
    ({ cache with cachedEntry := some (cache.cachedEntry.getD fun _ => ⟨0, .unknown, 0⟩) } :
      TxnInfoCache).Sound txnEnd used := by
  refine ⟨fun entries hentries i hcsn => ?_, h.watermark⟩
  cases hentries
  cases hold : cache.cachedEntry with
  | none =>
    rw [hold] at hcsn
    exact absurd rfl hcsn
  | some entries =>
    rw [hold] at hcsn
    exact h.entry entries hold i hcsn

/-- Storing a sound copy keeps the cache sound. -/
lemma store (hslot : slot.csn ≠ invalidCsn → slot.csn = (txnEnd slot.logicSlotId).csn ∧
      SoundAnswer used (txnEnd slot.logicSlotId) slot.status slot.csn) :
    (cache.store l slot).Sound txnEnd used := by
  refine ⟨fun entries hentries i hcsn => ?_, h.watermark⟩
  unfold TxnInfoCache.store at hentries
  obtain ⟨old, hold, rfl⟩ := Option.map_eq_some_iff.mp hentries
  by_cases hindex : i = l % cachedSlotNumPerZone
  · rw [hindex, update_self] at hcsn ⊢
    exact hslot hcsn
  · rw [update_of_ne hindex] at hcsn ⊢
    exact h.entry old hold i hcsn

end

end TxnInfoCache.Sound

/-- A copy that says ended is the true end, or a frozen slot of a recycled transaction. -/
lemma TxnStage.TrueCopy.cases_of_ended {txnEnd : TxnEnd} (h : stage.TrueCopy txnEnd l slot)
    (hended : slot.status.Ended) :
    (slot.status = txnEnd.status ∧ slot.csn = txnEnd.csn ∧ slot.logicSlotId = l) ∨
      stage = .recycled ∧ slot.status = .frozen ∧
        (slot.csn = invalidCsn ∨ slot.csn = txnEnd.csn ∧ slot.logicSlotId = l) := by
  cases stage with
  | inProgress =>
    rw [TrxSlotStatus.Ended, h.1] at hended
    exact absurd hended (by decide)
  | ended =>
    rcases h with hpending | hfinal
    · rw [TrxSlotStatus.Ended, hpending] at hended
      exact absurd hended (by decide)
    · exact Or.inl hfinal
  | recycled => exact Or.inr ⟨rfl, h⟩

/-- Writing a true copy keeps the cache sound. -/
lemma TxnInfoCache.Sound.write (h : cache.Sound txnEnd used)
    (hmono : Monotone fun l => (txnEnd l).csn) {flag : Bool}
    (hcopy : stage.TrueCopy (txnEnd l) l slot)
    (hrecycled : stage = .recycled → BelowUsed used (txnEnd l).csn)
    (hflag : flag → slot.csn = invalidCsn) :
    (cache.writeTxnInfoToCache l slot r flag).Sound txnEnd (r :: used) := by
  have hsub := subset_cons_self r used
  have hbelow : slot.status.Ended → slot.csn < r → BelowUsed (r :: used) (txnEnd l).csn := by
    intro hended hlt
    rcases hcopy.cases_of_ended hended with ⟨-, hcsn, -⟩ | ⟨hstage, -⟩
    · exact ⟨r, mem_cons_self, hcsn ▸ hlt⟩
    · exact (hrecycled hstage).mono hsub
  have hslot : slot.status.Ended → slot.csn ≠ invalidCsn →
      slot.csn = (txnEnd slot.logicSlotId).csn ∧
        SoundAnswer (r :: used) (txnEnd slot.logicSlotId) slot.status slot.csn := by
    intro hended hcsn
    rcases hcopy.cases_of_ended hended with ⟨hstatus, hcsn, rfl⟩ | ⟨hstage, hfrozen, hrest⟩
    · exact ⟨hcsn, Or.inl ⟨hstatus, hcsn⟩⟩
    · obtain ⟨hown, rfl⟩ := hrest.resolve_left hcsn
      exact ⟨hown, Or.inr ⟨hfrozen, (hrecycled hstage).mono hsub⟩⟩
  have hcreate := (h.mono hsub).create
  unfold writeTxnInfoToCache
  dsimp only
  by_cases hended : slot.status.Ended
  · have hrefresh := hcreate.refresh hmono (hbelow hended)
    rw [if_pos hended]
    split_ifs
    · exact hrefresh.store (hslot hended)
    · exact hrefresh
  · rw [if_neg hended]
    split_ifs with hstore
    · have hcsn := hflag (hstore.resolve_right fun hcond => hended hcond.2)
      exact hcreate.store fun hne => absurd hcsn hne
    · exact hcreate

end Zone

/-! ## The caches along a run -/

namespace AllTxnInfoCaches

variable {ends : ℕ → ℕ → TxnEnd} {s : AllTxnInfoCaches}

/-- The invariant of runs: every zone's cache is sound, and slots were recycled below a limit
that was used. -/
structure Inv (ends : ℕ → ℕ → TxnEnd) (s : AllTxnInfoCaches) : Prop where
  sound : ∀ zone, (s.caches zone).Sound (ends zone) s.used
  recycled : ∀ zone l, s.stage zone l = .recycled → BelowUsed s.used (ends zone l).csn

/-- The invariant holds at the start. -/
lemma inv_initial : initial.Inv ends where
  sound := fun _ => .initial
  recycled := by
    intro zone l h
    cases h

/-- A call changes the cache of one zone. -/
lemma Inv.update (h : s.Inv ends) {zone r : ℕ} {cache : TxnInfoCache}
    (hcache : cache.Sound (ends zone) (r :: s.used)) :
    Inv ends ⟨update s.caches zone cache, s.stage, r :: s.used⟩ where
  sound := by
    intro zone'
    dsimp only
    by_cases hzone : zone' = zone
    · subst hzone
      rwa [update_self]
    · rw [update_of_ne hzone]
      exact (h.sound zone').mono (subset_cons_self r s.used)
  recycled := fun zone' l hstage =>
    (h.recycled zone' l hstage).mono (subset_cons_self r s.used)

lemma stage_update (zone l : ℕ) (stage : TxnStage) (zone' l' : ℕ) :
    update s.stage zone (update (s.stage zone) l stage) zone' l' =
      if zone' = zone ∧ l' = l then stage else s.stage zone' l' := by
  by_cases hzone : zone' = zone
  · subst hzone
    by_cases hl : l' = l <;> simp [hl]
  · simp [hzone]

/-- Each step keeps the invariant. -/
lemma Inv.step (hmono : ∀ zone, Monotone fun l => (ends zone l).csn) (h : s.Inv ends)
    {e : TxnInfoStep} (hfits : s.Fits ends e) : (s.step e).Inv ends := by
  cases e with
  | finish zone l =>
    refine ⟨h.sound, fun zone' l' hstage => ?_⟩
    dsimp only [AllTxnInfoCaches.step] at hstage
    rw [stage_update] at hstage
    split_ifs at hstage
    exact h.recycled zone' l' hstage
  | recycle zone l r =>
    have hsub := subset_cons_self r s.used
    refine ⟨fun zone' => (h.sound zone').mono hsub, fun zone' l' hstage => ?_⟩
    dsimp only [AllTxnInfoCaches.step] at hstage
    rw [stage_update] at hstage
    split_ifs at hstage with hsame
    · obtain ⟨rfl, rfl⟩ := hsame
      exact ⟨r, mem_cons_self, hfits.2⟩
    · exact (h.recycled zone' l' hstage).mono hsub
  | read zone l out r => exact h.update ((h.sound zone).read (hmono zone))
  | write zone l slot r flag =>
    obtain ⟨⟨stage, hreached, hcopy⟩, hflag⟩ := hfits
    refine h.update ((h.sound zone).write (hmono zone) hcopy (fun hstage => ?_) hflag)
    subst hstage
    exact h.recycled zone l hreached

/-- It holds in every reachable state. -/
lemma Reachable.inv (hmono : ∀ zone, Monotone fun l => (ends zone l).csn)
    (hs : Reachable ends s) : s.Inv ends := by
  induction hs with
  | start => exact inv_initial
  | next _ hfits ih => exact ih.step hmono hfits

/-- After any run, a successful read returns how the transaction ends, or frozen if its csn is
below a `recycleCsnMin` that was used before. -/
theorem Reachable.readTxnInfoFromCache_sound
    (hmono : ∀ zone, Monotone fun l => (ends zone l).csn) (hs : Reachable ends s)
    (zone l : ℕ) (out : TransactionSlot) (recycleCsnMin : ℕ) {copy : TransactionSlot}
    (hread : ((s.caches zone).readTxnInfoFromCache l out recycleCsnMin).1 = some copy) :
    copy.status = (ends zone l).status ∧ copy.csn = (ends zone l).csn ∨
      copy.status = .frozen ∧ ∃ u ∈ s.used, (ends zone l).csn < u :=
  ((hs.inv hmono).sound zone).answer hread

/-- A zone with one committed transaction per csn: the second is cached by its commit, read with a
limit that recycles both, and both are then answered as frozen. -/
theorem readTxnInfoFromCache_sound_frozen :
    ∃ (s : AllTxnInfoCaches) (copy : TransactionSlot),
      ((s.caches 0).readTxnInfoFromCache 1 .zero 9).1 = some copy ∧
        (copy.status = .committed ∧ copy.csn = 1 + 5 ∨
          copy.status = .frozen ∧ ∃ u ∈ s.used, 1 + 5 < u) := by
  let ends : ℕ → ℕ → TxnEnd := fun _ l => ⟨.committed, l + 5, Or.inl rfl⟩
  let committed : TransactionSlot :=
    { TransactionSlot.zero with status := .committed, csn := 7, logicSlotId := 2 }
  have hmono : ∀ zone, Monotone fun l => (ends zone l).csn :=
    fun _ _ _ hle => Nat.add_le_add_right hle 5
  have h₁ : Reachable ends (initial.step (.finish 0 2)) := Reachable.start.next rfl
  have h₂ : Reachable ends ((initial.step (.finish 0 2)).step (.write 0 2 committed 7 false)) :=
    h₁.next ⟨⟨.ended, by decide, Or.inr ⟨rfl, rfl, rfl⟩⟩, fun h => nomatch h⟩
  have h₃ := h₂.next (e := .read 0 2 .zero 9) trivial
  exact ⟨_, _, rfl, Reachable.readTxnInfoFromCache_sound hmono h₃ 0 1 .zero 9 rfl⟩

end AllTxnInfoCaches

end DStore
