import DStore.Txn.LazyLock

/-!
# A strong requester passes when no thread counts

A thread that finds the conflict bit, or releases a lazy lock while it is set, turns its lazy locks
into actual ones and then looks for requesters that can be woken: those of a partition in which no
thread counts any more. The threads' compare-and-swaps and the steps under the conflict-hint lock
are the events of a run.
-/

namespace DStore

open List Function Bool

namespace LazyLockHint

variable (hint : LazyLockHint)

/-- `IncreaseLazyLockCnt`: nothing changes when the compare-and-swap fails. -/
def increaseLazyLockCnt : LazyLockHint :=
  if hint.lazyLockHintBits = hint.localCnt then
    ⟨(hint.localCnt + 1) % 2 ^ 64, (hint.localCnt + 1) % 2 ^ 64⟩
  else hint

/-- `DecreaseLazyLockCnt`, `none` when its first assertion fails. -/
def decreaseLazyLockCnt (decreaseCnt : ℕ) : Option LazyLockHint :=
  if hint.localCnt = 0 then some hint
  else if decreaseCnt ≤ hint.localCnt then
    some ⟨hint.localCnt - decreaseCnt, (hint.lazyLockHintBits + 2 ^ 64 - decreaseCnt) % 2 ^ 64⟩
  else none

variable {hint} {cnt : ℕ} {conflict : Bool}

/-- A thread counts up unless it finds the conflict bit. -/
lemma Holds.increase (h : hint.Holds cnt conflict) (hlt : cnt + 1 < 2 ^ 63) :
    hint.increaseLazyLockCnt.Holds (if conflict then cnt else cnt + 1) conflict := by
  obtain ⟨hcnt, -, hbits⟩ := h
  cases conflict with
  | true =>
    have hne : hint.lazyLockHintBits ≠ hint.localCnt := by
      simp only [if_true, lazyLockPotentialConflict] at hbits
      omega
    rw [increaseLazyLockCnt, if_neg hne]
    exact ⟨hcnt, Nat.lt_of_succ_lt hlt, hbits⟩
  | false =>
    rw [increaseLazyLockCnt, if_pos (hbits.trans hcnt.symm), hcnt]
    simp only [LazyLockHint.Holds, Bool.false_eq_true, if_false]
    omega

/-- Counting down leaves the conflict bit. -/
lemma Holds.decrease {new : LazyLockHint} {decreaseCnt : ℕ} (h : hint.Holds cnt conflict)
    (hnew : hint.decreaseLazyLockCnt decreaseCnt = some new) :
    new.Holds (cnt - decreaseCnt) conflict := by
  obtain ⟨hcnt, hlt, hbits⟩ := h
  simp only [decreaseLazyLockCnt] at hnew
  split_ifs at hnew with hzero hle <;> cases hnew
  · have hcnt' : cnt - decreaseCnt = cnt := by omega
    rw [hcnt']
    exact ⟨hcnt, hlt, hbits⟩
  · simp only [LazyLockHint.Holds, hbits, lazyLockPotentialConflict]
    cases conflict <;> simp <;> omega

end LazyLockHint

/-- Requesters wait for the counts of the threads. -/
def LazyLockPart.waits {Tag Req : Type} (part : LazyLockPart Tag Req) : Bool :=
  !part.isNoRequest && part.isWaiting

/-- An atomic access: `LazyLock` increases and, when that fails, makes the wake-up check;
`ReleaseLazyLock` and the actual acquisition of a slot decrease and then make it. -/
inductive LazyLockEvent (Tag Req : Type) where
  | increase (core : ℕ) (tag : Tag)
  | decrease (core : ℕ) (tag : Tag) (decreaseCnt : ℕ)
  | tryWakeup
  | asyncDisable (tag : Tag) (req : Req) (allocated : Bool)
  | enable (tag : Tag) (req : Req)

section

variable {Tag Req : Type}

/-- The loop of the wake-up check over the threads: `needWait`, and what the iterator has left. -/
def waitLoop (hint : ℕ → LazyLockHint) : List ℕ → Bool × List ℕ
  | [] => (false, [])
  | core :: iter => if 0 < (hint core).getLazyLockCnt then (true, iter) else waitLoop hint iter

/-- The second step of `TryActuallyAcquireLazyLocksOnCurrentThread`: one iterator serves all
partitions, and `WakeupAllRequests` takes the waiting flag back. -/
def tryWakeupLoop : List LazyLockPartId → LazyLockState Tag Req → List ℕ → LazyLockState Tag Req
  | [], s, _ => s
  | p :: ps, s, iter =>
    if (s p).waits then
      if (waitLoop (s p).hint iter).1 then tryWakeupLoop ps s (waitLoop (s p).hint iter).2
      else
        tryWakeupLoop ps (update s p { s p with isWaiting := false }) (waitLoop (s p).hint iter).2
    else tryWakeupLoop ps s iter

/-- The check that does not wait has found no count among the threads it was left. -/
lemma zero_of_waitLoop {hint : ℕ → LazyLockHint} : ∀ {iter : List ℕ},
    (waitLoop hint iter).1 = false → ∀ core ∈ iter, (hint core).getLazyLockCnt = 0
  | [], _ => by simp
  | core :: iter, h => by
    rw [waitLoop] at h
    split_ifs at h with hpos
    rw [List.forall_mem_cons]
    exact ⟨Nat.eq_zero_of_not_pos hpos, zero_of_waitLoop h⟩

/-- Partitions that do not wait are passed over. -/
lemma tryWakeupLoop_of_not_waits {s : LazyLockState Tag Req} : ∀ {ps : List LazyLockPartId}
    {iter : List ℕ}, (∀ p ∈ ps, (s p).waits = false) → tryWakeupLoop ps s iter = s
  | [], _, _ => rfl
  | p :: ps, iter, h => by
    obtain ⟨hp, hrest⟩ := List.forall_mem_cons.mp h
    rw [tryWakeupLoop, hp, if_neg Bool.false_ne_true, tryWakeupLoop_of_not_waits hrest]

/-- While at most one partition waits, it is woken only after all threads were looked at. -/
lemma tryWakeupLoop_cases {s : LazyLockState Tag Req} {threads : List ℕ} :
    ∀ {ps : List LazyLockPartId}, ps.Pairwise (fun p q => p ≠ q ∧ ¬((s p).waits ∧ (s q).waits)) →
      tryWakeupLoop ps s threads = s ∨ ∃ p, (s p).waits ∧
        tryWakeupLoop ps s threads = update s p { s p with isWaiting := false } ∧
          ∀ core ∈ threads, ((s p).hint core).getLazyLockCnt = 0
  | [], _ => Or.inl rfl
  | p :: ps, hpair => by
    obtain ⟨hfirst, hpair⟩ := List.pairwise_cons.mp hpair
    rw [tryWakeupLoop]
    split_ifs with hp hwait
    · have hrest : ∀ q ∈ ps, (s q).waits = false := fun q hq =>
        Bool.eq_false_iff.mpr fun hq' => (hfirst q hq).2 ⟨hp, hq'⟩
      exact Or.inl (tryWakeupLoop_of_not_waits hrest)
    · refine Or.inr ⟨p, hp, tryWakeupLoop_of_not_waits fun q hq => ?_,
        zero_of_waitLoop (Bool.eq_false_iff.mpr hwait)⟩
      rw [update_of_ne (hfirst q hq).1.symm]
      exact Bool.eq_false_iff.mpr fun hq' => (hfirst q hq).2 ⟨hp, hq'⟩
    · exact tryWakeupLoop_cases hpair

end

namespace LazyLockConf

open LazyLockPart

variable {Tag Req : Type} [DecidableEq Tag] (conf : LazyLockConf Tag Req)

/-- One atomic access. -/
def step (s : LazyLockState Tag Req) : LazyLockEvent Tag Req → Option (LazyLockState Tag Req)
  | .increase core tag =>
    let part := s (conf.partId tag)
    some (update s (conf.partId tag)
      { part with hint := update part.hint core (part.hint core).increaseLazyLockCnt })
  | .decrease core tag decreaseCnt =>
    let part := s (conf.partId tag)
    ((part.hint core).decreaseLazyLockCnt decreaseCnt).map fun hint =>
      update s (conf.partId tag) { part with hint := update part.hint core hint }
  | .tryWakeup => some (tryWakeupLoop (List.finRange 128) s conf.sortCoreIdxArr)
  | .asyncDisable tag req allocated => some (conf.callStep s (.asyncDisable tag req allocated))
  | .enable tag req => some (conf.callStep s (.enable tag req))

/-- A count stays below the conflict bit, and a wake-up check finds at most one partition
waiting. -/
def MeetsEvent (s : LazyLockState Tag Req) : LazyLockEvent Tag Req → Prop
  | .increase core tag => ((s (conf.partId tag)).hint core).localCnt + 1 < 2 ^ 63
  | .tryWakeup => ∃ p, ∀ q, (s q).waits → q = p
  | _ => True

/-- A strong requester of the partition passes the wait. -/
def Passes (s s' : LazyLockState Tag Req) (p : LazyLockPartId) : LazyLockEvent Tag Req → Prop
  | .asyncDisable tag req allocated => p = conf.partId tag ∧
      (conf.asyncDisableLazyLockOnAllThreads tag req allocated (s p)).2 = true
  | .tryWakeup => (s p).waits ∧ (s' p).isWaiting = false
  | _ => False

/-- Along the events, all counts of a partition are zero when a requester of it passes. -/
def Excludes : LazyLockState Tag Req → List (LazyLockEvent Tag Req) → Prop
  | _, [] => True
  | s, event :: events => ∀ s', conf.step s event = some s' →
      (∀ p, conf.Passes s s' p event → ∀ core ∈ conf.sortCoreIdxArr,
        ((s' p).hint core).getLazyLockCnt = 0) ∧ Excludes s' events

/-- Each event meets `MeetsEvent` in the state before it. -/
def EventsMeet : LazyLockState Tag Req → List (LazyLockEvent Tag Req) → Prop
  | _, [] => True
  | s, event :: events => conf.MeetsEvent s event ∧
      ∀ s', conf.step s event = some s' → EventsMeet s' events

/-- The words agree with the requests, and no thread counts while requesters pass. -/
def Quiet (part : LazyLockPart Tag Req) : Prop :=
  ∃ cnt, part.Agrees conf.sortCoreIdxArr cnt ∧
    (part.isNoRequest = false → part.isWaiting = false → ∀ core ∈ conf.sortCoreIdxArr, cnt core = 0)

variable {conf} {part : LazyLockPart Tag Req} {s s' : LazyLockState Tag Req}

omit [DecidableEq Tag] in
/-- No thread counts in a quiet partition whose requesters pass. -/
lemma Quiet.getLazyLockCnt (h : conf.Quiet part) (hpart : part.isNoRequest = false)
    (hwaiting : part.isWaiting = false) {core : ℕ} (hcore : core ∈ conf.sortCoreIdxArr) :
    (part.hint core).getLazyLockCnt = 0 := by
  obtain ⟨cnt, hagrees, hzero⟩ := h
  rw [(hagrees core hcore).getLazyLockCnt, hzero hpart hwaiting core hcore]

omit [DecidableEq Tag] in
/-- A change of one partition leaves the others quiet. -/
lemma quiet_update {p : LazyLockPartId} (h : ∀ q, conf.Quiet (s q)) (hpart : conf.Quiet part) :
    ∀ q, conf.Quiet (update s p part q) :=
  (forall_update_iff s fun _ part => conf.Quiet part).mpr ⟨hpart, fun q _ => h q⟩

omit [DecidableEq Tag] in
/-- A thread writes its own word; it may count up only while there are no requests. -/
lemma Quiet.setHint (h : conf.Quiet part) {core : ℕ} {hint : LazyLockHint}
    (hhint : ∀ {cnt}, (part.hint core).Holds cnt (!part.isNoRequest) →
      ∃ cnt', hint.Holds cnt' (!part.isNoRequest) ∧ (part.isNoRequest = false → cnt' ≤ cnt)) :
    conf.Quiet { part with hint := update part.hint core hint } := by
  obtain ⟨cnt, hagrees, hzero⟩ := h
  by_cases hmem : core ∈ conf.sortCoreIdxArr
  · obtain ⟨cnt', hholds, hle⟩ := hhint (hagrees core hmem)
    refine ⟨update cnt core cnt', fun c hc => ?_, fun hpart hwaiting c hc => ?_⟩
    · dsimp only
      by_cases hcore : c = core
      · rw [hcore, update_self, update_self]
        exact hholds
      · rw [update_of_ne hcore, update_of_ne hcore]
        exact hagrees c hc
    · have hold := hzero hpart hwaiting c hc
      by_cases hcore : c = core
      · rw [hcore] at hold ⊢
        rw [update_self]
        exact Nat.eq_zero_of_le_zero (hold ▸ hle hpart)
      · rwa [update_of_ne hcore]
  · refine ⟨cnt, fun c hc => ?_, hzero⟩
    have hcore : c ≠ core := fun heq => hmem (heq ▸ hc)
    dsimp only
    rw [update_of_ne hcore]
    exact hagrees c hc

/-- The first requester of a partition waits if a thread counts in it. -/
lemma quiet_asyncDisable (h : conf.Quiet part) (tag : Tag) (req : Req) (allocated : Bool) :
    conf.Quiet (conf.asyncDisableLazyLockOnAllThreads tag req allocated part).1 := by
  obtain ⟨cnt, hagrees, hzero⟩ := h
  refine ⟨cnt, agrees_asyncDisable hagrees tag req allocated, ?_⟩
  simp only [asyncDisableLazyLockOnAllThreads, accessLoop_eq conf.nodup]
  split_ifs with hfound halloc hno
  · exact hzero
  · exact hzero
  · intro _ hwait core hcore
    have hnot := List.any_eq_false.mp ((Bool.false_or _).symm.trans hwait) core hcore
    rw [← (hagrees core hcore).getLazyLockCnt]
    exact Nat.eq_zero_of_not_pos (of_decide_eq_false (Bool.eq_false_iff.mpr hnot))
  · exact fun _ => hzero (Bool.eq_false_iff.mpr hno)

/-- A requester that leaves changes no count. -/
lemma quiet_enable (h : conf.Quiet part) (tag : Tag) (req : Req) :
    conf.Quiet (conf.enableLazyLockOnAllThreads tag req part) := by
  obtain ⟨cnt, hagrees, hzero⟩ := h
  refine ⟨cnt, agrees_enable hagrees tag req, ?_⟩
  simp only [enableLazyLockOnAllThreads]
  split_ifs with hfound hempty
  · exact fun _ => hzero (isNoRequest_of_any hfound)
  · exact fun _ => hzero (isNoRequest_of_any hfound)
  · exact hzero

/-- After a call that succeeds there are requests and the waiting flag is not set. -/
lemma asyncDisable_succ {tag : Tag} {req : Req} {allocated : Bool}
    (h : (conf.asyncDisableLazyLockOnAllThreads tag req allocated part).2 = true) :
    let part' := (conf.asyncDisableLazyLockOnAllThreads tag req allocated part).1
    part'.isNoRequest = false ∧ part'.isWaiting = false := by
  simp only [asyncDisableLazyLockOnAllThreads] at h ⊢
  split_ifs at h ⊢ with hfound halloc hno
  · exact ⟨isNoRequest_of_any hfound, by simpa using h⟩
  · exact ⟨rfl, by simpa using h⟩
  · exact ⟨rfl, by simpa using h⟩

/-- A wake-up check that is as asked wakes no partition, or one without counts. -/
lemma tryWakeup_cases (hm : conf.MeetsEvent s .tryWakeup)
    (hstep : conf.step s .tryWakeup = some s') :
    s' = s ∨ ∃ p, (s p).waits ∧ s' = update s p { s p with isWaiting := false } ∧
      ∀ core ∈ conf.sortCoreIdxArr, ((s p).hint core).getLazyLockCnt = 0 := by
  cases hstep
  obtain ⟨_, hone⟩ := hm
  exact tryWakeupLoop_cases ((List.nodup_finRange 128).imp fun hne =>
    ⟨hne, fun hboth => hne ((hone _ hboth.1).trans (hone _ hboth.2).symm)⟩)

/-- Every event that is as asked keeps the partitions quiet. -/
lemma quiet_step (h : ∀ p, conf.Quiet (s p)) {event : LazyLockEvent Tag Req}
    (hm : conf.MeetsEvent s event) (hstep : conf.step s event = some s') :
    ∀ p, conf.Quiet (s' p) := by
  cases event with
  | increase core tag =>
    cases hstep
    refine quiet_update h ((h _).setHint fun hold =>
      ⟨_, hold.increase (hold.1 ▸ hm), fun hno => ?_⟩)
    simp [hno]
  | decrease core tag decreaseCnt =>
    obtain ⟨hint, hhint, rfl⟩ := Option.map_eq_some_iff.mp hstep
    exact quiet_update h ((h _).setHint fun hold =>
      ⟨_, hold.decrease hhint, fun _ => Nat.sub_le _ _⟩)
  | tryWakeup =>
    rcases tryWakeup_cases hm hstep with rfl | ⟨p, -, rfl, hzero⟩
    · exact h
    · obtain ⟨cnt, hagrees, -⟩ := h p
      refine quiet_update h ⟨cnt, hagrees, fun _ _ core hcore => ?_⟩
      rw [← (hagrees core hcore).getLazyLockCnt]
      exact hzero core hcore
  | asyncDisable tag req allocated =>
    cases hstep
    exact quiet_update h (quiet_asyncDisable (h _) tag req allocated)
  | enable tag req =>
    cases hstep
    exact quiet_update h (quiet_enable (h _) tag req)

/-- A requester that passes leaves its partition with requests and without the waiting flag. -/
lemma passes_zero (h : ∀ p, conf.Quiet (s p)) {event : LazyLockEvent Tag Req}
    (hm : conf.MeetsEvent s event) (hstep : conf.step s event = some s') {p : LazyLockPartId}
    (hpass : conf.Passes s s' p event) {core : ℕ} (hcore : core ∈ conf.sortCoreIdxArr) :
    ((s' p).hint core).getLazyLockCnt = 0 := by
  have hquiet := quiet_step h hm hstep p
  cases event with
  | increase | decrease | enable => exact hpass.elim
  | tryWakeup =>
    obtain ⟨hwaits, hflag⟩ := hpass
    refine hquiet.getLazyLockCnt ?_ hflag hcore
    simp only [waits, Bool.and_eq_true, Bool.not_eq_true'] at hwaits
    rcases tryWakeup_cases hm hstep with rfl | ⟨q, -, rfl, -⟩
    · exact hwaits.1
    · by_cases hp : p = q
      · subst hp
        simpa [isNoRequest] using hwaits.1
      · simpa [hp] using hwaits.1
  | asyncDisable tag req allocated =>
    obtain ⟨rfl, hsucc⟩ := hpass
    cases hstep
    obtain ⟨hno, hflag⟩ := asyncDisable_succ hsucc
    exact hquiet.getLazyLockCnt (by simpa [callStep] using hno) (by simpa [callStep] using hflag)
      hcore

/-- So a run that is as asked excludes counts where requesters pass. -/
lemma excludes_of_quiet : ∀ {events : List (LazyLockEvent Tag Req)} {s : LazyLockState Tag Req},
    (∀ p, conf.Quiet (s p)) → conf.EventsMeet s events → conf.Excludes s events
  | [], _, _, _ => trivial
  | _ :: _, _, h, ⟨hm, hrest⟩ => fun s' hstep =>
    ⟨fun _ hpass _ hcore => passes_zero h hm hstep hpass hcore,
      excludes_of_quiet (quiet_step h hm hstep) (hrest s' hstep)⟩

/-- Along every interleaving in which each wake-up check finds at most one partition waiting and
no count reaches the conflict bit, a strong requester passes only when no thread counts. -/
theorem excludes_of_eventsMeet (conf : LazyLockConf Tag Req)
    (cnt : LazyLockPartId → ℕ → Fin (2 ^ 63)) (events : List (LazyLockEvent Tag Req))
    (hmeet : conf.EventsMeet (start cnt) events) : conf.Excludes (start cnt) events :=
  excludes_of_quiet (fun p => ⟨fun core => cnt p core,
    fun core _ => ⟨rfl, (cnt p core).isLt, rfl⟩, fun hno => by cases hno⟩) hmeet

/-- Thread 0 counts and releases, and the requester that waited for it is woken. -/
theorem excludes_one_waiting :
    twoThreads.Excludes (start fun _ _ => 0)
      [.increase 0 0, .asyncDisable 0 () true, .decrease 0 0 1, .tryWakeup] := by
  refine excludes_of_eventsMeet _ _ _ ⟨show 0 + 1 < 2 ^ 63 by decide, ?_⟩
  rintro _ ⟨⟩
  refine ⟨trivial, ?_⟩
  rintro _ ⟨⟩
  refine ⟨trivial, ?_⟩
  rintro _ ⟨⟩
  exact ⟨⟨0, by decide +kernel⟩, fun _ _ => trivial⟩

/-- Threads 0 and 1 count in partitions 0 and 1, and requesters of both wait. The check after the
release by thread 0 finds no threads left for partition 1 and wakes its requester, too. -/
theorem not_excludes_two_waiting :
    ¬twoThreads.Excludes (start fun _ _ => 0)
      [.increase 0 0, .increase 1 1, .asyncDisable 0 () true, .asyncDisable 1 () true,
        .decrease 0 0 1, .tryWakeup] := by
  intro h
  obtain ⟨hzero, -⟩ := (((((h _ rfl).2 _ rfl).2 _ rfl).2 _ rfl).2 _ rfl).2 _ rfl
  have hcnt := hzero 1 ⟨by decide +kernel, by decide +kernel⟩ 1 (by decide)
  revert hcnt
  decide +kernel

end LazyLockConf

end DStore
