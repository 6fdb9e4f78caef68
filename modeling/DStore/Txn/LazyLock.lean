import DStore.Common.Types
import Mathlib.Data.List.FinRange

/-!
# Lazy locks

A thread counts its weak locks in a word of its own, one for each partition of the lock tags. The
first strong requester of a partition sets bit 63 of that word on all threads, which stops the
counting, and the requesters wait until all counts are zero. The last one to leave clears the bit.
-/

namespace DStore

open List Function Bool

/-- `LAZY_LOCK_POTENTIAL_CONFLICT`. -/
def lazyLockPotentialConflict : ℕ := 2 ^ 63

/-- `LazyLockHint`: two words of 64 bits, the thread's own count and the shared one. -/
structure LazyLockHint where
  localCnt : ℕ
  lazyLockHintBits : ℕ

namespace LazyLockHint

variable (hint : LazyLockHint)

/-- `GetLazyLockCnt`. -/
def getLazyLockCnt : ℕ := hint.lazyLockHintBits % lazyLockPotentialConflict

/-- Whether the conflict bit is set. -/
def hasConflict : Bool := hint.lazyLockHintBits.testBit 63

/-- `DisableLazyLock`, with the count it returns. -/
def disableLazyLock : LazyLockHint × ℕ :=
  ({ hint with lazyLockHintBits := hint.lazyLockHintBits ||| lazyLockPotentialConflict },
    hint.getLazyLockCnt)

/-- `EnableLazyLock`, which subtracts the bit and returns nothing. -/
def enableLazyLock : LazyLockHint × ℕ :=
  ({ hint with
    lazyLockHintBits := (hint.lazyLockHintBits + 2 ^ 64 - lazyLockPotentialConflict) % 2 ^ 64 }, 0)

/-- The word is the thread's count, with the bit on top when there is a conflict. -/
def Holds (cnt : ℕ) (conflict : Bool) : Prop :=
  hint.localCnt = cnt ∧ cnt < 2 ^ 63 ∧
    hint.lazyLockHintBits = cnt + if conflict then lazyLockPotentialConflict else 0

variable {hint} {cnt : ℕ} {conflict : Bool}

/-- Reading the count. -/
lemma Holds.getLazyLockCnt (h : hint.Holds cnt conflict) : hint.getLazyLockCnt = cnt := by
  obtain ⟨-, hlt, hbits⟩ := h
  simp only [LazyLockHint.getLazyLockCnt, lazyLockPotentialConflict, hbits]
  split <;> omega

/-- Reading the conflict bit. -/
lemma Holds.hasConflict (h : hint.Holds cnt conflict) : hint.hasConflict = conflict := by
  obtain ⟨-, hlt, hbits⟩ := h
  simp only [LazyLockHint.hasConflict, hbits, Nat.testBit_eq_decide_div_mod_eq,
    lazyLockPotentialConflict]
  cases conflict <;> simp <;> omega

/-- Disabling sets the bit and keeps the count. -/
lemma Holds.disable (h : hint.Holds cnt false) : hint.disableLazyLock.1.Holds cnt true := by
  obtain ⟨hcnt, hlt, hbits⟩ := h
  have hor := Nat.two_pow_add_eq_or_of_lt hlt 1
  rw [Nat.mul_one] at hor
  simp only [false_eq_true, if_false, Nat.add_zero] at hbits
  simp only [LazyLockHint.Holds, disableLazyLock, hbits, lazyLockPotentialConflict, if_true,
    Nat.or_comm cnt]
  omega

/-- Enabling clears it and keeps the count. -/
lemma Holds.enable (h : hint.Holds cnt true) : hint.enableLazyLock.1.Holds cnt false := by
  obtain ⟨hcnt, hlt, hbits⟩ := h
  simp only [LazyLockHint.Holds, enableLazyLock, hbits, lazyLockPotentialConflict,
    false_eq_true, if_true, if_false]
  omega

end LazyLockHint

/-- `LazyLockConflictRequest`. -/
structure LazyLockConflictRequest (Tag Req : Type) where
  lockTag : Tag
  lockRequest : Req

/-- One partition: the words of the threads by core, and its entries of `LazyLockConflictHint`. -/
structure LazyLockPart (Tag Req : Type) where
  hint : ℕ → LazyLockHint
  lockRequestList : List (LazyLockConflictRequest Tag Req)
  isWaiting : Bool

/-- Indices below `LAZY_LOCK_HINT_PART_CNT`. -/
abbrev LazyLockPartId := Fin 128

abbrev LazyLockState (Tag Req : Type) := LazyLockPartId → LazyLockPart Tag Req

/-- The loops that disable and enable lazy locks, over the threads the iterator has left: the
words, and `needWait`. -/
def accessLoop (access : LazyLockHint → LazyLockHint × ℕ) :
    List ℕ → (ℕ → LazyLockHint) → Bool → (ℕ → LazyLockHint) × Bool
  | [], hint, needWait => (hint, needWait)
  | core :: iter, hint, needWait =>
    accessLoop access iter (update hint core (access (hint core)).1)
      (needWait || decide (0 < (access (hint core)).2))

/-- The loop accesses the hint of every core once. -/
lemma accessLoop_eq {access : LazyLockHint → LazyLockHint × ℕ} :
    ∀ {iter : List ℕ} {hint : ℕ → LazyLockHint} {needWait : Bool}, iter.Nodup →
      accessLoop access iter hint needWait =
        (fun core => if core ∈ iter then (access (hint core)).1 else hint core,
          needWait || iter.any fun core => decide (0 < (access (hint core)).2))
  | [], _, _, _ => by simp [accessLoop]
  | core :: iter, hint, needWait, hn => by
    obtain ⟨hnot, hn⟩ := nodup_cons.mp hn
    have hother : ∀ c ∈ iter, c ≠ core := fun c hc heq => hnot (heq ▸ hc)
    rw [accessLoop, accessLoop_eq hn, any_cons, ← Bool.or_assoc]
    refine Prod.ext (funext fun c => ?_) (congrArg (Bool.or _) (Bool.eq_iff_iff.mpr ?_))
    · by_cases hc : c = core
      · simp [hc, hnot]
      · simp [hc]
    · simp only [any_eq_true]
      exact exists_congr fun c => and_congr_right fun hc => by rw [update_of_ne (hother c hc)]

namespace LazyLockPart

variable {Tag Req : Type} (part : LazyLockPart Tag Req)
  (isValid : LazyLockConflictRequest Tag Req → Bool)

/-- `IsNoRequest`. -/
def isNoRequest : Bool := part.lockRequestList.isEmpty

/-- `EnableLazyLock` on the threads the iterator has left. -/
def enableAll (iter : List ℕ) : LazyLockPart Tag Req :=
  { part with hint := (accessLoop LazyLockHint.enableLazyLock iter part.hint false).1 }

/-- The requests that are not valid any more are deleted. -/
def removed : LazyLockPart Tag Req :=
  { part with lockRequestList := part.lockRequestList.filter isValid }

/-- There are requests and all of them are invalid. -/
def emptied : Bool := !part.isNoRequest && (part.removed isValid).isNoRequest

/-- The words of the threads are their counts, with the bit set when there are requests. -/
def Agrees (threads : List ℕ) (cnt : ℕ → ℕ) : Prop :=
  ∀ core ∈ threads, (part.hint core).Holds (cnt core) (!part.isNoRequest)

variable {part} {threads : List ℕ} {cnt : ℕ → ℕ}

lemma isNoRequest_of_any {f : LazyLockConflictRequest Tag Req → Bool}
    (h : part.lockRequestList.any f = true) : part.isNoRequest = false := by
  obtain ⟨request, hmem, -⟩ := any_eq_true.mp h
  simpa [isNoRequest] using ne_nil_of_mem hmem

/-- Only whether there are requests counts. -/
lemma Agrees.of_isNoRequest {requests : List (LazyLockConflictRequest Tag Req)}
    (h : part.Agrees threads cnt) (hrequests : part.isNoRequest = requests.isEmpty) :
    { part with lockRequestList := requests }.Agrees threads cnt := by
  intro core hcore
  have hold := h core hcore
  rwa [hrequests] at hold

/-- The last requests go, and the bits with them. -/
lemma Agrees.enableAll {requests : List (LazyLockConflictRequest Tag Req)}
    (h : part.Agrees threads cnt) (hn : threads.Nodup) (hpart : part.isNoRequest = false)
    (hrequests : requests = []) :
    ({ part with lockRequestList := requests }.enableAll threads).Agrees threads cnt := by
  intro core hcore
  have hold := h core hcore
  rw [hpart] at hold
  simpa [LazyLockPart.enableAll, accessLoop_eq hn, hcore, isNoRequest, hrequests] using hold.enable

end LazyLockPart

/-- The threads, the hash of tags, and whether `Compare` returns 0. -/
structure LazyLockConf (Tag Req : Type) where
  sortCoreIdxArr : List ℕ
  nodup : sortCoreIdxArr.Nodup
  hashCode : Tag → ℕ
  compare : Req → Req → Bool

/-- A call under the conflict-hint lock; `allocated` says whether `AddRequest` gets its memory. -/
inductive LazyLockCall (Tag Req : Type) where
  | asyncDisable (tag : Tag) (req : Req) (allocated : Bool)
  | enable (tag : Tag) (req : Req)
  | removeInvalid (isValid : LazyLockConflictRequest Tag Req → Bool)

section

variable {Tag Req : Type}

/-- A `RemoveInvalidRequests` empties the list of at most one partition. -/
def LazyLockCall.Meets (s : LazyLockState Tag Req) : LazyLockCall Tag Req → Prop
  | .removeInvalid isValid => ∃ p, ∀ q, (s q).emptied isValid → q = p
  | _ => True

/-- The loop of `RemoveInvalidRequests`: one iterator serves all partitions. -/
def removeInvalidLoop (isValid : LazyLockConflictRequest Tag Req → Bool) :
    List LazyLockPartId → LazyLockState Tag Req → List ℕ → LazyLockState Tag Req
  | [], s, _ => s
  | p :: ps, s, iter =>
    if (s p).isNoRequest then removeInvalidLoop isValid ps s iter
    else if ((s p).removed isValid).isNoRequest then
      removeInvalidLoop isValid ps (update s p (((s p).removed isValid).enableAll iter)) []
    else removeInvalidLoop isValid ps (update s p ((s p).removed isValid)) iter

/-- A step in one partition leaves the others. -/
lemma agrees_update {threads : List ℕ} {cnt : LazyLockPartId → ℕ → ℕ}
    {s : LazyLockState Tag Req} (h : ∀ p, (s p).Agrees threads (cnt p)) {p : LazyLockPartId}
    {part : LazyLockPart Tag Req} (hpart : part.Agrees threads (cnt p)) :
    ∀ q, (update s p part q).Agrees threads (cnt q) :=
  (forall_update_iff s fun q part => part.Agrees threads (cnt q)).mpr ⟨hpart, fun q _ => h q⟩

/-- While at most one partition is emptied, that one finds all threads in the iterator. -/
lemma agrees_removeInvalidLoop {threads : List ℕ} (hn : threads.Nodup)
    {isValid : LazyLockConflictRequest Tag Req → Bool} {cnt : LazyLockPartId → ℕ → ℕ}
    {empty : LazyLockPartId → Bool} : ∀ {ps : List LazyLockPartId} {s : LazyLockState Tag Req}
    {iter : List ℕ}, (∀ p ∈ ps, (s p).emptied isValid = empty p) →
      ps.Pairwise (fun p q => p ≠ q ∧ ¬(empty p ∧ empty q)) →
      (∀ p ∈ ps, empty p → iter = threads) → (∀ p, (s p).Agrees threads (cnt p)) →
        ∀ p, (removeInvalidLoop isValid ps s iter p).Agrees threads (cnt p)
  | [], _, _, _, _, _, h => h
  | p :: ps, s, iter, hempty, hpair, hiter, h => by
    obtain ⟨hp, hempty⟩ := forall_mem_cons.mp hempty
    obtain ⟨hfirst, hpair⟩ := pairwise_cons.mp hpair
    obtain ⟨hall, hiter⟩ := forall_mem_cons.mp hiter
    have hkept : ∀ part, ∀ q ∈ ps, (update s p part q).emptied isValid = empty q := by
      intro part q hq
      rw [update_of_ne (hfirst q hq).1.symm]
      exact hempty q hq
    rw [removeInvalidLoop]
    split_ifs with hno hnone
    · exact agrees_removeInvalidLoop hn hempty hpair hiter h
    · have hemptied : empty p := by
        rw [← hp]
        simp [LazyLockPart.emptied, hno, hnone]
      refine agrees_removeInvalidLoop hn (hkept _) hpair
        (fun q hq hlater => absurd ⟨hemptied, hlater⟩ (hfirst q hq).2) ?_
      rw [hall hemptied]
      exact agrees_update h
        ((h p).enableAll hn (eq_false_iff.mpr hno) (isEmpty_iff.mp hnone))
    · refine agrees_removeInvalidLoop hn (hkept _) hpair hiter (agrees_update h ?_)
      exact (h p).of_isNoRequest
        ((eq_false_iff.mpr hno).trans (eq_false_iff.mpr hnone).symm)

end

namespace LazyLockConf

open LazyLockPart

variable {Tag Req : Type} (conf : LazyLockConf Tag Req)

/-- `RemoveInvalidRequests`. -/
def removeInvalidRequests (isValid : LazyLockConflictRequest Tag Req → Bool)
    (s : LazyLockState Tag Req) : LazyLockState Tag Req :=
  removeInvalidLoop isValid (finRange 128) s conf.sortCoreIdxArr

/-- The conflict bits are set exactly in the partitions with requests. -/
def BitsAgree (s : LazyLockState Tag Req) : Prop :=
  ∀ p, ∀ core ∈ conf.sortCoreIdxArr, ((s p).hint core).hasConflict = !(s p).isNoRequest

variable [DecidableEq Tag]

/-- `GetLazyLockPartIdFromTagHash`. -/
def partId (tag : Tag) : LazyLockPartId := Fin.ofNat 128 (conf.hashCode tag)

/-- The test of `FindRequest`. -/
def isMatch (tag : Tag) (req : Req) (request : LazyLockConflictRequest Tag Req) : Bool :=
  decide (request.lockTag = tag) && conf.compare request.lockRequest req

/-- `AsyncDisableLazyLockOnAllThreads` in the partition of the tag, and whether it returns
`DSTORE_SUCC`. -/
def asyncDisableLazyLockOnAllThreads (tag : Tag) (req : Req) (allocated : Bool)
    (part : LazyLockPart Tag Req) : LazyLockPart Tag Req × Bool :=
  if part.lockRequestList.any (conf.isMatch tag req) then (part, !part.isWaiting)
  else if !allocated then (part, false)
  else
    let added := { part with lockRequestList := ⟨tag, req⟩ :: part.lockRequestList }
    if part.isNoRequest then
      let (hint, needWait) :=
        accessLoop LazyLockHint.disableLazyLock conf.sortCoreIdxArr part.hint false
      ({ added with hint := hint, isWaiting := needWait }, !needWait)
    else (added, !part.isWaiting)

/-- `EnableLazyLockOnAllThreads` in the partition of the tag. -/
def enableLazyLockOnAllThreads (tag : Tag) (req : Req) (part : LazyLockPart Tag Req) :
    LazyLockPart Tag Req :=
  if part.lockRequestList.any (conf.isMatch tag req) then
    let deleted :=
      { part with lockRequestList := part.lockRequestList.eraseP (conf.isMatch tag req) }
    if deleted.isNoRequest then deleted.enableAll conf.sortCoreIdxArr else deleted
  else part

def callStep (s : LazyLockState Tag Req) : LazyLockCall Tag Req → LazyLockState Tag Req
  | .asyncDisable tag req allocated =>
    update s (conf.partId tag)
      (conf.asyncDisableLazyLockOnAllThreads tag req allocated (s (conf.partId tag))).1
  | .enable tag req =>
    update s (conf.partId tag) (conf.enableLazyLockOnAllThreads tag req (s (conf.partId tag)))
  | .removeInvalid isValid => conf.removeInvalidRequests isValid s

def CountsKept (s s' : LazyLockState Tag Req) : Prop :=
  ∀ p, ∀ core ∈ conf.sortCoreIdxArr,
    ((s' p).hint core).getLazyLockCnt = ((s p).hint core).getLazyLockCnt

/-- Each call leaves the bits in agreement and the counts as they were. -/
def BitConserved : LazyLockState Tag Req → List (LazyLockCall Tag Req) → Prop
  | _, [] => True
  | s, call :: calls => (conf.BitsAgree (conf.callStep s call) ∧
      conf.CountsKept s (conf.callStep s call)) ∧ BitConserved (conf.callStep s call) calls

/-- Each call meets `Meets` in the state before it. -/
def CallsMeet : LazyLockState Tag Req → List (LazyLockCall Tag Req) → Prop
  | _, [] => True
  | s, call :: calls => call.Meets s ∧ CallsMeet (conf.callStep s call) calls

/-- No requests, and the counts of the threads. -/
def start (cnt : LazyLockPartId → ℕ → Fin (2 ^ 63)) (p : LazyLockPartId) :
    LazyLockPart Tag Req :=
  ⟨fun core => ⟨cnt p core, cnt p core⟩, [], false⟩

variable {conf} {part : LazyLockPart Tag Req} {cnt : ℕ → ℕ}

/-- Disabling keeps bits and requests in agreement. -/
lemma agrees_asyncDisable (h : part.Agrees conf.sortCoreIdxArr cnt) (tag : Tag) (req : Req)
    (allocated : Bool) : (conf.asyncDisableLazyLockOnAllThreads tag req allocated part).1.Agrees
      conf.sortCoreIdxArr cnt := by
  simp only [asyncDisableLazyLockOnAllThreads, accessLoop_eq conf.nodup]
  split_ifs with hfound halloc hno
  · exact h
  · exact h
  · intro core hcore
    have hold := h core hcore
    rw [hno] at hold
    simpa [hcore, isNoRequest] using hold.disable
  · exact h.of_isNoRequest (eq_false_iff.mpr hno)

/-- So does enabling. -/
lemma agrees_enable (h : part.Agrees conf.sortCoreIdxArr cnt) (tag : Tag) (req : Req) :
    (conf.enableLazyLockOnAllThreads tag req part).Agrees conf.sortCoreIdxArr cnt := by
  simp only [enableLazyLockOnAllThreads]
  split_ifs with hfound hempty
  · exact h.enableAll conf.nodup (isNoRequest_of_any hfound) (isEmpty_iff.mp hempty)
  · refine h.of_isNoRequest ?_
    rw [isNoRequest_of_any hfound]
    exact (eq_false_iff.mpr hempty).symm
  · exact h

/-- So does every call. -/
lemma agrees_callStep {s : LazyLockState Tag Req} {cnt : LazyLockPartId → ℕ → ℕ}
    (h : ∀ p, (s p).Agrees conf.sortCoreIdxArr (cnt p)) : ∀ {call : LazyLockCall Tag Req},
      call.Meets s → ∀ p, (conf.callStep s call p).Agrees conf.sortCoreIdxArr (cnt p)
  | .asyncDisable tag req allocated, _ =>
    agrees_update h (agrees_asyncDisable (h _) tag req allocated)
  | .enable tag req, _ => agrees_update h (agrees_enable (h _) tag req)
  | .removeInvalid _, ⟨_, hone⟩ =>
    agrees_removeInvalidLoop conf.nodup (fun _ _ => rfl) ((nodup_finRange 128).imp fun hne =>
      ⟨hne, fun hboth => hne ((hone _ hboth.1).trans (hone _ hboth.2).symm)⟩) (fun _ _ _ => rfl) h

/-- So they agree all along a run. -/
lemma bitConserved_of_agrees {cnt : LazyLockPartId → ℕ → ℕ} :
    ∀ {calls : List (LazyLockCall Tag Req)} {s : LazyLockState Tag Req},
      (∀ p, (s p).Agrees conf.sortCoreIdxArr (cnt p)) → conf.CallsMeet s calls →
        conf.BitConserved s calls
  | [], _, _, _ => trivial
  | _ :: _, _, h, ⟨hm, hrest⟩ => by
    have h' := agrees_callStep h hm
    refine ⟨⟨fun p core hcore => (h' p core hcore).hasConflict, fun p core hcore => ?_⟩,
      bitConserved_of_agrees h' hrest⟩
    rw [(h' p core hcore).getLazyLockCnt, (h p core hcore).getLazyLockCnt]

/-- From a start with any counts, a sequence of calls conserves the conflict bits and the counts
when no `RemoveInvalidRequests` in it empties the lists of two partitions. -/
theorem bitConserved_of_callsMeet (conf : LazyLockConf Tag Req)
    (cnt : LazyLockPartId → ℕ → Fin (2 ^ 63)) (calls : List (LazyLockCall Tag Req))
    (hmeet : conf.CallsMeet (start cnt) calls) : conf.BitConserved (start cnt) calls :=
  bitConserved_of_agrees (fun p core _ => ⟨rfl, (cnt p core).isLt, rfl⟩) hmeet

/-- Two threads; tags are their own hash codes. -/
def twoThreads : LazyLockConf ℕ Unit := ⟨[0, 1], by decide, id, fun _ _ => true⟩

/-- The request in partition 0 becomes invalid, the one in partition 1 stays. -/
theorem bitConserved_one_emptied :
    twoThreads.BitConserved (start fun _ _ => 3)
      [.asyncDisable 0 () true, .asyncDisable 1 () true, .removeInvalid (·.lockTag = 1)] :=
  bitConserved_of_callsMeet _ _ _ ⟨trivial, trivial, ⟨0, by decide +kernel⟩, trivial⟩

/-- Requests in partitions 0 and 1 become invalid together: partition 1 keeps its bit. -/
theorem not_bitConserved_two_emptied :
    ¬twoThreads.BitConserved (start fun _ _ => 0)
      [.asyncDisable 0 () true, .asyncDisable 1 () true, .removeInvalid fun _ => false] := by
  rintro ⟨-, -, ⟨hbits, -⟩, -⟩
  have hbit := hbits 1 0 (by decide)
  revert hbit
  decide +kernel

end LazyLockConf

end DStore
