import DStore.Txn.CsnUnique

/-!
# Csns follow the order of the calls

A call that starts after another one has returned gets the larger csn, whatever the other threads do
and however often the process has crashed in between.
-/

namespace DStore.CsnHistory

variable {hist hist₁ hist₂ hist₃ : CsnHistory} {thread stored csn : ℕ} {events : List CsnEvent}

/-- Another thread does not change the csn that a thread holds. -/
lemma curCsn_of_setPhase {other : ℕ} {phase : CsnPhase}
    (hcur : ((hist.setPhase other phase).phase thread).curCsn = some csn)
    (hphase : phase.curCsn = some csn → (hist.phase other).curCsn = some csn) :
    (hist.phase thread).curCsn = some csn := by
  rcases held_setPhase hcur with ⟨rfl, hnew⟩ | ⟨-, hold⟩
  · exact hphase hnew
  · exact hold

/-- Only `fetch` gives a call its csn. -/
lemma curCsn_of_step {event : CsnEvent} (hevent : event ≠ .fetch thread)
    (hstep : hist.step event = some hist₁) (hcur : (hist₁.phase thread).curCsn = some csn) :
    (hist.phase thread).curCsn = some csn := by
  cases event with
  | crash =>
    cases hstep
    cases hcur
  | restart | peek =>
    dsimp only [step] at hstep
    split at hstep
    all_goals cases hstep
    exact hcur
  | fetch other =>
    dsimp only [step] at hstep
    split at hstep
    · cases hstep
      rcases held_setPhase hcur with ⟨rfl, -⟩ | ⟨-, hold⟩
      · exact absurd rfl hevent
      · exact hold
    · cases hstep
  | check other =>
    dsimp only [step] at hstep
    split at hstep
    next hphase =>
      cases hstep
      refine curCsn_of_setPhase hcur fun hnew => ?_
      rw [hphase]
      split_ifs at hnew
      · split at hnew
        · exact hnew
        · exact hnew
      · exact hnew
    · cases hstep
  | reserve other write =>
    dsimp only [step] at hstep
    split at hstep
    next hphase =>
      split at hstep
      · cases hstep
        exact curCsn_of_setPhase hcur fun hnew => by cases hnew
      · cases hstep
        exact curCsn_of_setPhase hcur fun hnew => by rw [hphase]; exact hnew
    · cases hstep
  | finish other =>
    dsimp only [step] at hstep
    split at hstep
    · split_ifs at hstep
      cases hstep
      exact curCsn_of_setPhase hcur fun hnew => by cases hnew
    · cases hstep

/-- A csn that is held without a fetch was held before. -/
lemma curCsn_of_run (hevents : .fetch thread ∉ events) (hrun : run events hist = some hist₁)
    (hcur : (hist₁.phase thread).curCsn = some csn) : (hist.phase thread).curCsn = some csn := by
  induction events generalizing hist with
  | nil =>
    cases hrun
    exact hcur
  | cons event events ih =>
    obtain ⟨hnot, hrest⟩ := not_or.mp (mt List.mem_cons.mpr hevents)
    obtain ⟨mid, hstep, hrun⟩ := Option.bind_eq_some_iff.mp hrun
    exact curCsn_of_step (Ne.symm hnot) hstep (ih hrest hrun)

/-- The csn of a call is above all csns that were returned before the call. -/
theorem issued_lt_later (h : hist.Reachable stored)
    (hfetch : hist.step (.fetch thread) = some hist₁) (hrun : run events hist₁ = some hist₂)
    (hevents : .fetch thread ∉ events) (hfinish : hist₂.step (.finish thread) = some hist₃) :
    ∃ csn, hist₃.issued = csn :: hist₂.issued ∧ ∀ old ∈ hist.issued, old < csn := by
  dsimp only [step] at hfetch hfinish
  split at hfinish
  next _ curCsn _ hphase =>
    split_ifs at hfinish
    cases hfinish
    refine ⟨curCsn, rfl, ?_⟩
    have hcur := curCsn_of_run hevents hrun (by rw [hphase]; rfl)
    split at hfetch
    next mgr hmgr _ =>
      cases hfetch
      -- the call has taken the counter, which is above all returned csns
      have hnext : mgr.nextCsn = curCsn := by simpa [setPhase, CsnPhase.curCsn] using hcur
      exact hnext ▸ h.inv.issued_lt mgr hmgr
    · cases hfetch
  · cases hfinish

/-- The other call has returned 21, and then the process has crashed. -/
theorem issued_lt_later_after_crash : ∃ hist hist₂ hist₃ : CsnHistory, hist.issued = [21] ∧
    ∃ csn, hist₃.issued = csn :: hist₂.issued ∧ ∀ old ∈ hist.issued, old < csn := by
  have h : ∀ hist, run (crashBetweenCalls.take 7) (start 20) = some hist → hist.Reachable 20 :=
    fun _ => Reachable.run .start (by decide)
  exact ⟨_, _, _, rfl, @issued_lt_later _ _ _ _ 1 20 [.check 1, .reserve 1 .done] (h _ rfl) rfl rfl
    (by decide) rfl⟩

end DStore.CsnHistory
