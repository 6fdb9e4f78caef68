import Mathlib.Order.Nat

/-!
# Scheduled runs

A system of processes of which a schedule picks one at a time. A schedule is fair to a process if
it picks it again and again. What every step keeps holds along every run; what some process brings
nearer whenever it is picked, and no other process undoes, comes about in every run that is fair
to it.
-/

namespace FairSchedule

variable {ι α : Type*} (step : ι → α → α) (schedule : ℕ → ι) (start : α)

/-- The state after a number of steps. -/
def run : ℕ → α
  | 0 => start
  | t + 1 => step (schedule t) (run t)

/-- The schedule picks the process again and again. -/
def FairTo (i : ι) : Prop := ∀ t, ∃ t' ≥ t, schedule t' = i

variable {step schedule start}

/-- The invariant rule. -/
theorem run_invariant {P : α → Prop} (hstart : P start) (hstep : ∀ i a, P a → P (step i a))
    (t : ℕ) : P (run step schedule start t) := by
  induction t with
  | zero => exact hstart
  | succ t ih => exact hstep _ _ ih

/-- What every step keeps still holds later in the run. -/
theorem run_stable {P : α → Prop} (hstep : ∀ i a, P a → P (step i a)) {t t' : ℕ} (hle : t ≤ t')
    (ht : P (run step schedule start t)) : P (run step schedule start t') := by
  induction t', hle using Nat.le_induction with
  | base => exact ht
  | succ t' _ ih => exact hstep _ _ ih

/-- The progress rule: from `P`, every step reaches `Q` or keeps `P` without raising the measure,
and the steps of `i` lower it. -/
theorem eventually_of_helpful {P Q : α → Prop} (measure : α → ℕ) {i : ι} (hfair : FairTo schedule i)
    (hstep : ∀ j a, P a → Q (step j a) ∨ P (step j a) ∧ measure (step j a) ≤ measure a)
    (hhelp : ∀ a, P a → Q (step i a) ∨ measure (step i a) < measure a) {t : ℕ}
    (hP : P (run step schedule start t)) : ∃ t' ≥ t, Q (run step schedule start t') := by
  generalize hm : measure (run step schedule start t) = m
  induction m using Nat.strong_induction_on generalizing t with
  | _ m ih =>
    obtain ⟨t1, ht1, hpick⟩ := hfair t
    -- up to the next turn of `i` nothing is lost
    have hwait : ∀ t2, t ≤ t2 → t2 ≤ t1 → (∃ t' ≥ t, Q (run step schedule start t')) ∨
        P (run step schedule start t2) ∧ measure (run step schedule start t2) ≤ m := by
      intro t2 hle
      induction t2, hle using Nat.le_induction with
      | base => exact fun _ => Or.inr ⟨hP, hm.le⟩
      | succ t2 hle ihw =>
        intro hlt
        rcases ihw (by omega) with hdone | ⟨hP2, hm2⟩
        · exact Or.inl hdone
        · rcases hstep (schedule t2) _ hP2 with hQ | ⟨hP3, hm3⟩
          · exact Or.inl ⟨t2 + 1, by omega, hQ⟩
          · exact Or.inr ⟨hP3, hm3.trans hm2⟩
    rcases hwait t1 ht1 le_rfl with hdone | ⟨hP1, hm1⟩
    · exact hdone
    · have hnext : run step schedule start (t1 + 1) =
          step i (run step schedule start t1) := by rw [run, hpick]
      rcases hstep i _ hP1 with hQ | ⟨hP2, -⟩
      · exact ⟨t1 + 1, by omega, hnext ▸ hQ⟩
      · rcases hhelp _ hP1 with hQ | hlt
        · exact ⟨t1 + 1, by omega, hnext ▸ hQ⟩
        · rw [← hnext] at hP2 hlt
          obtain ⟨t', ht', hQ⟩ := ih _ (lt_of_lt_of_le hlt hm1) hP2 rfl
          exact ⟨t', by omega, hQ⟩

end FairSchedule
