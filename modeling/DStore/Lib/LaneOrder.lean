import Mathlib.Data.List.Basic

/-!
# Redoing a log out of order

A log is a list of actions on a state. An action can be taken, or it has to wait. Each action is in
a lane, and the actions of a lane are taken in log order; otherwise the order is free. If an action
and a later one of another lane, both ready, can be taken in either order with one result, then
every order leads to the state that the log order leads to, and the first action of the log that
is left is always ready.
-/

namespace LaneOrder

open List

variable {σ α κ : Type*} [DecidableEq κ]

/-- Of two actions that are both ready, each stays ready when the other is taken, and the order does
not matter. -/
def Diamond (step : σ → α → Option σ) (first second : α) : Prop :=
  ∀ s s₁ s₂, step s first = some s₁ → step s second = some s₂ →
    ∃ t, step s₁ second = some t ∧ step s₂ first = some t

/-- The actions of one lane. -/
def inLane (lane : α → κ) (l : κ) (actions : List α) : List α :=
  actions.filter fun action => lane action = l

/-- The order takes the actions of every lane as the log has them, up to some place. -/
def Follows (lane : α → κ) (order log : List α) : Prop :=
  ∀ l, inLane lane l order <+: inLane lane l log

variable {step : σ → α → Option σ} {lane : α → κ} {l : κ} {first action : α}
  {actions front back rest order log : List α} {s s₁ t u : σ}

@[simp]
lemma inLane_nil : inLane lane l [] = [] := rfl

@[simp]
lemma inLane_append : inLane lane l (front ++ back) = inLane lane l front ++ inLane lane l back :=
  filter_append ..

lemma inLane_cons : inLane lane l (first :: rest) =
    if lane first = l then first :: inLane lane l rest else inLane lane l rest := by
  simp [inLane, filter_cons]

/-- A lane that no action is in is empty. -/
lemma inLane_eq_nil (h : ∀ action ∈ actions, lane action ≠ l) : inLane lane l actions = [] :=
  filter_eq_nil_iff.2 fun action ha => by simpa using h action ha

lemma mem_inLane : action ∈ inLane lane l actions ↔ action ∈ actions ∧ lane action = l := by
  simp [inLane]

/-- The order of the two actions does not matter. -/
lemma Diamond.symm (h : Diamond step first action) : Diamond step action first := by
  intro s s₁ s2 h1 h2
  obtain ⟨t, ht1, ht2⟩ := h s s2 s₁ h2 h1
  exact ⟨t, ht2, ht1⟩

/-- An action that commutes with each action of a run commutes with the run. -/
lemma Diamond.pass (hdiamond : ∀ action ∈ actions, Diamond step first action)
    (hfirst : step s first = some s₁) (hrun : actions.foldlM step s = some t) :
    ∃ u, step t first = some u ∧ actions.foldlM step s₁ = some u := by
  induction actions generalizing s s₁ with
  | nil =>
    cases hrun
    exact ⟨s₁, hfirst, rfl⟩
  | cons action actions ih =>
    rw [foldlM_cons] at hrun
    obtain ⟨s2, haction, hrun⟩ := Option.bind_eq_some_iff.1 hrun
    obtain ⟨u, hu1, hu2⟩ := hdiamond action mem_cons_self s s₁ s2 hfirst haction
    obtain ⟨v, hv1, hv2⟩ := ih (fun a ha => hdiamond a (mem_cons_of_mem _ ha)) hu2 hrun
    refine ⟨v, hv1, ?_⟩
    rw [foldlM_cons, hu1]
    exact hv2

lemma Follows.mem (h : Follows lane order log) (haction : action ∈ order) : action ∈ log :=
  (mem_inLane.1 ((h (lane action)).subset (mem_inLane.2 ⟨haction, rfl⟩))).1

/-- The first action of the log is the first of its lane in the order. -/
lemma Follows.split (h : Follows lane order (first :: rest))
    (htaken : inLane lane (lane first) order ≠ []) :
    ∃ front back, order = front ++ first :: back ∧ ∀ action ∈ front, lane action ≠ lane first := by
  obtain ⟨tail, htail⟩ := h (lane first)
  rw [inLane_cons, if_pos rfl] at htail
  obtain ⟨head, others, hhead⟩ := exists_cons_of_ne_nil htaken
  rw [hhead, cons_append, cons.injEq] at htail
  obtain ⟨front, back, rfl, hfront, -, -⟩ := filter_eq_cons_iff.1 hhead
  exact ⟨front, back, by rw [htail.1], fun action ha => by simpa using hfront action ha⟩

section

variable (hfront : ∀ action ∈ front, lane action ≠ lane first)
include hfront

lemma inLane_front : inLane lane l (front ++ first :: back) =
    if lane first = l then first :: inLane lane l (front ++ back)
    else inLane lane l (front ++ back) := by
  rw [inLane_append, inLane_append, inLane_cons]
  split_ifs with hlane
  · rw [inLane_eq_nil (hlane ▸ hfront), nil_append, nil_append]
  · rfl

/-- Without that action the order follows the rest of the log. -/
lemma Follows.tail (h : Follows lane (front ++ first :: back) (first :: rest)) :
    Follows lane (front ++ back) rest := by
  intro l
  have hl := h l
  rw [inLane_front hfront, inLane_cons] at hl
  split_ifs at hl
  · exact (cons_prefix_cons.1 hl).2
  · exact hl

/-- Removing an action from the order and from the log keeps the lanes equal. -/
lemma inLane_remove :
    inLane lane l (front ++ first :: back) = inLane lane l (first :: rest) ↔
      inLane lane l (front ++ back) = inLane lane l rest := by
  rw [inLane_front hfront, inLane_cons]
  split_ifs
  · rw [cons.injEq, and_iff_right rfl]
  · rfl

/-- The actions before it in the order commute with it. -/
lemma Follows.diamond (h : Follows lane order (first :: rest))
    (hlog : ∀ action ∈ rest, lane first ≠ lane action → Diamond step first action)
    (hsub : ∀ action ∈ front, action ∈ order) :
    ∀ action ∈ front, Diamond step first action := by
  intro action ha
  rcases mem_cons.1 (h.mem (hsub action ha)) with rfl | hrest
  · exact absurd rfl (hfront action ha)
  · exact hlog action hrest (hfront action ha).symm

end

/-- So it may be done first. -/
lemma foldlM_remove (hdiamond : ∀ action ∈ front, Diamond step first action)
    (hfirst : step s first = some s₁) (hrun : (front ++ first :: back).foldlM step s = some t) :
    (front ++ back).foldlM step s₁ = some t := by
  rw [foldlM_append] at hrun
  obtain ⟨u, hfront, hrun⟩ := Option.bind_eq_some_iff.1 hrun
  rw [foldlM_cons] at hrun
  obtain ⟨v, hu, hback⟩ := Option.bind_eq_some_iff.1 hrun
  obtain ⟨w, hw, hpass⟩ := Diamond.pass hdiamond hfirst hfront
  rw [hu] at hw
  cases hw
  rw [foldlM_append, hpass]
  exact hback

section

variable
    (hlog : log.Pairwise fun first action => lane first ≠ lane action → Diamond step first action)
include hlog

/-- An order that takes the actions of every lane as the log has them ends where the log ends. -/
theorem foldlM_eq (hall : ∀ l, inLane lane l order = inLane lane l log)
    (hserial : log.foldlM step s = some t) (horder : order.foldlM step s = some u) : u = t := by
  induction log generalizing s order with
  | nil =>
    have hnil : order = [] := eq_nil_iff_forall_not_mem.2 fun action ha =>
      not_mem_nil (hall (lane action) ▸ mem_inLane.2 ⟨ha, rfl⟩)
    subst hnil
    exact Option.some.inj (horder.symm.trans hserial)
  | cons first rest ih =>
    rw [pairwise_cons] at hlog
    rw [foldlM_cons] at hserial
    obtain ⟨s₁, hfirst, hserial⟩ := Option.bind_eq_some_iff.1 hserial
    have hfollows : Follows lane order (first :: rest) := fun l => hall l ▸ prefix_rfl
    have htaken : inLane lane (lane first) order ≠ [] := by
      rw [hall, inLane_cons, if_pos rfl]
      exact cons_ne_nil _ _
    obtain ⟨front, back, rfl, hfront⟩ := hfollows.split htaken
    have hdiamond := hfollows.diamond hfront hlog.1 fun a ha => mem_append_left _ ha
    exact ih hlog.2 (fun l => (inLane_remove hfront).1 (hall l)) hserial
      (foldlM_remove hdiamond hfirst horder)

/-- The first action of the log that an order has not taken is ready. -/
theorem exists_ready (hfollows : Follows lane order log) (hserial : log.foldlM step s = some t)
    (horder : order.foldlM step s = some u) (hleft : ∃ l, inLane lane l order ≠ inLane lane l log) :
    ∃ action ∈ log, Follows lane (order ++ [action]) log ∧ (step u action).isSome := by
  induction log generalizing s order with
  | nil =>
    obtain ⟨l, hl⟩ := hleft
    exact absurd (prefix_nil.1 (hfollows l)) hl
  | cons first rest ih =>
    rw [pairwise_cons] at hlog
    rw [foldlM_cons] at hserial
    obtain ⟨s₁, hfirst, hserial⟩ := Option.bind_eq_some_iff.1 hserial
    by_cases htaken : inLane lane (lane first) order = []
    · -- the first action itself is left, and those taken are of other lanes
      have hother : ∀ action ∈ order, lane action ≠ lane first := fun action ha heq =>
        not_mem_nil (htaken ▸ mem_inLane.2 ⟨ha, heq⟩)
      have hdiamond := hfollows.diamond hother hlog.1 fun _ ha => ha
      obtain ⟨v, hv, -⟩ := Diamond.pass hdiamond hfirst horder
      refine ⟨first, mem_cons_self, fun l => ?_, by rw [hv]; rfl⟩
      rw [inLane_front hother, inLane_cons, append_nil]
      split_ifs with hlane
      · rw [← hlane, htaken]
        exact cons_prefix_cons.2 ⟨rfl, nil_prefix⟩
      · have hl := hfollows l
        rwa [inLane_cons, if_neg hlane] at hl
    · obtain ⟨front, back, rfl, hfront⟩ := hfollows.split htaken
      have hdiamond := hfollows.diamond hfront hlog.1 fun a ha => mem_append_left _ ha
      obtain ⟨l, hl⟩ := hleft
      obtain ⟨action, hmem, hnext, hready⟩ := ih hlog.2 (hfollows.tail hfront) hserial
        (foldlM_remove hdiamond hfirst horder) ⟨l, fun heq => hl ((inLane_remove hfront).2 heq)⟩
      refine ⟨action, mem_cons_of_mem _ hmem, fun l => ?_, hready⟩
      have hl := hnext l
      rw [append_assoc] at hl
      rw [append_assoc, cons_append, inLane_front hfront, inLane_cons]
      split_ifs
      · exact cons_prefix_cons.2 ⟨rfl, hl⟩
      · exact hl

end

end LaneOrder
