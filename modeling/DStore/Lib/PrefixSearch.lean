import Mathlib.Data.List.Lex
import Mathlib.Order.Lattice

/-!
# Searching a sorted sequence of truncated keys

Stored keys are lists of components, compared lexicographically; a truncated key is a
shorter list, so a missing component counts as minus infinity. A search key names only
the leading components. The file has the three-way comparison of a search key with a
stored key, its reading in the lexicographic order, and the halving search for the first
position where a predicate that holds on an initial segment fails.
-/

namespace PrefixSearch

section Order

variable {α : Type*} [LinearOrder α]

lemma nil_le (as : List α) : [] ≤ as := not_lt.1 (List.not_lt_nil as)

lemma not_cons_le_nil (a : α) (as : List α) : ¬ a :: as ≤ [] := not_le.2 List.Lex.nil

lemma cons_le_cons_iff {a b : α} {as bs : List α} :
    a :: as ≤ b :: bs ↔ a < b ∨ a = b ∧ as ≤ bs := by
  simp only [le_iff_lt_or_eq, List.cons_lt_cons_iff, List.cons.injEq]
  tauto

lemma le_append (as bs : List α) : as ≤ as ++ bs := not_lt.mp List.le_append_left

/-- A prefix is not larger. -/
lemma take_le (n : ℕ) (as : List α) : as.take n ≤ as :=
  (le_append (as.take n) (as.drop n)).trans_eq (as.take_append_drop n)

/-- Prefixes of one length keep the order. -/
lemma take_le_take {as bs : List α} (n : ℕ) (h : as ≤ bs) : as.take n ≤ bs.take n := by
  induction as generalizing bs n with
  | nil =>
    rw [List.take_nil]
    exact nil_le _
  | cons a as ih =>
    cases bs with
    | nil => exact absurd h (not_cons_le_nil a as)
    | cons b bs =>
      cases n with
      | zero => exact le_refl _
      | succ n =>
        rw [List.take_succ_cons, List.take_succ_cons, cons_le_cons_iff]
        exact (cons_le_cons_iff.1 h).imp id (fun ⟨heq, hle⟩ => ⟨heq, ih n hle⟩)

/-- Comparison of a search key with a stored key: positive when the stored key is at most
the search key, zero when the stored key properly extends it, negative otherwise. -/
def prefixCmp : List α → List α → ℤ
  | _, [] => 1
  | [], _ :: _ => 0
  | k :: ks, a :: as => if k < a then -1 else if a < k then 1 else prefixCmp ks as

variable {ks as : List α}

/-- The sign of the comparison. -/
lemma prefixCmp_spec :
    (1 ≤ prefixCmp ks as ↔ as ≤ ks) ∧ (0 ≤ prefixCmp ks as ↔ as.take ks.length ≤ ks) := by
  induction ks generalizing as with
  | nil =>
    cases as with
    | nil => simp [prefixCmp]
    | cons a as => simp [prefixCmp, not_cons_le_nil]
  | cons k ks ih =>
    cases as with
    | nil => simp [prefixCmp, nil_le]
    | cons a as =>
      rw [prefixCmp, List.length_cons, List.take_succ_cons, cons_le_cons_iff, cons_le_cons_iff]
      split_ifs with hlt hgt
      · simp [not_lt_of_gt hlt, (ne_of_lt hlt).symm]
      · simp [hgt]
      · have heq : a = k := le_antisymm (not_lt.1 hlt) (not_lt.1 hgt)
        simp [heq, ih]

/-- The comparison of keys that end alike: it is `e` at a stored key equal to the search key. -/
def endCmp (e : ℤ) (ks as : List α) : ℤ := if ks = as then e else prefixCmp ks as

@[simp]
lemma endCmp_nil (e : ℤ) : endCmp e [] as = if as = [] then e else 0 := by
  cases as <;> simp [endCmp, prefixCmp]

@[simp]
lemma endCmp_cons_nil (e : ℤ) (k : α) : endCmp e (k :: ks) [] = 1 := by
  simp [endCmp, prefixCmp]

@[simp]
lemma endCmp_cons (e : ℤ) (k a : α) : endCmp e (k :: ks) (a :: as) =
    if k < a then -1 else if a < k then 1 else endCmp e ks as := by
  rw [endCmp, endCmp, prefixCmp]
  rcases lt_trichotomy k a with h | h | h
  · simp [h, h.ne]
  · simp [h]
  · simp [h, h.ne', not_lt_of_gt h]

/-- With 1 at the end this is the comparison of prefixes. -/
lemma endCmp_one : endCmp 1 ks as = prefixCmp ks as := by
  induction ks generalizing as with
  | nil => cases as <;> simp [prefixCmp]
  | cons k ks ih =>
    cases as with
    | nil => rfl
    | cons a as => rw [endCmp_cons, prefixCmp, ih]

/-- With 0 at the end the sign is that of the lexicographic order. -/
lemma endCmp_zero : (ks ≤ as → endCmp 0 ks as ≤ 0) ∧ (as ≤ ks → 0 ≤ endCmp 0 ks as) := by
  have hspec : 1 ≤ prefixCmp ks as ↔ as ≤ ks := prefixCmp_spec.1
  rw [endCmp]
  split_ifs with heq
  · exact ⟨fun _ => le_rfl, fun _ => le_rfl⟩
  · refine ⟨fun hle => ?_, fun hle => ?_⟩
    · have hnot := hspec.not.mpr fun hge => heq (le_antisymm hle hge)
      omega
    · have hpos := hspec.mpr hle
      omega

/-- The stored key lies before the search position: at most the search key or, if the
search is for strictly greater keys, at most it on the components the search key names. -/
def Passed (strict : Bool) (ks as : List α) : Prop :=
  (if strict then 0 else 1) ≤ prefixCmp ks as

instance decidablePassed (strict : Bool) (ks as : List α) : Decidable (Passed strict ks as) :=
  inferInstanceAs (Decidable (_ ≤ _))

lemma passed_true : Passed true ks as ↔ as.take ks.length ≤ ks :=
  prefixCmp_spec.2

lemma passed_false : Passed false ks as ↔ as ≤ ks :=
  prefixCmp_spec.1

/-- What has passed a list has passed the smaller ones. -/
lemma Passed.mono {strict : Bool} {ks as bs : List α} (h : Passed strict ks bs) (hle : as ≤ bs) :
    Passed strict ks as := by
  cases strict with
  | false => exact passed_false.2 (le_trans hle (passed_false.1 h))
  | true => exact passed_true.2 (le_trans (take_le_take _ hle) (passed_true.1 h))

end Order

/-! ## Halving search -/

/-- The halving loop over the `len` positions from `low` on: the upper half keeps its
middle position when the length is even. -/
def lowerBound (p : ℕ → Bool) (low len : ℕ) : ℕ :=
  if len = 0 then low
  else if p (low + len / 2) then lowerBound p (low + len / 2 + len % 2) (len / 2)
  else lowerBound p low (len / 2)
termination_by len
decreasing_by all_goals omega

/-- The loop finds the position from which on the predicate fails. -/
lemma lowerBound_eq {p : ℕ → Bool} {low len r : ℕ} (hlow : low ≤ r) (hr : r ≤ low + len)
    (hbefore : ∀ i, low ≤ i → i < r → p i)
    (hafter : ∀ i, r ≤ i → i < low + len → p i = false) : lowerBound p low len = r := by
  fun_induction lowerBound p low len with
  | case1 low => omega
  | case2 low len hlen hmid ih =>
    have hlt : low + len / 2 < r := by
      by_contra hle
      rw [hafter _ (not_lt.1 hle) (by omega)] at hmid
      exact absurd hmid (by decide)
    exact ih (by omega) (by omega) (fun i hi => hbefore i (by omega))
      fun i hi hi' => hafter i hi (by omega)
  | case3 low len hlen hmid ih =>
    have hle : r ≤ low + len / 2 := by
      by_contra hlt
      exact hmid (hbefore _ (by omega) (by omega))
    exact ih hlow hle hbefore fun i hi hi' => hafter i hi (by omega)

end PrefixSearch
