import DStore.Index.LeafChain
import Mathlib.Tactic.IntervalCases

/-!
# Walking left along the leaves

A backward scan goes from a leaf to its left neighbour without holding both, so each page it
reads may have been split or unlinked since the link to it was read. `FindNextLeftPage` finds
the neighbour by moving right from a stale left link, and starts over a fixed number of
times.
-/

namespace DStore

open List Option Relation

/-! ## The walk -/

/-- How `FindNextLeftPage` ends, with the leaves as it saw them last. -/
inductive LeftOutcome where
  | found (page : PageId) (seen : LeafChain)
  | noLeft (seen : LeafChain)
  | failed

/-- How one round of moving right ends; `giveUp` leaves the reads that are still to come. -/
inductive RoundOutcome where
  | found (page : PageId) (seen : LeafChain)
  | giveUp (reads : List LeafChain)
  | failed

/-- `maxTries`. -/
def maxTries : ℕ := 4

/-- The inner loop of `FindNextLeftPage`: each read sees the leaves as they are then. -/
def findRealLeft : ℕ → List LeafChain → PageId → Option PageId → Option RoundOutcome
  | 0, reads, _, _ => some (.giveUp reads)
  | _ + 1, _, _, none => some .failed
  | _ + 1, [], _, some _ => none
  | tries + 1, s :: reads, expectedLink, some realLeft =>
    if (s.link realLeft).next = some expectedLink then
      if (s.link realLeft).isUnlinked then
        -- the left page is unlinked, go one more left
        findRealLeft tries reads realLeft (s.link realLeft).prev
      else some (.found realLeft s)
    else if (s.link realLeft).next = none then some (.giveUp reads)
    else findRealLeft tries reads expectedLink (s.link realLeft).next

/-- The page the next round starts from, as it was read. -/
structure BasePage where
  page : PageId
  seen : LeafChain
  reads : List LeafChain

/-- The links of the base page when it was read. -/
def BasePage.link (base : BasePage) : LeafLink := base.seen.link base.page

/-- Reading the original page again, and moving right while the page is unlinked; the result
is `none` when the reads run out, and `some none` if an unlinked page has no right link. -/
def readBasePage : List LeafChain → PageId → Option (Option BasePage)
  | [], _ => none
  | s :: reads, page =>
    if (s.link page).isUnlinked then
      match (s.link page).next with
      | none => some none
      | some right => readBasePage reads right
    else some (some ⟨page, s, reads⟩)

/-- The outer loop of `FindNextLeftPage`, with the rounds that are left. -/
def findNextLeftLoop : ℕ → BasePage → Option LeftOutcome
  | 0, base => some (.noLeft base.seen)
  | rounds + 1, base =>
    if base.link.prev = none then some (.noLeft base.seen)
    else match findRealLeft maxTries base.reads base.page base.link.prev with
      | none => none
      | some .failed => some .failed
      | some (.found page seen) => some (.found page seen)
      | some (.giveUp reads) =>
        match readBasePage reads base.page with
        | none => none
        | some none => some .failed
        | some (some base) => findNextLeftLoop rounds base

/-- `FindNextLeftPage` from the current page: `reads` are the leaves at its successive page
reads, and the result is `none` if it makes more reads than are given. -/
def findNextLeftPage (reads : List LeafChain) (currPage : PageId) : Option LeftOutcome :=
  match reads with
  | [] => none
  | s :: reads => findNextLeftLoop maxTries ⟨currPage, s, reads⟩

/-- What a walk to the left owes its caller: it ends on a live leaf with no live leaf in
between, or there is no live leaf on the left. -/
def LeftOutcome.NoSkip (currPage : PageId) : LeftOutcome → Prop
  | .found page seen => seen.Live page ∧ seen.place page < seen.place currPage ∧
      ∀ z, seen.Live z → ¬(seen.place page < seen.place z ∧ seen.place z < seen.place currPage)
  | .noLeft seen => seen.NoLiveLeft (seen.place currPage)
  | .failed => True

/-! ## A page that is found is the right one -/

section

variable {s seen : LeafChain} {reads rest : List LeafChain} {currPage page expected : PageId}
  {b : ℚ} {tries n : ℕ} {real : Option PageId} {base : BasePage}

/-- A round that gives up has used reads only. -/
lemma findRealLeft_giveUp
    (h : findRealLeft tries reads expected real = some (.giveUp rest)) : rest <:+ reads := by
  fun_induction findRealLeft tries reads expected real with
  | case1 => simp_all
  | case2 => simp at h
  | case3 => simp at h
  | case4 tries s reads expected real _ _ ih => exact (ih h).trans (suffix_cons _ _)
  | case5 => simp at h
  | case6 =>
    simp only [some.injEq, RoundOutcome.giveUp.injEq] at h
    exact h ▸ suffix_cons _ _
  | case7 tries s reads expected real _ _ ih => exact (ih h).trans (suffix_cons _ _)

/-- A page a round finds is live, and no live leaf is between it and the base page. -/
lemma findRealLeft_found (hs : s.Inv) (hlater : (s :: reads).Pairwise LeafChain.Later)
    (hexp : expected ∈ s.leaves) (hreal : ∀ r, real = some r → r ∈ s.leaves)
    (hno : s.NoLive (s.place expected) b) (hle : s.place expected ≤ b)
    (h : findRealLeft tries reads expected real = some (.found page seen)) :
    LeafChain.Later s seen ∧ seen.Live page ∧ seen.place page < b ∧
      ∀ z, seen.Live z → ¬(seen.place page < seen.place z ∧ seen.place z < b) := by
  fun_induction findRealLeft tries reads expected real generalizing s with
  | case1 => simp at h
  | case2 => simp at h
  | case3 => simp at h
  | case4 tries t reads expected real hnext hdead ih =>
    obtain ⟨hst, htail⟩ := pairwise_cons.mp hlater
    have hlt := hst t mem_cons_self
    have ht := hlt.inv hs
    have hmem := hlt.mem (hreal real rfl)
    have hstep := ht.next_spec hmem hnext
    have hexp' := hlt.place hexp
    -- the page just read is not live, and none in the chain is between it and the last one
    have hno' : t.NoLive (t.place real) b := by
      rintro z hz ⟨hge, hltb⟩
      have hze := ht.next_le_of_dead hmem hnext hdead hz hge
      exact hlt.noLive hexp hno z hz ⟨hze, hltb⟩
    obtain ⟨hlater', hrest⟩ := ih ht htail hmem (fun r hr => ht.prev_mem real hmem r hr) hno'
      (hstep.2.1.le.trans (hexp'.le.trans hle)) h
    exact ⟨ReflTransGen.trans hlt hlater', hrest⟩
  | case5 tries t reads expected real hnext hlive =>
    simp only [some.injEq, RoundOutcome.found.injEq] at h
    obtain ⟨rfl, rfl⟩ := h
    have hlt := (pairwise_cons.mp hlater).1 t mem_cons_self
    have ht := hlt.inv hs
    have hmem := hlt.mem (hreal real rfl)
    have hstep := ht.next_spec hmem hnext
    refine ⟨hlt, ⟨hmem, by simpa using hlive⟩, ?_, ?_⟩
    · exact hstep.2.1.trans_le ((hlt.place hexp).le.trans hle)
    · rintro z hz ⟨hgt, hltb⟩
      exact hlt.noLive hexp hno z hz ⟨hstep.2.2 z hz.inChain hgt, hltb⟩
  | case6 => simp at h
  | case7 tries t reads expected real hnext hright ih =>
    obtain ⟨hst, htail⟩ := pairwise_cons.mp hlater
    have hlt := hst t mem_cons_self
    have ht := hlt.inv hs
    have hmem := hlt.mem (hreal real rfl)
    obtain ⟨hlater', hrest⟩ := ih ht htail (hlt.mem hexp)
      (fun r hr => (ht.next_spec hmem hr).1) (hlt.noLive hexp hno)
      ((hlt.place hexp).le.trans hle) h
    exact ⟨ReflTransGen.trans hlt hlater', hrest⟩

/-- What holds of the base page of a round: no live leaf is between the current page and it. -/
structure BasePage.Ok (currPage : PageId) (base : BasePage) : Prop where
  inv : base.seen.Inv
  later : (base.seen :: base.reads).Pairwise LeafChain.Later
  curr_mem : currPage ∈ base.seen.leaves
  mem : base.page ∈ base.seen.leaves
  le : base.seen.place currPage ≤ base.seen.place base.page
  noLive : base.seen.NoLive (base.seen.place currPage) (base.seen.place base.page)

/-- The base page stays right while the chain changes. -/
lemma BasePage.Ok.read {t : LeafChain} (h : BasePage.Ok currPage ⟨page, s, t :: reads⟩) :
    BasePage.Ok currPage ⟨page, t, reads⟩ := by
  obtain ⟨hst, htail⟩ := pairwise_cons.mp h.later
  have hlt := hst t mem_cons_self
  have hno := hlt.noLive h.curr_mem h.noLive
  have hle := h.le
  rw [← hlt.place h.mem] at hno hle
  rw [← hlt.place h.curr_mem] at hle
  exact ⟨hlt.inv h.inv, htail, hlt.mem h.curr_mem, hlt.mem h.mem, hle, hno⟩

/-- Reading the base page again keeps it right. -/
lemma readBasePage_ok (hpage : BasePage.Ok currPage ⟨page, s, reads⟩)
    (h : readBasePage reads page = some (some base)) : base.Ok currPage := by
  fun_induction readBasePage reads page generalizing s with
  | case1 => simp at h
  | case2 => simp at h
  | case3 t reads page hdead right hright ih =>
    have ht := hpage.read
    have hstep := ht.inv.next_spec ht.mem hright
    refine ih ⟨ht.inv, ht.later, ht.curr_mem, hstep.1, ht.le.trans hstep.2.1.le, ?_⟩ h
    rintro z hz ⟨hge, hltr⟩
    have hpz : t.place page ≤ t.place z := by
      by_contra hgt
      exact ht.noLive z hz ⟨hge, not_le.mp hgt⟩
    exact absurd (ht.inv.next_le_of_dead ht.mem hright hdead hz hpz) (not_le.mpr hltr)
  | case4 t reads page hlive =>
    simp only [some.injEq] at h
    exact h ▸ hpage.read

lemma readBasePage_seen (h : readBasePage reads page = some (some base)) :
    base.seen ∈ reads := by
  fun_induction readBasePage reads page with
  | case1 => simp at h
  | case2 => simp at h
  | case3 t reads page hdead right hright ih => exact mem_cons_of_mem _ (ih h)
  | case4 t reads page hlive =>
    simp only [some.injEq] at h
    exact h ▸ mem_cons_self

/-- So does the next round. -/
lemma BasePage.Ok.next {base' : BasePage} (h : base.Ok currPage) (hrest : rest <:+ base.reads)
    (hread : readBasePage rest base.page = some (some base')) : base'.Ok currPage := by
  have hstart : BasePage.Ok currPage ⟨base.page, base.seen, rest⟩ :=
    ⟨h.inv, h.later.sublist (hrest.sublist.cons_cons _), h.curr_mem, h.mem, h.le, h.noLive⟩
  exact readBasePage_ok hstart hread

/-- A page that is found comes next on the left, whatever others do meanwhile. -/
theorem findNextLeftLoop_found {rounds : ℕ} (hbase : base.Ok currPage)
    (h : findNextLeftLoop rounds base = some (.found page seen)) :
    (LeftOutcome.found page seen).NoSkip currPage := by
  fun_induction findNextLeftLoop rounds base with
  | case1 => simp at h
  | case2 => simp at h
  | case3 => simp at h
  | case4 => simp at h
  | case5 rounds base hprev page' seen' hround =>
    simp only [some.injEq, LeftOutcome.found.injEq] at h
    obtain ⟨rfl, rfl⟩ := h
    have hnone : base.seen.NoLive (base.seen.place base.page) (base.seen.place base.page) :=
      fun z _ hz => hz.1.not_gt hz.2
    obtain ⟨hlater, hlive, hlt, hbetween⟩ := findRealLeft_found hbase.inv hbase.later hbase.mem
      (fun r hr => hbase.inv.prev_mem base.page hbase.mem r hr) hnone le_rfl hround
    have hno := hlater.noLive hbase.curr_mem hbase.noLive
    have hle := hbase.le
    rw [← hlater.place hbase.curr_mem] at hle
    refine ⟨hlive, ?_, fun z hz hzc => hbetween z hz ⟨hzc.1, hzc.2.trans_le hle⟩⟩
    by_contra hge
    exact hno page' hlive ⟨not_lt.mp hge, hlt⟩
  | case6 => simp at h
  | case7 => simp at h
  | case8 rounds base hprev rest hround base' hread ih =>
    exact ih (hbase.next (findRealLeft_giveUp hround) hread) h

end

/-! ## A round with few splits finds the page -/

namespace LeafChain

variable {s t : LeafChain} {expected real x y : PageId} {m n : ℕ}

/-- The leaves of the chain from `x` up to `y`, `y` left out. -/
def chainBetween (s : LeafChain) (x y : PageId) : Finset PageId :=
  s.leaves.toFinset.filter fun z =>
    s.InChain z ∧ s.place x ≤ s.place z ∧ s.place z < s.place y

/-- A number of splits and no other step. -/
inductive Splits : ℕ → LeafChain → LeafChain → Prop
  | refl (s : LeafChain) : Splits 0 s s
  | step {n : ℕ} {s t u : LeafChain} (first : Splits n s t) (last : Split t u) :
      Splits (n + 1) s u

/-- From one read to the next others only split leaves, at most `m` times in all. -/
def OnlySplits : ℕ → LeafChain → List LeafChain → Prop
  | _, _, [] => True
  | m, s, t :: reads => ∃ n ≤ m, Splits n s t ∧ OnlySplits (m - n) t reads

/-- The leaves between two pages, the first included. -/
lemma mem_chainBetween {z : PageId} :
    z ∈ s.chainBetween x y ↔ s.InChain z ∧ s.place x ≤ s.place z ∧ s.place z < s.place y := by
  simp only [chainBetween, Finset.mem_filter, List.mem_toFinset]
  exact ⟨fun h => h.2, fun h => ⟨h.1.1, h⟩⟩

lemma chainBetween_subset {x' y' : PageId} (hx : s.place x ≤ s.place x')
    (hy : s.place y' ≤ s.place y) : s.chainBetween x' y' ⊆ s.chainBetween x y := by
  intro z hz
  rw [mem_chainBetween] at hz ⊢
  exact ⟨hz.1, hx.trans hz.2.1, hz.2.2.trans_le hy⟩

/-- Where a round stands that moves right from `real` to `expected`: the pages it has yet to
pass came about by splits. -/
structure Walking (s : LeafChain) (expected real : PageId) : Prop where
  expected_in : s.InChain expected
  real_in : s.InChain real
  lt : s.place real < s.place expected
  dead : (s.link real).isUnlinked = true → (s.link real).next = some expected
  between : ∀ z, s.InChain z → s.place real < s.place z → s.place z < s.place expected → s.Live z

/-- The round ends within `n` reads if nothing more happens. -/
def Within (s : LeafChain) (expected real : PageId) (n : ℕ) : Prop :=
  ∃ x, s.Live x ∧ s.place x ≤ s.place real ∧ (s.Live real → x = real) ∧
    (s.chainBetween x expected).card ≤ n

/-- A split keeps the walk on its way. -/
lemma Walking.split (h : s.Walking expected real) (step : Split s t) : t.Walking expected real := by
  obtain ⟨live, fresh, after, before⟩ := step
  have hexp := ne_new fresh h.expected_in.1
  have hreal := ne_new fresh h.real_in.1
  refine ⟨(inChain_split hexp).mpr h.expected_in, (inChain_split hreal).mpr h.real_in, ?_, ?_, ?_⟩
  · rw [split_place hexp, split_place hreal]
    exact h.lt
  · rename_i p new pl
    rw [split_link hreal]
    intro hdead
    have hne : real ≠ p := by
      rintro rfl
      exact absurd hdead (by simpa [LeafLink.isUnlinked] using live.2)
    simp only [hne, if_false]
    exact h.dead hdead
  · rename_i p new pl
    intro z hz hlt hgt
    by_cases hzn : z = new
    · exact hzn ▸ live_split_new
    · rw [split_place hzn, split_place hreal] at hlt
      rw [split_place hzn, split_place hexp] at hgt
      exact (live_split hzn).mpr (h.between z ((inChain_split hzn).mp hz) hlt hgt)

/-- A split adds at most one leaf to the way. -/
lemma Within.split (h : s.Within expected real n) (hexp : expected ∈ s.leaves)
    (hreal : real ∈ s.leaves) (step : Split s t) : t.Within expected real (n + 1) := by
  obtain ⟨live, fresh, after, before⟩ := step
  rename_i p new pl
  obtain ⟨x, hx, hle, hself, hcard⟩ := h
  have hxn := ne_new fresh hx.1
  have hexpn := ne_new fresh hexp
  have hrealn := ne_new fresh hreal
  refine ⟨x, (live_split hxn).mpr hx, ?_, fun hlive => hself ((live_split hrealn).mp hlive), ?_⟩
  · rwa [split_place hxn, split_place hrealn]
  · have hsub : (s.split p new pl).chainBetween x expected ⊆
        insert new (s.chainBetween x expected) := by
      intro z hz
      rw [mem_chainBetween, split_place hxn, split_place hexpn] at hz
      by_cases hzn : z = new
      · exact Finset.mem_insert.mpr (.inl hzn)
      · rw [inChain_split hzn, split_place hzn] at hz
        exact Finset.mem_insert.mpr (.inr (mem_chainBetween.mpr hz))
    calc _ ≤ (insert new (s.chainBetween x expected)).card := Finset.card_le_card hsub
      _ ≤ (s.chainBetween x expected).card + 1 := Finset.card_insert_le _ _
      _ ≤ n + 1 := by omega

lemma Splits.later (h : Splits n s t) : Later s t := by
  induction h with
  | refl s => exact Later.refl s
  | step _ last ih => exact ih.tail (.inl last)

/-- So do several splits. -/
lemma Walking.splits (h : s.Walking expected real) (steps : Splits n s t) :
    t.Walking expected real := by
  induction steps with
  | refl s => exact h
  | step _ last ih => exact (ih h).split last

/-- Each of them adds at most one leaf. -/
lemma Within.splits (h : s.Within expected real m) (hexp : expected ∈ s.leaves)
    (hreal : real ∈ s.leaves) (steps : Splits n s t) : t.Within expected real (m + n) := by
  induction steps with
  | refl s => exact h
  | step first last ih =>
    exact (ih h hexp hreal).split (first.later.mem hexp) (first.later.mem hreal) last

lemma Within.pos (h : s.Within expected real n) (hlt : s.place real < s.place expected) :
    0 < n := by
  obtain ⟨x, hx, hle, -, hcard⟩ := h
  have hmem : x ∈ s.chainBetween x expected :=
    mem_chainBetween.mpr ⟨hx.inChain, le_rfl, hle.trans_lt hlt⟩
  exact (Finset.card_pos.mpr ⟨x, hmem⟩).trans_le hcard

/-- The left link of a leaf starts the walk. -/
lemma Inv.walking_prev (h : s.Inv) (hexp : s.InChain expected)
    (hprev : (s.link expected).prev = some real) : s.Walking expected real := by
  have hadj := (h.prev_iff real expected hexp).mp hprev
  exact ⟨hexp, hadj.left, hadj.lt, fun _ => (h.next_iff real expected hadj.left).mpr hadj,
    fun z hz hgt hlt => absurd (hadj.last z hz hlt) (not_le.mpr hgt)⟩

/-- A bound from some live leaf on the left is a bound for the walk from the left link. -/
lemma Inv.within_prev (h : s.Inv) (hexp : s.InChain expected)
    (hprev : (s.link expected).prev = some real) (hx : s.Live x)
    (hlt : s.place x < s.place expected) :
    s.Within expected real (s.chainBetween x expected).card := by
  have hle := ((h.prev_iff real expected hexp).mp hprev).last x hx.inChain hlt
  by_cases hlive : s.Live real
  · exact ⟨real, hlive, le_rfl, fun _ => rfl,
      Finset.card_le_card (chainBetween_subset hle le_rfl)⟩
  · exact ⟨x, hx, hle, fun hc => absurd hc hlive, le_rfl⟩

/-- A step to the left of an unlinked leaf shortens the way. -/
lemma Walking.left (h : s.Inv) (hw : s.Walking expected real)
    (hdead : (s.link real).isUnlinked) (hn : s.Within expected real (n + 1)) :
    ∃ left, (s.link real).prev = some left ∧ s.Walking real left ∧ s.Within real left n := by
  obtain ⟨x, hx, hle, -, hcard⟩ := hn
  have hne : x ≠ real := by
    rintro rfl
    simp [hx.2] at hdead
  have hlt := lt_of_le_of_ne hle fun heq => hne (h.inj x hx.1 real hw.real_in.1 heq)
  rcases hprev : (s.link real).prev with _ | left
  · exact absurd (h.prev_none real hw.real_in.1 hprev x hx.inChain) (not_le.mpr hlt)
  have hsub : s.chainBetween x real ⊂ s.chainBetween x expected := by
    refine (Finset.ssubset_iff_of_subset (chainBetween_subset le_rfl hw.lt.le)).mpr ⟨real, ?_, ?_⟩
    · exact mem_chainBetween.mpr ⟨hw.real_in, hle, hw.lt⟩
    · exact fun hz => (mem_chainBetween.mp hz).2.2.false
  obtain ⟨z, hz⟩ := h.within_prev hw.real_in hprev hx hlt
  have hless := Finset.card_lt_card hsub
  exact ⟨left, rfl, h.walking_prev hw.real_in hprev, z, hz.1, hz.2.1, hz.2.2.1, by omega⟩

/-- Moving right over a page that a split put in between costs one read. -/
lemma Walking.right (h : s.Inv) (hw : s.Walking expected real)
    (hnext : (s.link real).next ≠ some expected) (hn : s.Within expected real (n + 1)) :
    ∃ right, (s.link real).next = some right ∧ s.Walking expected right ∧
      s.Within expected right n := by
  rcases hright : (s.link real).next with _ | right
  · exact absurd (h.next_none real hw.real_in.1 hright expected hw.expected_in) (not_le.mpr hw.lt)
  obtain ⟨-, hin, hlt, hfirst⟩ := (h.next_iff real right hw.real_in).mp hright
  have hle := hfirst expected hw.expected_in hw.lt
  have hltexp : s.place right < s.place expected := by
    refine lt_of_le_of_ne hle fun heq => hnext ?_
    rw [hright, h.inj right hin.1 expected hw.expected_in.1 heq]
  have hlive := hw.between right hin hlt hltexp
  refine ⟨right, rfl, ⟨hw.expected_in, hin, hltexp, fun hdead => ?_, fun z hz hgt =>
    hw.between z hz (hlt.trans hgt)⟩, right, hlive, le_rfl, fun _ => rfl, ?_⟩
  · simp [hlive.2] at hdead
  · have hreal : s.Live real := by
      refine ⟨hw.real_in.1, ?_⟩
      by_contra hdead
      exact hnext (hw.dead (by simpa using hdead))
    obtain ⟨x, -, -, hself, hcard⟩ := hn
    obtain rfl := hself hreal
    have hsub : s.chainBetween right expected ⊂ s.chainBetween x expected := by
      refine (Finset.ssubset_iff_of_subset (chainBetween_subset hlt.le le_rfl)).mpr ⟨x, ?_, ?_⟩
      · exact mem_chainBetween.mpr ⟨hw.real_in, le_rfl, hw.lt⟩
      · exact fun hz => absurd (mem_chainBetween.mp hz).2.1 (not_le.mpr hlt)
    have hless := Finset.card_lt_card hsub
    omega

end LeafChain

open LeafChain

/-- A round does not give up while the pages it has to read and the splits fit its tries. -/
lemma findRealLeft_ne_giveUp {tries m n : ℕ} {s : LeafChain} {reads rest : List LeafChain}
    {expected real : PageId} (h : s.Inv) (hsplits : OnlySplits m s (reads.take tries))
    (hw : s.Walking expected real) (hn : s.Within expected real n) (hfit : n + m ≤ tries) :
    findRealLeft tries reads expected (some real) ≠ some (.giveUp rest) := by
  induction tries generalizing m n s reads expected real with
  | zero =>
    have hpos := hn.pos hw.lt
    omega
  | succ tries ih =>
    rcases reads with _ | ⟨t, reads⟩
    · simp [findRealLeft]
    obtain ⟨k, hk, hsteps, hrest⟩ := hsplits
    have ht := hsteps.later.inv h
    have hwt := hw.splits hsteps
    have hnt := hn.splits hw.expected_in.1 hw.real_in.1 hsteps
    obtain ⟨l, hl⟩ := Nat.exists_eq_add_one.mpr (hnt.pos hwt.lt)
    rw [hl] at hnt
    rw [findRealLeft]
    split_ifs with hnext hdead hnone
    · obtain ⟨left, hprev, hwl, hnl⟩ := hwt.left ht hdead hnt
      rw [hprev]
      exact ih ht hrest hwl hnl (by omega)
    · simp
    · obtain ⟨right, hright, -⟩ := hwt.right ht hnext hnt
      simp [hnone] at hright
    · obtain ⟨right, hright, hwr, hnr⟩ := hwt.right ht hnext hnt
      rw [hright]
      exact ih ht hrest hwr hnr (by omega)

/-! ## The whole walk -/

/-- The base pages of the rounds a walk makes. -/
def roundBases : ℕ → BasePage → List BasePage
  | 0, _ => []
  | rounds + 1, base => base ::
    if base.link.prev = none then []
    else match findRealLeft maxTries base.reads base.page base.link.prev with
      | some (.giveUp reads) =>
        match readBasePage reads base.page with
        | some (some next) => roundBases rounds next
        | _ => []
      | _ => []

/-- A calm round: there is no live leaf on the left, or the base page is not unlinked, others
only split leaves while the round reads, and the way from some live leaf to the base page is
no longer than the tries, these splits counted in. -/
def BasePage.Calm (base : BasePage) : Prop :=
  base.seen.NoLiveLeft (base.seen.place base.page) ∨
    base.seen.Live base.page ∧ ∃ splits x,
      OnlySplits splits base.seen (base.reads.take maxTries) ∧
      base.seen.Live x ∧ base.seen.place x < base.seen.place base.page ∧
      (base.seen.chainBetween x base.page).card + splits ≤ maxTries

section

variable {currPage : PageId} {base : BasePage} {rounds : ℕ} {seen : LeafChain}

section

variable (hbase : base.Ok currPage)
include hbase

/-- The loop ends at a later time. -/
lemma findNextLeftLoop_later
    (h : findNextLeftLoop rounds base = some (.noLeft seen)) : Later base.seen seen := by
  fun_induction findNextLeftLoop rounds base with
  | case1 | case2 =>
    simp only [some.injEq, LeftOutcome.noLeft.injEq] at h
    exact h ▸ Later.refl _
  | case3 | case4 | case5 | case6 | case7 => simp at h
  | case8 rounds base hprev rest hround next hread ih =>
    have hnext := hbase.next (findRealLeft_giveUp hround) hread
    have hmem := readBasePage_seen hread
    have hlater := (pairwise_cons.mp hbase.later).1 next.seen
      ((findRealLeft_giveUp hround).subset hmem)
    exact ReflTransGen.trans hlater (ih hnext h)

/-- With no live leaf on the left the answer is right. -/
lemma BasePage.Ok.noSkip_of_noLiveLeft (hno : base.seen.NoLiveLeft (base.seen.place base.page))
    (hlater : Later base.seen seen) : (LeftOutcome.noLeft seen).NoSkip currPage := by
  intro z hz
  rw [hlater.place hbase.curr_mem]
  exact hbase.le.trans (hlater.noLiveLeft hno z hz)

/-- A calm round gives up only if there is no live leaf on the left. -/
lemma BasePage.Ok.calm_round {rest : List LeafChain}
    (hcalm : base.Calm) (hprev : base.link.prev ≠ none)
    (hround : findRealLeft maxTries base.reads base.page base.link.prev = some (.giveUp rest)) :
    base.seen.NoLiveLeft (base.seen.place base.page) := by
  refine hcalm.resolve_right ?_
  rintro ⟨hlive, splits, x, honly, hx, hlt, hfit⟩
  obtain ⟨real, hreal⟩ := ne_none_iff_exists'.mp hprev
  rw [hreal] at hround
  exact findRealLeft_ne_giveUp hbase.inv honly (hbase.inv.walking_prev hlive.inChain hreal)
    (hbase.inv.within_prev hlive.inChain hreal hx hlt) hfit hround

/-- With one calm round the answer that there is none is right. -/
lemma findNextLeftLoop_noLeft (hcalm : ∃ next ∈ roundBases rounds base, next.Calm)
    (h : findNextLeftLoop rounds base = some (.noLeft seen)) :
    (LeftOutcome.noLeft seen).NoSkip currPage := by
  have hend := findNextLeftLoop_later hbase h
  fun_induction findNextLeftLoop rounds base with
  | case1 => simp [roundBases] at hcalm
  | case2 rounds base hprev =>
    simp only [some.injEq, LeftOutcome.noLeft.injEq] at h
    subst h
    exact hbase.noSkip_of_noLiveLeft
      (fun z hz => hbase.inv.prev_none base.page hbase.mem hprev z hz.inChain) hend
  | case3 | case4 | case5 | case6 | case7 => simp at h
  | case8 rounds base hprev rest hround next hread ih =>
    obtain ⟨calm, hmem, hcalm⟩ := hcalm
    simp only [roundBases, hprev, if_false, hround, hread, mem_cons] at hmem
    rcases hmem with rfl | hmem
    · exact hbase.noSkip_of_noLiveLeft (hbase.calm_round hcalm hprev hround) hend
    · have hnext := hbase.next (findRealLeft_giveUp hround) hread
      exact ih hnext ⟨calm, hmem, hcalm⟩ h (findNextLeftLoop_later hnext h)

end

end

/-- An index of one leaf. -/
def LeafChain.oneLeaf (root : PageId) : LeafChain :=
  ⟨[root], fun _ => 0, fun _ => ⟨none, none, .normalUsing⟩⟩

/-- The invariant holds for a tree of one leaf. -/
lemma LeafChain.oneLeaf_inv (root : PageId) : (oneLeaf root).Inv := by
  have hadj : ∀ p q, ¬ (oneLeaf root).Adj p q := fun p q hpq => hpq.lt.false
  constructor <;> simp_all [oneLeaf, InChain]

/-- The leaves come from a single one by steps of others. -/
def LeafChain.Reachable (s : LeafChain) : Prop := ∃ root, Later (oneLeaf root) s

/-- Whatever others do between its reads, `FindNextLeftPage` only stops on the next live leaf
to the left, and if one of its rounds is calm it does not miss a live leaf. -/
theorem findNextLeftPage_noSkip {s : LeafChain} {reads : List LeafChain} {currPage : PageId}
    {outcome : LeftOutcome} (hs : s.Reachable) (hcurr : currPage ∈ s.leaves)
    (hreads : (s :: reads).IsChain LeafChain.Later)
    (h : findNextLeftPage (s :: reads) currPage = some outcome) :
    (∀ page seen, outcome = .found page seen → outcome.NoSkip currPage) ∧
      ((∃ base ∈ roundBases maxTries ⟨currPage, s, reads⟩, base.Calm) →
        outcome.NoSkip currPage) := by
  obtain ⟨root, hroot⟩ := hs
  have hbase : BasePage.Ok currPage ⟨currPage, s, reads⟩ := by
    refine ⟨hroot.inv (oneLeaf_inv root), ?_, hcurr, hcurr, le_rfl,
      fun z _ hz => hz.1.not_gt hz.2⟩
    have htrans : IsTrans LeafChain Later := ⟨fun _ _ _ => ReflTransGen.trans⟩
    exact List.isChain_iff_pairwise.mp hreads
  have hfound : ∀ page seen, outcome = .found page seen → outcome.NoSkip currPage := by
    rintro page seen rfl
    exact findNextLeftLoop_found hbase h
  refine ⟨hfound, fun hcalm => ?_⟩
  cases outcome with
  | found page seen => exact hfound page seen rfl
  | noLeft seen => exact findNextLeftLoop_noLeft hbase hcalm h
  | failed => trivial

/-- The pages of a small index. -/
def smallPage (n : ℕ) : PageId := ⟨1, UInt32.ofNat n⟩

/-- Two leaves, the second the right half of the first. -/
def twoLeaves : LeafChain := (oneLeaf (smallPage 0)).split (smallPage 0) (smallPage 1) 1

lemma twoLeaves_reachable : twoLeaves.Reachable := by
  refine ⟨smallPage 0, ReflTransGen.single (.inl (.mk ?_ ?_ ?_ ?_))⟩
  · decide
  · decide
  · decide
  · decide

/-- The walk from the second of two leaves finds the first. -/
theorem findNextLeftPage_two : findNextLeftPage [twoLeaves, twoLeaves] (smallPage 1) =
      some (.found (smallPage 0) twoLeaves) ∧
    (LeftOutcome.found (smallPage 0) twoLeaves).NoSkip (smallPage 1) := by
  have hwalk : findNextLeftPage [twoLeaves, twoLeaves] (smallPage 1) =
      some (.found (smallPage 0) twoLeaves) := rfl
  have hcalm : BasePage.Calm ⟨smallPage 1, twoLeaves, [twoLeaves]⟩ :=
    .inr ⟨by decide, 0, smallPage 0, ⟨0, le_rfl, .refl _, trivial⟩, by decide, by decide,
      by decide⟩
  exact ⟨hwalk, (findNextLeftPage_noSkip twoLeaves_reachable (by decide)
    (by simp [Later.refl]) hwalk).2 ⟨_, List.mem_cons_self, hcalm⟩⟩

/-- Splits of the last leaf, `n` times over. -/
def rowOfLeaves : ℕ → LeafChain
  | 0 => oneLeaf (smallPage 0)
  | n + 1 => (rowOfLeaves n).split (smallPage n) (smallPage (n + 1)) (n + 1)

/-- Six leaves, and the first `n` of the four in the middle unlinked from their parents. -/
def halfUnlinked : ℕ → LeafChain
  | 0 => rowOfLeaves 5
  | n + 1 => (halfUnlinked n).unlinkFromParent (smallPage (n + 1))

lemma rowOfLeaves_later {n : ℕ} (hn : n ≤ 5) : Later (oneLeaf (smallPage 0)) (rowOfLeaves n) := by
  induction n with
  | zero => exact Later.refl _
  | succ n ih =>
    have hlt : n < 5 := by omega
    refine (ih hlt.le).tail (.inl (.mk ?_ ?_ ?_ ?_)) <;> interval_cases n <;> decide +kernel

lemma halfUnlinked_reachable {n : ℕ} (hn : n ≤ 4) : (halfUnlinked n).Reachable := by
  refine ⟨smallPage 0, ?_⟩
  induction n with
  | zero => exact rowOfLeaves_later le_rfl
  | succ n ih =>
    have hlt : n < 4 := by omega
    -- the right sibling is still linked to its parent
    refine (ih hlt.le).tail (.inr ?_)
    refine @LeafChain.Unlink.fromParent _ _ (smallPage (n + 2)) ?_ ?_ ?_ <;>
      interval_cases n <;> decide +kernel

/-- With four half unlinked leaves in between the walk reports no left page, although the
first leaf is live and nothing changes while it reads. -/
theorem findNextLeftPage_skips : (halfUnlinked 4).Reachable ∧
    findNextLeftPage (List.replicate 21 (halfUnlinked 4)) (smallPage 5) =
      some (.noLeft (halfUnlinked 4)) ∧
    ¬ (LeftOutcome.noLeft (halfUnlinked 4)).NoSkip (smallPage 5) := by
  refine ⟨halfUnlinked_reachable le_rfl, rfl, fun hno => ?_⟩
  have hlive : (halfUnlinked 4).Live (smallPage 0) := by decide +kernel
  have hleft : (halfUnlinked 4).place (smallPage 0) < (halfUnlinked 4).place (smallPage 5) := by
    decide +kernel
  exact absurd (hno (smallPage 0) hlive) (not_le.mpr hleft)

end DStore
