import DStore.Wal.WalBuffer

/-!
# Only finished log is flushed, and all of it

The bytes that a group brings to the ring start with the header of its file if it is the first group
of the file. So the ranges of the groups follow each other without a gap, and the entries that
`MarkInsertFinish` stores are those of a ring of finished segments: one for the group, and one for
the header before it. What the flusher hands out is what the scanner of that ring has passed.
-/

namespace DStore

namespace WalBufferConf

open SegmentRing List Function

variable {conf : WalBufferConf} {b plsn p e : ℕ} {s s' : WalInsertState} {ins ins' : WalInsert}

/-! ## The segments of a group -/

/-- The positions of a group. -/
def byteRange (ins : WalInsert) : ℕ × ℕ :=
  (ins.startBytePos, ins.startBytePos + ins.data.length)

variable (conf s ins)

/-- Where the bytes that a group brings to the ring start. -/
def fromPlsn : ℕ :=
  walBytePosToPlsn true conf.walFileSize ins.startBytePos

/-- The group brings the byte of `plsn` to the ring. -/
def Covers (plsn : ℕ) : Prop :=
  conf.fromPlsn ins ≤ plsn ∧ plsn < conf.endPlsn ins

/-- What `MarkInsertFinish` stores for a group. -/
def segments : List (ℕ × ℕ) :=
  if conf.startPlsn ins % conf.walFileSize = walFileHdrSize then
    [(conf.startPlsn ins - walFileHdrSize, conf.startPlsn ins),
      (conf.startPlsn ins, conf.endPlsn ins)]
  else [(conf.startPlsn ins, conf.endPlsn ins)]

/-- A segment of the group that was reserved at some position and is finished starts at `plsn`. -/
def Finished (plsn : ℕ) : Prop :=
  ∃ ins ∈ s.inserts, s.phase ins.startBytePos = .finished ∧ ∃ e, (plsn, e) ∈ conf.segments ins

variable {conf s ins}

/-- An insert at the start of a file begins behind the file header. -/
lemma startPlsn_eq_fromPlsn (conf : WalBufferConf) (ins : WalInsert) :
    conf.startPlsn ins = conf.fromPlsn ins +
      if conf.startPlsn ins % conf.walFileSize = walFileHdrSize then walFileHdrSize else 0 := by
  have hmod := (walBytePosToPlsn_start_div_mod conf.header_lt_file ins.startBytePos).2
  unfold startPlsn fromPlsn
  rw [walBytePosToPlsn_end, hmod]
  by_cases hzero : ins.startBytePos % getWalFileUsableBytes conf.walFileSize = 0
  · rw [if_pos hzero, if_pos (by omega), walBytePosToPlsn_start, hzero, Nat.add_zero]
  · rw [if_neg hzero, if_neg (by omega), Nat.add_zero]

/-- The segments of an insert follow each other without gap. -/
lemma chain_segments (conf : WalBufferConf) (hdata : ins.data ≠ []) :
    Chain (conf.fromPlsn ins) (conf.segments ins) (conf.endPlsn ins) := by
  have hstart := conf.startPlsn_eq_fromPlsn ins
  have hlt : conf.startPlsn ins < conf.endPlsn ins :=
    walBytePosToPlsn_start_lt conf.header_lt_file
      (Nat.lt_add_of_pos_right (length_pos_iff.2 hdata))
  unfold segments
  split_ifs at hstart ⊢ with hheader
  · refine ⟨by omega, ?_, rfl, hlt, rfl⟩
    rw [hstart, walFileHdrSize]
    omega
  · exact ⟨by omega, hlt, rfl⟩

/-! ## What a copy changes -/

/-- The ring has changed in the places of the plsns from `first` to `last` only. -/
def SameBut (conf : WalBufferConf) (first last : ℕ) (ring ring' : ByteMem) : Prop :=
  ∀ a, (∀ plsn, first ≤ plsn → plsn < last → conf.getBufferBlock plsn ≠ a) → ring' a = ring a

section Copy

variable {data ring ring₁ ring' : ByteMem} {n first mid last : ℕ}

/-- Two changes of neighbouring ranges are one. -/
lemma SameBut.trans (h : conf.SameBut first mid ring ring₁) (h' : conf.SameBut mid last ring₁ ring')
    (hfirst : first ≤ mid) (hlast : mid ≤ last) : conf.SameBut first last ring ring' := by
  intro a ha
  rw [h' a fun p hp => ha p (hfirst.trans hp), h a fun p hp hlt => ha p hp (hlt.trans_le hlast)]

/-- Within a block the bytes follow each other. -/
lemma getBufferBlock_add {i : ℕ} (h : plsn % walBlckSz + i < walBlckSz) :
    conf.getBufferBlock (plsn + i) = conf.getBufferBlock plsn + i := by
  obtain ⟨hdiv, hmod⟩ := plsn_add_div_mod h
  rw [getBufferBlock, getBufferBlock, hdiv, hmod, Nat.add_assoc]

/-- A write that stays in a block. -/
lemma SameBut.of_sameOutside (hblock : plsn % walBlckSz + n ≤ walBlckSz)
    (h : ByteMem.SameOutside (conf.getBufferBlock plsn) (conf.getBufferBlock plsn + n) ring ring') :
    conf.SameBut plsn (plsn + n) ring ring' := by
  intro a ha
  refine h a ?_
  by_contra hin
  refine ha (plsn + (a - conf.getBufferBlock plsn)) (by omega) (by omega) ?_
  rw [getBufferBlock_add (by omega)]
  omega

/-- The length of a rest that a file header at the start of a block gets. -/
lemma SameBut.of_header (hmod : plsn % walBlckSz = 0) (rest : ℕ) :
    conf.SameBut plsn (plsn + walFileHdrSize) ring
      (ring.writeLE (conf.getBufferBlock plsn + lastRecordRemainLenOff) 4 rest) := by
  refine .of_sameOutside (by rw [hmod]; decide) fun a ha => ByteMem.sameOutside_writeLE _ _ _ _ a ?_
  unfold lastRecordRemainLenOff
  unfold walFileHdrSize at ha
  omega

/-- The loop writes to the places of the plsns that it passes. -/
lemma copyLoop_same (data : ByteMem) (src walLen plsn : ℕ) (ring : ByteMem) :
    plsn ≤ (conf.copyLoop data src walLen plsn (conf.getBufferBlock plsn) ring).2 ∧
      conf.SameBut plsn (conf.copyLoop data src walLen plsn (conf.getBufferBlock plsn) ring).2 ring
        (conf.copyLoop data src walLen plsn (conf.getBufferBlock plsn) ring).1 := by
  induction walLen using Nat.strong_induction_on generalizing src plsn ring with
  | _ walLen ih =>
    have hfree := calculateFreeSpaceInBlock_pos plsn
    have hblit : ∀ n ≤ calculateFreeSpaceInBlock plsn, conf.SameBut plsn (plsn + n) ring
        (ring.blit (conf.getBufferBlock plsn) data src n) := by
      intro n hn
      have hmod := Nat.mod_lt plsn (show 0 < walBlckSz by decide)
      unfold calculateFreeSpaceInBlock at hn
      exact .of_sameOutside (by omega) (ByteMem.sameOutside_blit _ _ _ _ _)
    rw [copyLoop]
    by_cases hlt : calculateFreeSpaceInBlock plsn < walLen
    · rw [if_pos hlt]
      have hmod : (plsn + calculateFreeSpaceInBlock plsn) % walBlckSz = 0 := by
        unfold calculateFreeSpaceInBlock walBlckSz
        omega
      have hfirst := hblit _ le_rfl
      have hnext : plsn ≤ plsn + calculateFreeSpaceInBlock plsn := Nat.le_add_right _ _
      dsimp only
      generalize plsn + calculateFreeSpaceInBlock plsn = next at hfirst hmod hnext ⊢
      split_ifs with hfile
      · -- the header of the next file comes before the rest
        rw [← getBufferBlock_add (by rw [hmod]; decide)]
        obtain ⟨hle, hrest⟩ := ih (walLen - calculateFreeSpaceInBlock plsn) (by omega)
          (src + calculateFreeSpaceInBlock plsn) (next + walFileHdrSize)
          ((ring.blit (conf.getBufferBlock plsn) data src (calculateFreeSpaceInBlock plsn)).writeLE
            (conf.getBufferBlock next + lastRecordRemainLenOff) 4
            (walLen - calculateFreeSpaceInBlock plsn))
        have hheader := (SameBut.of_header hmod _).trans hrest (Nat.le_add_right _ _) hle
        exact ⟨by omega, hfirst.trans hheader hnext (by omega)⟩
      · obtain ⟨hle, hrest⟩ := ih (walLen - calculateFreeSpaceInBlock plsn) (by omega)
          (src + calculateFreeSpaceInBlock plsn) next
          (ring.blit (conf.getBufferBlock plsn) data src (calculateFreeSpaceInBlock plsn))
        exact ⟨by omega, hfirst.trans hrest hnext hle⟩
    · rw [if_neg hlt]
      exact ⟨Nat.le_add_right _ _, hblit walLen (not_lt.1 hlt)⟩

/-- A copy that ends where the group was reserved changes only places of bytes of the group. -/
lemma copyToBuffer_same (hblock : walBlckSz ∣ conf.walFileSize)
    (hend : (conf.copyToBuffer ins.data (conf.startPlsn ins) ring).2 = conf.endPlsn ins) :
    conf.SameBut (conf.fromPlsn ins) (conf.endPlsn ins) ring
      (conf.copyToBuffer ins.data (conf.startPlsn ins) ring).1 := by
  have hstart := conf.startPlsn_eq_fromPlsn ins
  rw [← hend]
  unfold copyToBuffer
  split_ifs at hstart ⊢ with hheader
  · -- the group is the first one of its file
    have hmod : conf.fromPlsn ins % walBlckSz = 0 := by
      rw [hstart, ← Nat.mod_eq_of_lt conf.header_lt_file] at hheader
      have hfile := Nat.sub_mod_eq_zero_of_mod_eq hheader
      rw [Nat.mod_eq_of_lt conf.header_lt_file, Nat.add_sub_cancel] at hfile
      exact Nat.mod_eq_zero_of_dvd (hblock.trans (Nat.dvd_of_mod_eq_zero hfile))
    have hplace : conf.getBufferBlock (conf.startPlsn ins) - walFileHdrSize =
        conf.getBufferBlock (conf.fromPlsn ins) := by
      rw [hstart, getBufferBlock_add (by rw [hmod]; decide), Nat.add_sub_cancel]
    dsimp only
    rw [hplace]
    obtain ⟨hle, hrest⟩ := conf.copyLoop_same (ByteMem.ofBytes ins.data) 0 ins.data.length
      (conf.startPlsn ins) (ring.writeLE (conf.getBufferBlock (conf.fromPlsn ins) +
        lastRecordRemainLenOff) 4 0)
    have hfirst : conf.SameBut (conf.fromPlsn ins) (conf.fromPlsn ins + walFileHdrSize) ring _ :=
      .of_header hmod 0
    rw [← hstart] at hfirst
    exact hfirst.trans hrest (by omega) hle
  · rw [Nat.add_zero] at hstart
    rw [← hstart]
    exact (conf.copyLoop_same _ _ _ _ _).2

end Copy

/-! ## What every step keeps -/

lemma bufferSize_pos (conf : WalBufferConf) : 0 < conf.bufferSize :=
  Nat.mul_pos conf.blocks_pos (by decide)

/-- The groups follow each other; the ring of ends is one of finished segments; the flusher is
behind its scanner, and what is flushed is behind the flusher; a group that was copied has its place
in the ring. -/
structure Inv (conf : WalBufferConf) (b : ℕ) (s : WalInsertState) : Prop where
  bytes : Chain b (s.inserts.map byteRange) s.buffer.endBytePos
  ring : SegmentRing.Inv conf.insertStatusEntryCnt (walBytePosToPlsn true conf.walFileSize b)
    (s.inserts.flatMap conf.segments)
    (walBytePosToPlsn true conf.walFileSize s.buffer.endBytePos) (conf.Finished s)
    s.buffer.insertStateEntrys s.buffer.maxContinuousPlsn
  scanned : s.buffer.lastScannedPlsn ≤ s.buffer.maxContinuousPlsn
  flushed : s.maxFlushFinishPlsn ≤ s.buffer.lastScannedPlsn
  reuse : ∀ ins ∈ s.inserts, s.phase ins.startBytePos ≠ .reserved → conf.CanReuse s ins
  unused : ∀ p, s.buffer.endBytePos ≤ p → s.phase p = .reserved
  handed : Chain (walBytePosToPlsn true conf.walFileSize b) s.handedOut s.buffer.lastScannedPlsn

namespace Inv

lemma byteRange_mem (hins : ins ∈ s.inserts) :
    (ins.startBytePos, ins.startBytePos + ins.data.length) ∈ s.inserts.map byteRange :=
  mem_map_of_mem hins

section

variable (h : conf.Inv b s) (hins : ins ∈ s.inserts)
include h hins

/-- An insert lies within the reserved bytes. -/
lemma bounds : b ≤ ins.startBytePos ∧
    ins.data ≠ [] ∧ ins.startBytePos + ins.data.length ≤ s.buffer.endBytePos := by
  have hin := h.bytes.bounds (byteRange_mem hins)
  refine ⟨hin.1, fun hnil => ?_, hin.2.2⟩
  rw [hnil, length_nil] at hin
  omega

/-- An insert is known by its start. -/
lemma eq_of_startBytePos (hins' : ins' ∈ s.inserts)
    (hstart : ins.startBytePos = ins'.startBytePos) : ins = ins' := by
  have hsorted := h.bytes.starts_sorted
  rw [map_map] at hsorted
  exact inj_on_of_nodup_map (hsorted.imp fun hlt => hlt.ne) hins hins' hstart

/-- Inserts do not overlap. -/
lemma endPlsn_le (hins' : ins' ∈ s.inserts)
    (hlt : ins.startBytePos < ins'.startBytePos) : conf.endPlsn ins ≤ conf.fromPlsn ins' :=
  (walBytePosToPlsn_strictMono conf.header_lt_file true).monotone
    (h.bytes.end_le (byteRange_mem hins) (byteRange_mem hins') hlt)

/-- A plsn is covered by one insert. -/
lemma eq_of_covers (hins' : ins' ∈ s.inserts) (hcovers : conf.Covers ins plsn)
    (hcovers' : conf.Covers ins' plsn) :
    ins = ins' := by
  rcases Nat.lt_trichotomy ins.startBytePos ins'.startBytePos with hlt | heq | hlt
  · have hle := h.endPlsn_le hins hins' hlt
    exact absurd (hcovers.2.trans_le (hle.trans hcovers'.1)) (lt_irrefl _)
  · exact h.eq_of_startBytePos hins hins' heq
  · have hle := h.endPlsn_le hins' hins hlt
    exact absurd (hcovers'.2.trans_le (hle.trans hcovers.1)) (lt_irrefl _)

/-- The segments of an insert are covered by it. -/
lemma covers_of_mem_segments (hmem : (p, e) ∈ conf.segments ins) : conf.Covers ins p := by
  have hin := (conf.chain_segments (h.bounds hins).2.1).bounds hmem
  exact ⟨hin.1, hin.2.1.trans_le hin.2.2⟩

/-- A segment is finished exactly if its insert is. -/
lemma finished_iff (hmem : (p, e) ∈ conf.segments ins) :
    conf.Finished s p ↔ s.phase ins.startBytePos = .finished := by
  constructor
  · rintro ⟨ins', hins', hphase, e', hmem'⟩
    have heq := h.eq_of_covers hins hins' (h.covers_of_mem_segments hins hmem)
      (h.covers_of_mem_segments hins' hmem')
    rwa [heq]
  · exact fun hphase => ⟨ins, hins, hphase, e, hmem⟩

end

end Inv

lemma mem_of_findInsert (h : findInsert s p = some ins) :
    ins ∈ s.inserts ∧ ins.startBytePos = p :=
  ⟨mem_of_find?_eq_some h, by simpa using find?_some h⟩

namespace Inv

/-- The invariant holds at the start. -/
lemma init (conf : WalBufferConf) (b : ℕ) (ring : ByteMem) : conf.Inv b (conf.init b ring) where
  bytes := rfl
  ring := SegmentRing.Inv.start _ fun _ _ => Nat.zero_le _
  scanned := le_rfl
  flushed := le_rfl
  reuse := nofun
  unused := fun _ _ => rfl
  handed := rfl

/-- A group that is reserved is not finished. -/
lemma reserve (h : conf.Inv b s) {data : List UInt8}
    (hstep : conf.step s (.reserve data) = some s') : conf.Inv b s' := by
  unfold WalBufferConf.step reserveInsertByteLocation at hstep
  dsimp only at hstep
  split_ifs at hstep with hnil hmax
  · cases hstep
  cases hstep
  have hlen : 0 < data.length := length_pos_iff.2 hnil
  have hphase : s.phase s.buffer.endBytePos = .reserved := h.unused _ le_rfl
  generalize hnew : (⟨s.buffer.endBytePos, data⟩ : WalInsert) = new
  have hdata : new.data ≠ [] := by rwa [← hnew]
  have hstart : new.startBytePos = s.buffer.endBytePos := by rw [← hnew]
  have hend : conf.endPlsn new =
      walBytePosToPlsn true conf.walFileSize (s.buffer.endBytePos + data.length) := by
    rw [← hnew]
    rfl
  have hchain : Chain (walBytePosToPlsn true conf.walFileSize s.buffer.endBytePos)
      (conf.segments new)
      (walBytePosToPlsn true conf.walFileSize (s.buffer.endBytePos + data.length)) := by
    rw [← hend, ← hstart]
    exact conf.chain_segments hdata
  refine ⟨?_, ?_, h.scanned, h.flushed, ?_, fun p hp => h.unused p (by dsimp only at hp; omega),
    h.handed⟩
  · rw [map_append]
    refine h.bytes.append ⟨hstart.symm, ?_, ?_⟩
    · rw [← hnew]
      exact Nat.lt_add_of_pos_right hlen
    · rw [← hnew]
      rfl
  · rw [flatMap_append, flatMap_singleton]
    refine (h.ring.extend hchain fun p e hmem => ?_).congr fun p e hmem => ?_
    · -- what is finished was reserved before
      rintro ⟨ins, hins, -, e', hmem'⟩
      have hnewer := hchain.bounds hmem
      have holder := h.ring.chain.bounds (mem_flatMap.2 ⟨ins, hins, hmem'⟩)
      omega
    · constructor
      · rintro ⟨ins, hins, hfinished, hseg⟩
        rcases mem_append.1 hins with hins | hins
        · exact ⟨ins, hins, hfinished, hseg⟩
        · obtain rfl := mem_singleton.1 hins
          dsimp only at hfinished
          rw [hstart, hphase] at hfinished
          cases hfinished
      · rintro ⟨ins, hins, hrest⟩
        exact ⟨ins, mem_append_left _ hins, hrest⟩
  · intro ins hins hcopied
    rcases mem_append.1 hins with hins | hins
    · exact h.reuse ins hins hcopied
    · obtain rfl := mem_singleton.1 hins
      rw [hstart, hphase] at hcopied
      exact absurd rfl hcopied

section

variable (h : conf.Inv b s)
include h

/-- The phase of one group changes: the buffer it uses may be reused whatever its phase is. -/
lemma reuse_update (hins : ins ∈ s.inserts) (hreuse : conf.CanReuse s ins) {phase : InsertPhase} :
    ∀ ins' ∈ s.inserts, update s.phase ins.startBytePos phase ins'.startBytePos ≠ .reserved →
      conf.CanReuse s ins' := by
  intro ins' hins' hcopied
  by_cases hp : ins'.startBytePos = ins.startBytePos
  · rw [h.eq_of_startBytePos hins' hins hp]
    exact hreuse
  · rw [update_of_ne hp] at hcopied
    exact h.reuse ins' hins' hcopied

/-- Setting the phase of an insert leaves the bytes not reserved yet. -/
lemma unused_update (hins : ins ∈ s.inserts) {phase : InsertPhase} :
    ∀ p, s.buffer.endBytePos ≤ p → update s.phase ins.startBytePos phase p = .reserved := by
  intro p hp
  have hbound := h.bounds hins
  have hlen : 0 < ins.data.length := length_pos_iff.2 hbound.2.1
  rw [update_of_ne (by omega)]
  exact h.unused p hp

/-- Copying keeps the invariant. -/
lemma copy (hstep : conf.step s (.copy p) = some s') : conf.Inv b s' := by
  unfold WalBufferConf.step at hstep
  obtain ⟨ins, hfind, hstep⟩ := Option.bind_eq_some_iff.1 hstep
  dsimp only at hstep
  split_ifs at hstep with hguard
  obtain ⟨hphase, hreuse⟩ := hguard
  obtain ⟨hins, rfl⟩ := mem_of_findInsert hfind
  cases hstep
  refine ⟨h.bytes, h.ring.congr fun p e hmem => ?_, h.scanned, h.flushed,
    h.reuse_update hins hreuse, h.unused_update hins, h.handed⟩
  -- the phase that changes is not, and does not become, finished
  have hiff : ∀ q, update s.phase ins.startBytePos .copied q = .finished ↔
      s.phase q = .finished := by
    intro q
    by_cases hq : q = ins.startBytePos
    · rw [hq, update_self, hphase]
      decide
    · rw [update_of_ne hq]
  unfold Finished
  simp only [hiff]

/-- The segments of a group that is less than a turn ahead are stored. -/
lemma ring_markInsertFinish (hins : ins ∈ s.inserts)
    (hphase : s.phase ins.startBytePos ≠ .finished) (hmark : conf.CanMark s ins) :
    SegmentRing.Inv conf.insertStatusEntryCnt (walBytePosToPlsn true conf.walFileSize b)
      (s.inserts.flatMap conf.segments) (walBytePosToPlsn true conf.walFileSize s.buffer.endBytePos)
      (fun p => conf.Finished s p ∨ ∃ e, (p, e) ∈ conf.segments ins)
      (conf.markInsertFinish s.buffer (conf.startPlsn ins) (conf.endPlsn ins)).insertStateEntrys
      s.buffer.maxContinuousPlsn := by
  have hmem : ∀ seg ∈ conf.segments ins, seg ∈ s.inserts.flatMap conf.segments := fun seg hseg =>
    mem_flatMap.2 ⟨ins, hins, hseg⟩
  have hnot : ∀ {p e}, (p, e) ∈ conf.segments ins → ¬conf.Finished s p := fun hseg hfinished =>
    hphase ((h.finished_iff hins hseg).1 hfinished)
  unfold markInsertFinish
  have hmark' : conf.startPlsn ins < s.buffer.maxContinuousPlsn + conf.insertStatusEntryCnt := hmark
  by_cases hheader : conf.startPlsn ins % conf.walFileSize = walFileHdrSize
  · -- the header before the group is stored first
    have hsegs : conf.segments ins = [(conf.startPlsn ins - walFileHdrSize, conf.startPlsn ins),
      (conf.startPlsn ins, conf.endPlsn ins)] := if_pos hheader
    have hfirst : (conf.startPlsn ins - walFileHdrSize, conf.startPlsn ins) ∈
        conf.segments ins := by
      rw [hsegs]
      exact mem_cons_self
    have hsecond : (conf.startPlsn ins, conf.endPlsn ins) ∈ conf.segments ins := by
      rw [hsegs]
      exact mem_cons_of_mem _ mem_cons_self
    have hle : walFileHdrSize ≤ conf.startPlsn ins := by
      have := Nat.mod_le (conf.startPlsn ins) conf.walFileSize
      omega
    have hpos : 0 < walFileHdrSize := by decide
    have hring := h.ring.finish (hmem _ hfirst) (hnot hfirst) (by omega)
    have hring' := hring.finish (hmem _ hsecond) (by
      rintro (hfinished | heq)
      · exact hnot hsecond hfinished
      · omega) hmark'
    dsimp only
    rw [if_pos hheader]
    refine hring'.congr fun p e _ => ?_
    rw [hsegs]
    simp only [mem_cons, Prod.mk.injEq, not_mem_nil, or_false, exists_or,
      exists_and_left, exists_eq, and_true]
    rw [or_assoc]
  · have hsegs : conf.segments ins = [(conf.startPlsn ins, conf.endPlsn ins)] := if_neg hheader
    have hsecond : (conf.startPlsn ins, conf.endPlsn ins) ∈ conf.segments ins := by
      rw [hsegs]
      exact mem_cons_self
    dsimp only
    rw [if_neg hheader]
    refine (h.ring.finish (hmem _ hsecond) (hnot hsecond) hmark').congr fun p e _ => ?_
    rw [hsegs]
    simp only [mem_singleton, Prod.mk.injEq, exists_and_left, exists_eq, and_true]

/-- A group that was copied is finished. -/
lemma finish (hstep : conf.step s (.finish p) = some s') : conf.Inv b s' := by
  unfold WalBufferConf.step at hstep
  obtain ⟨ins, hfind, hstep⟩ := Option.bind_eq_some_iff.1 hstep
  split_ifs at hstep with hguard
  obtain ⟨hphase, hmark⟩ := hguard
  obtain ⟨hins, rfl⟩ := mem_of_findInsert hfind
  cases hstep
  have hring := h.ring_markInsertFinish hins (by rw [hphase]; decide) hmark
  have hreuse := h.reuse ins hins (by rw [hphase]; decide)
  refine ⟨h.bytes, hring.congr fun p e _ => ?_, h.scanned, h.flushed, h.reuse_update hins hreuse,
    h.unused_update hins, h.handed⟩
  constructor
  · rintro ⟨ins', hins', hfinished, hseg⟩
    by_cases hp : ins'.startBytePos = ins.startBytePos
    · rw [h.eq_of_startBytePos hins' hins hp] at hseg
      exact Or.inr hseg
    · dsimp only at hfinished
      rw [update_of_ne hp] at hfinished
      exact Or.inl ⟨ins', hins', hfinished, hseg⟩
  · rintro (⟨ins', hins', hfinished, hseg⟩ | hseg)
    · refine ⟨ins', hins', ?_, hseg⟩
      by_cases hp : ins'.startBytePos = ins.startBytePos
      · dsimp only
        rw [hp, update_self]
      · dsimp only
        rwa [update_of_ne hp]
    · exact ⟨ins, hins, update_self .., hseg⟩

/-- The scan of the status entries keeps the invariant of the ring. -/
lemma ring_getMaxContinuesPlsn :
    SegmentRing.Inv conf.insertStatusEntryCnt (walBytePosToPlsn true conf.walFileSize b)
        (s.inserts.flatMap conf.segments)
        (walBytePosToPlsn true conf.walFileSize s.buffer.endBytePos) (conf.Finished s)
        s.buffer.insertStateEntrys (conf.getMaxContinuesPlsn s.buffer) ∧
      s.buffer.maxContinuousPlsn ≤ conf.getMaxContinuesPlsn s.buffer := by
  unfold getMaxContinuesPlsn
  exact ⟨h.ring.scan.1, h.ring.scan.2.1⟩

/-- What `GetNextFlushData` hands out: everything up to the scanner, but not across the end of the
ring. -/
lemma getNextFlushData_eq : ∃ endPlsn flushed, conf.getNextFlushData s.buffer = some
        ({ s.buffer with
          maxContinuousPlsn := conf.getMaxContinuesPlsn s.buffer
          lastScannedPlsn := endPlsn }, flushed) ∧
      endPlsn = min (conf.getMaxContinuesPlsn s.buffer)
        ((s.buffer.lastScannedPlsn / conf.bufferSize + 1) * conf.bufferSize) ∧
      flushed.startPlsn = s.buffer.lastScannedPlsn ∧ flushed.endPlsn = endPlsn ∧
      s.buffer.lastScannedPlsn ≤ endPlsn ∧
      (flushed.data = none ↔ endPlsn = s.buffer.lastScannedPlsn) := by
  have hle := h.scanned.trans h.ring_getMaxContinuesPlsn.2
  have htail : s.buffer.lastScannedPlsn <
      (s.buffer.lastScannedPlsn / conf.bufferSize + 1) * conf.bufferSize := by
    have := Nat.div_add_mod' s.buffer.lastScannedPlsn conf.bufferSize
    have := Nat.mod_lt s.buffer.lastScannedPlsn conf.bufferSize_pos
    rw [Nat.add_one_mul]
    omega
  unfold getNextFlushData
  dsimp only
  generalize conf.getMaxContinuesPlsn s.buffer = bound at hle ⊢
  generalize (s.buffer.lastScannedPlsn / conf.bufferSize + 1) * conf.bufferSize = tail at htail ⊢
  by_cases hnone : bound = s.buffer.lastScannedPlsn
  · rw [if_pos hnone]
    refine ⟨s.buffer.lastScannedPlsn, _, rfl, ?_, rfl, rfl, le_rfl, by simp⟩
    omega
  · rw [if_neg hnone]
    have hend : (if decide (tail ≤ bound) = true then tail else bound) = min bound tail := by
      split_ifs with htail'
      · rw [min_eq_right (of_decide_eq_true htail')]
      · rw [min_eq_left (not_le.1 fun hle' => htail' (decide_eq_true hle')).le]
    rw [hend, if_neg (by omega)]
    exact ⟨min bound tail, _, rfl, rfl, rfl, rfl, by omega, by simp; omega⟩

/-- Starting a flush keeps the invariant. -/
lemma flush (hstep : conf.step s .flush = some s') : conf.Inv b s' := by
  obtain ⟨endPlsn, flushed, hdata, hend, hstart, hflushed, hle, hnone⟩ := h.getNextFlushData_eq
  have hring := h.ring_getMaxContinuesPlsn.1
  unfold WalBufferConf.step at hstep
  dsimp only at hstep
  rw [hdata] at hstep
  generalize conf.getMaxContinuesPlsn s.buffer = bound at hstep hend hring
  have hbound : endPlsn ≤ bound := hend ▸ min_le_left _ _
  cases hstep
  refine ⟨h.bytes, hring.congr fun p e _ => Iff.rfl, hbound, h.flushed.trans hle,
    h.reuse, h.unused, ?_⟩
  dsimp only
  split_ifs with hempty
  · rw [hnone.1 hempty]
    exact h.handed
  · have hne := mt hnone.2 hempty
    rw [hstart, hflushed]
    exact h.handed.append ⟨rfl, by omega, rfl⟩

/-- So does finishing it. -/
lemma flushFinish (hstep : conf.step s (.flushFinish plsn) = some s') : conf.Inv b s' := by
  unfold WalBufferConf.step at hstep
  dsimp only at hstep
  split_ifs at hstep with hguard
  cases hstep
  refine ⟨h.bytes, h.ring, h.scanned, hguard.2, fun ins hins hcopied => ?_, h.unused, h.handed⟩
  -- what could be reused still can
  have hreuse := h.reuse ins hins hcopied
  unfold CanReuse at hreuse ⊢
  dsimp only
  omega

/-- So does every step. -/
lemma step {action : WalInsertAction} (hstep : conf.step s action = some s') : conf.Inv b s' := by
  cases action with
  | reserve data => exact h.reserve hstep
  | copy p => exact h.copy hstep
  | finish p => exact h.finish hstep
  | flush => exact h.flush hstep
  | flushFinish plsn => exact h.flushFinish hstep

end

end Inv

/-- It holds in every reachable state. -/
lemma Reachable.inv (h : conf.Reachable b s) : conf.Inv b s := by
  induction h with
  | init ring => exact Inv.init conf b ring
  | step action _ hstep ih => exact ih.step hstep

/-! ## The flusher -/

/-- The state after some actions. -/
def run (conf : WalBufferConf) (s : WalInsertState) (actions : List WalInsertAction) :
    Option WalInsertState :=
  actions.foldlM conf.step s

/-- Every range starts where the last one ended. The next range exists, contains only bytes of
groups that were reserved, and no byte of a group that is not finished. A byte of a later group that
was copied is not in the place of a byte of an earlier one that is not flushed, and the copy of a
group leaves the bytes of other groups that were copied and are not flushed. When all groups are
finished, enough calls hand out everything up to the end of the last one. -/
structure FlushesFinished (conf : WalBufferConf) (b : ℕ) (s : WalInsertState) : Prop where
  consecutive : Chain (walBytePosToPlsn true conf.walFileSize b) s.handedOut
    s.buffer.lastScannedPlsn
  finished : ∃ buffer flushed, conf.getNextFlushData s.buffer = some (buffer, flushed) ∧
    flushed.startPlsn = s.buffer.lastScannedPlsn ∧
    ∀ plsn, flushed.startPlsn ≤ plsn → plsn < flushed.endPlsn →
      (∃ ins ∈ s.inserts, conf.Covers ins plsn) ∧
      ∀ ins ∈ s.inserts, conf.Covers ins plsn → s.phase ins.startBytePos = .finished
  alone : ∀ ins ∈ s.inserts, ∀ ins' ∈ s.inserts, ins.startBytePos < ins'.startBytePos →
    s.phase ins'.startBytePos ≠ .reserved →
    ∀ plsn plsn', conf.Covers ins plsn → conf.Covers ins' plsn' →
      conf.getBufferBlock plsn = conf.getBufferBlock plsn' → plsn < s.maxFlushFinishPlsn
  untouched : walBlckSz ∣ conf.walFileSize → ∀ p s', conf.step s (.copy p) = some s' →
    ∀ ins ∈ s.inserts, ins.startBytePos ≠ p → s.phase ins.startBytePos ≠ .reserved →
    ∀ plsn, conf.Covers ins plsn → s.maxFlushFinishPlsn ≤ plsn →
      s'.buffer.blockPtrArr (conf.getBufferBlock plsn) =
        s.buffer.blockPtrArr (conf.getBufferBlock plsn)
  all : (∀ ins ∈ s.inserts, s.phase ins.startBytePos = .finished) → ∃ n, ∀ m, n ≤ m →
    ∃ s', conf.run s (List.replicate m .flush) = some s' ∧ s'.buffer.lastScannedPlsn =
      walBytePosToPlsn true conf.walFileSize s.buffer.endBytePos

/-- The buffer is used as a ring. -/
lemma getBufferBlock_eq (conf : WalBufferConf) (plsn : ℕ) :
    conf.getBufferBlock plsn = plsn % conf.bufferSize := by
  rw [getBufferBlock, bufferSize, Nat.mul_comm conf.blockCount, Nat.mod_mul, Nat.mul_comm,
    Nat.add_comm]

namespace Inv

/-- What a scanner of the ring has passed is finished. -/
lemma finished_of_lt {pos : ℕ} (h : conf.Inv b s) (hring : SegmentRing.Inv conf.insertStatusEntryCnt
      (walBytePosToPlsn true conf.walFileSize b) (s.inserts.flatMap conf.segments)
      (walBytePosToPlsn true conf.walFileSize s.buffer.endBytePos) (conf.Finished s)
      s.buffer.insertStateEntrys pos)
    (hstart : walBytePosToPlsn true conf.walFileSize b ≤ plsn) (hend : plsn < pos) :
    (∃ ins ∈ s.inserts, conf.Covers ins plsn) ∧
      ∀ ins ∈ s.inserts, conf.Covers ins plsn → s.phase ins.startBytePos = .finished := by
  obtain ⟨p, e, hmem, hp, he⟩ := hring.chain.exists_mem hstart (hend.trans_le hring.pos_le_last)
  obtain ⟨ins, hins, hseg⟩ := mem_flatMap.1 hmem
  have hbound := (conf.chain_segments (h.bounds hins).2.1).bounds hseg
  have hcovers : conf.Covers ins plsn := ⟨hbound.1.trans hp, he.trans_le hbound.2.2⟩
  have hfinished := (h.finished_iff hins hseg).1 (hring.passed p e hmem (hp.trans_lt hend))
  refine ⟨⟨ins, hins, hcovers⟩, fun ins' hins' hcovers' => ?_⟩
  rwa [h.eq_of_covers hins' hins hcovers' hcovers]

/-- A group that may be copied is less than a turn ahead of what is flushed. -/
lemma alone (h : conf.Inv b s) (hins : ins ∈ s.inserts) (hins' : ins' ∈ s.inserts)
    (hlt : ins.startBytePos < ins'.startBytePos) (hreuse : conf.CanReuse s ins')
    {plsn' : ℕ} (hcovers : conf.Covers ins plsn) (hcovers' : conf.Covers ins' plsn')
    (hplace : conf.getBufferBlock plsn = conf.getBufferBlock plsn') :
    plsn < s.maxFlushFinishPlsn := by
  have hbefore : plsn < plsn' :=
    hcovers.2.trans_le ((h.endPlsn_le hins hins' hlt).trans hcovers'.1)
  rw [getBufferBlock_eq, getBufferBlock_eq] at hplace
  -- the later byte is at least a turn ahead
  have hturn : plsn + conf.bufferSize ≤ plsn' := by
    have hdvd := Nat.dvd_of_mod_eq_zero (Nat.sub_mod_eq_zero_of_mod_eq hplace.symm)
    have hle := Nat.le_of_dvd (Nat.sub_pos_of_lt hbefore) hdvd
    omega
  have hmod := Nat.mod_lt (conf.endPlsn ins') (show 0 < walBlckSz by decide)
  have hend := hcovers'.2
  unfold CanReuse at hreuse
  omega

/-- The copy of a group leaves the bytes of other groups that are still needed. -/
lemma copy_untouched (h : conf.Inv b s) (hblock : walBlckSz ∣ conf.walFileSize)
    (hstep : conf.step s (.copy p) = some s') (hins : ins ∈ s.inserts)
    (hne : ins.startBytePos ≠ p) (hcopied : s.phase ins.startBytePos ≠ .reserved)
    (hcovers : conf.Covers ins plsn) (hflushed : s.maxFlushFinishPlsn ≤ plsn) :
    s'.buffer.blockPtrArr (conf.getBufferBlock plsn) =
      s.buffer.blockPtrArr (conf.getBufferBlock plsn) := by
  unfold WalBufferConf.step at hstep
  obtain ⟨new, hfind, hstep⟩ := Option.bind_eq_some_iff.1 hstep
  dsimp only at hstep
  split_ifs at hstep with hguard hend
  obtain ⟨hphase, hreuse⟩ := hguard
  obtain ⟨hnew, rfl⟩ := mem_of_findInsert hfind
  cases hstep
  refine copyToBuffer_same hblock (not_not.1 hend) _ fun plsn' hfrom hto hplace => ?_
  rcases Nat.lt_or_gt_of_ne hne with hlt | hgt
  · have hdone := h.alone hins hnew hlt hreuse hcovers ⟨hfrom, hto⟩ hplace.symm
    omega
  · -- a byte that is flushed belongs to a finished group
    have hdone := h.alone hnew hins hgt (h.reuse ins hins hcopied) ⟨hfrom, hto⟩ hcovers hplace
    have hstart : walBytePosToPlsn true conf.walFileSize b ≤ plsn' :=
      ((walBytePosToPlsn_strictMono conf.header_lt_file true).monotone (h.bounds hnew).1).trans
        hfrom
    have hfinished := (h.finished_of_lt h.ring hstart
      (hdone.trans_le (h.flushed.trans h.scanned))).2 new hnew ⟨hfrom, hto⟩
    rw [hphase] at hfinished
    cases hfinished

section

variable (h : conf.Inv b s) (hall : ∀ ins ∈ s.inserts, s.phase ins.startBytePos = .finished)
include h hall

/-- With all inserts finished a flush reaches the end or the next border of the buffer. -/
lemma flush_all : ∃ s', conf.step s .flush = some s' ∧ s'.inserts = s.inserts ∧ s'.phase = s.phase ∧
      s'.buffer.endBytePos = s.buffer.endBytePos ∧ s'.buffer.lastScannedPlsn =
        min (walBytePosToPlsn true conf.walFileSize s.buffer.endBytePos)
          ((s.buffer.lastScannedPlsn / conf.bufferSize + 1) * conf.bufferSize) := by
  obtain ⟨endPlsn, flushed, hdata, hend, -⟩ := h.getNextFlushData_eq
  have hscan : conf.getMaxContinuesPlsn s.buffer =
      walBytePosToPlsn true conf.walFileSize s.buffer.endBytePos := by
    unfold getMaxContinuesPlsn
    refine h.ring.scan_eq_last fun p e hmem => ?_
    obtain ⟨ins, hins, hseg⟩ := mem_flatMap.1 hmem
    exact (h.finished_iff hins hseg).2 (hall ins hins)
  rw [hscan] at hend
  unfold WalBufferConf.step
  dsimp only
  rw [hdata]
  exact ⟨_, rfl, rfl, rfl, rfl, hend⟩

/-- Some flushes write all that is finished. -/
lemma run_flush (n : ℕ) (hn : s.buffer.lastScannedPlsn =
        walBytePosToPlsn true conf.walFileSize s.buffer.endBytePos ∨
      walBytePosToPlsn true conf.walFileSize s.buffer.endBytePos / conf.bufferSize + 1 ≤
        s.buffer.lastScannedPlsn / conf.bufferSize + n) :
    ∃ s', conf.run s (replicate n .flush) = some s' ∧ s'.buffer.lastScannedPlsn =
      walBytePosToPlsn true conf.walFileSize s.buffer.endBytePos := by
  induction n generalizing s with
  | zero =>
    refine ⟨s, rfl, hn.resolve_right fun hle => ?_⟩
    have hdiv := Nat.div_le_div_right (c := conf.bufferSize)
      (h.scanned.trans h.ring.pos_le_last)
    omega
  | succ n ih =>
    obtain ⟨s1, hstep, hinserts, hphase, hpos, hscanned⟩ := h.flush_all hall
    have hall1 : ∀ ins ∈ s1.inserts, s1.phase ins.startBytePos = .finished := by
      rw [hinserts, hphase]
      exact hall
    have hnext := (h.step hstep).scanned.trans (h.step hstep).ring.pos_le_last
    obtain ⟨s', hrun, hlast⟩ := ih (h.step hstep) hall1 (by
      rw [hpos, hscanned]
      rcases Nat.lt_or_ge (walBytePosToPlsn true conf.walFileSize s.buffer.endBytePos)
        ((s.buffer.lastScannedPlsn / conf.bufferSize + 1) * conf.bufferSize) with hlt | hge
      · exact Or.inl (min_eq_left hlt.le)
      · -- the call ends at the end of the ring
        rw [min_eq_right hge, Nat.mul_div_cancel _ conf.bufferSize_pos]
        refine Or.inr ?_
        have hdiv := Nat.div_le_div_right (c := conf.bufferSize) hge
        rw [Nat.mul_div_cancel _ conf.bufferSize_pos] at hdiv
        rcases hn with heq | hle
        · rw [heq] at hdiv
          omega
        · omega)
    refine ⟨s', ?_, by rw [hlast, hpos]⟩
    rw [replicate_succ]
    unfold run
    rw [foldlM_cons, hstep]
    exact hrun

end

end Inv

/-- Over every interleaving of inserters and the flusher, only finished log is handed out, in order,
from a place in the ring that holds it, and in the end all of it. -/
theorem Reachable.flushesFinished (h : conf.Reachable b s) : conf.FlushesFinished b s := by
  have hinv := h.inv
  refine ⟨hinv.handed, ?_, fun ins hins ins' hins' hlt hcopied plsn plsn' =>
    hinv.alone hins hins' hlt (hinv.reuse ins' hins' hcopied), fun hblock p s' hstep ins hins hne
      hcopied plsn => hinv.copy_untouched hblock hstep hins hne hcopied, fun hall => ?_⟩
  · obtain ⟨endPlsn, flushed, hdata, hend, hstart, hflushed, -⟩ := hinv.getNextFlushData_eq
    refine ⟨_, flushed, hdata, hstart, fun plsn hle hlt => ?_⟩
    refine hinv.finished_of_lt hinv.ring_getMaxContinuesPlsn.1
      (hinv.handed.le.trans (hstart ▸ hle)) ?_
    rw [hflushed, hend] at hlt
    exact hlt.trans_le (min_le_left _ _)
  · refine ⟨walBytePosToPlsn true conf.walFileSize s.buffer.endBytePos / conf.bufferSize + 1,
      fun m hm => hinv.run_flush hall m (Or.inr (hm.trans (Nat.le_add_left _ _)))⟩

/-- A buffer of 128 blocks for files of 16384 bytes. -/
def twoBlockFiles : WalBufferConf := ⟨16384, 128, 24, by decide, by decide⟩

/-- The inserters of two groups, of which the second is the faster one. -/
def twoInserts : List WalInsertAction :=
  [.reserve [1, 2, 3, 4], .reserve [5, 6], .copy 16344, .copy 16340, .finish 16344, .finish 16340]

lemma run_cons {action : WalInsertAction} {actions : List WalInsertAction} {s'' : WalInsertState}
    (hstep : conf.step s action = some s') (hrun : conf.run s' actions = some s'') :
    conf.run s (action :: actions) = some s'' := by
  unfold run
  rw [foldlM_cons, hstep]
  exact hrun

lemma Reachable.run {actions : List WalInsertAction} (h : conf.Reachable b s)
    (hrun : conf.run s actions = some s') : conf.Reachable b s' := by
  induction actions generalizing s with
  | nil =>
    cases hrun
    exact h
  | cons action actions ih =>
    obtain ⟨s₁, hstep, hrun⟩ := Option.bind_eq_some_iff.1 hrun
    exact ih (.step action h hstep) hrun

lemma step_reserve {data : List UInt8} (hdata : data ≠ [])
    (hle : data.length ≤ conf.maxReserveSize) :
    conf.step s (.reserve data) = some { s with
      buffer := { s.buffer with endBytePos := s.buffer.endBytePos + data.length }
      inserts := s.inserts ++ [⟨s.buffer.endBytePos, data⟩] } := by
  unfold step reserveInsertByteLocation
  dsimp only
  rw [if_neg hdata, if_neg (not_lt.2 hle), Option.map_some]

/-- A copy that fits in its block. -/
lemma step_copy (hfind : findInsert s p = some ins) (hphase : s.phase p = .reserved)
    (hreuse : conf.CanReuse s ins)
    (hle : ins.data.length ≤ calculateFreeSpaceInBlock (conf.startPlsn ins))
    (hend : conf.startPlsn ins + ins.data.length = conf.endPlsn ins) :
    conf.step s (.copy p) = some { s with
      buffer := { s.buffer with
        blockPtrArr := (conf.copyToBuffer ins.data (conf.startPlsn ins) s.buffer.blockPtrArr).1 }
      phase := update s.phase p .copied } := by
  have hcopy : (conf.copyToBuffer ins.data (conf.startPlsn ins) s.buffer.blockPtrArr).2 =
      conf.endPlsn ins := by
    unfold copyToBuffer
    dsimp only
    rw [copyLoop, if_neg (not_lt.2 hle), ← hend]
  unfold step
  dsimp only
  rw [hfind, Option.bind_some, if_pos ⟨hphase, hreuse⟩, if_neg (not_not.2 hcopy)]

/-- The first group ends its file, the second one starts the next. When both are finished, a flush
hands out all of it. -/
theorem flushesFinished_two_groups : ∃ s s',
    twoBlockFiles.run (twoBlockFiles.init 16340 fun _ => 0) twoInserts = some s ∧
    twoBlockFiles.step s .flush = some s' ∧ s'.buffer.lastScannedPlsn = 16426 ∧
    twoBlockFiles.FlushesFinished 16340 s' := by
  obtain ⟨s, hrun, hall, hpos, hscanned⟩ : ∃ s,
      twoBlockFiles.run (twoBlockFiles.init 16340 fun _ => 0) twoInserts = some s ∧
      (∀ ins ∈ s.inserts, s.phase ins.startBytePos = .finished) ∧
      s.buffer.endBytePos = 16346 ∧ s.buffer.lastScannedPlsn = 16380 :=
    ⟨_, run_cons (step_reserve (by decide) (by decide)) (run_cons
      (step_reserve (by decide) (by decide)) (run_cons
      (step_copy rfl rfl (by decide) (by decide) (by decide)) (run_cons
      (step_copy rfl rfl (by decide) (by decide) (by decide)) (run_cons rfl (run_cons rfl rfl))))),
      by decide, rfl, rfl⟩
  have hreach := (Reachable.init _).run hrun
  obtain ⟨s', hstep, -, -, -, hlast⟩ := hreach.inv.flush_all hall
  rw [hpos, hscanned] at hlast
  exact ⟨s, s', hrun, hstep, hlast, Reachable.flushesFinished (.step .flush hreach hstep)⟩

end WalBufferConf

end DStore
