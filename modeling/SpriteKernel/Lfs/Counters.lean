import SpriteKernel.Lfs.CleanList

/- The counters of the usage array: the dirty segments, and the free blocks, from which live bytes are taken when
   written and to which they go back when they die. They are exact in runs in which no old segment of the log is
   flagged dirty already when a new one is taken (`counters_of_run`). -/
namespace SpriteKernel.Lfs

open List

open SpriteKernel Transition

namespace SegUsage

/-- The counters are exact: `total` blocks are free or taken, and the dirty segments are
counted. -/
structure Counted (u : SegUsage) (blocks : Int) : Prop where
  sound : Sound u
  dirty : u.checkPoint.numDirty = u.dirtyCount
  separate : ∀ i, (u.entry i).clean = true → (u.entry i).dirty = false
  total : u.total = blocks

variable {u u' : SegUsage} {blocks : Int}

theorem Counted.adjusts (h : Counted u blocks) (ha : Adjusts u u') : Counted u' blocks := by
  refine ⟨ha.toFrames.sound h.sound, ?_, fun i hi => ?_, ha.total.trans h.total⟩
  · have hexcess := ha.excess
    have hdirty := h.dirty
    omega
  · rw [ha.clean] at hi
    rw [ha.entry i (.inl hi)]
    exact h.separate i hi

theorem Counted.stop (h : Counted u blocks) : Counted u.stop blocks :=
  ⟨⟨h.sound.valid, h.sound.unclean, h.sound.placed⟩, h.dirty, h.separate, h.total⟩

variable {i : Int}

theorem charge_congr (hp : u'.params = u.params)
    (hc : (u'.entry i).clean = (u.entry i).clean)
    (ha : (u.entry i).clean = false → i ≠ u.checkPoint.currentSegment →
      (u'.entry i).activeBytes = (u.entry i).activeBytes)
    (hcur : u'.checkPoint.currentSegment = u.checkPoint.currentSegment)
    (hbytes : u'.checkPoint.curSegActiveBytes = u.checkPoint.curSegActiveBytes) : u'.charge i = u.charge i := by
  unfold charge
  rw [hp, hc, hcur, hbytes]
  split
  · rfl
  · next hclean =>
    split
    · rfl
    · next hi => rw [ha (Bool.eq_false_iff.mpr hclean) hi]

theorem charge_of_clean (h : (u.entry i).clean = true) : u.charge i = 0 := by
  unfold charge
  rw [if_pos h]

theorem charge_current (h : Sound u) :
    u.charge u.checkPoint.currentSegment = u.params.bytesToBlocks u.checkPoint.curSegActiveBytes := by
  unfold charge
  rw [h.unclean, if_neg Bool.false_ne_true, if_pos rfl]

theorem charge_of_ne (hc : (u.entry i).clean = false)
    (hi : i ≠ u.checkPoint.currentSegment) : u.charge i = u.params.bytesToBlocks (u.entry i).activeBytes := by
  unfold charge
  rw [hc, if_neg Bool.false_ne_true, if_neg hi]

variable {v : SegUsage} {n segNumber segNum : Int}

theorem Counted.store (h : Counted u blocks) (hp : v.params = u.params)
    (hv : u.params.validSegmentNum n) (hs : Sound v) (hfree : v.checkPoint.freeBlocks = u.checkPoint.freeBlocks)
    (hcharge : ∀ i, v.charge i = u.charge i) (hentry : ∀ i, i ≠ n → v.entry i = u.entry i)
    (hdirty : v.checkPoint.numDirty - (if (v.entry n).dirty then 1 else 0) =
      u.checkPoint.numDirty - if (u.entry n).dirty then 1 else 0)
    (hsep : (v.entry n).clean = true → (v.entry n).dirty = false) : Counted v blocks := by
  refine ⟨hs, ?_, fun i hi => ?_, ?_⟩
  · have hsum := Tally.sum_range_change (f := fun i => if (u.entry i).dirty then 1 else 0)
      (g := fun i => if (v.entry i).dirty then 1 else 0) hv (fun i hi => by rw [hentry i hi])
    have hold := h.dirty
    unfold dirtyCount at hold ⊢
    rw [hp, hsum]
    omega
  · by_cases hin : i = n
    · rw [hin] at hi ⊢
      exact hsep hi
    · rw [hentry i hin] at hi ⊢
      exact h.separate i hi
  · rw [← h.total]
    unfold SegUsage.total
    rw [hfree, hp]
    congr 1
    exact Finset.sum_congr rfl (fun i _ => hcharge i)

theorem Sound.congr (h : Sound u) (hp : v.params = u.params)
    (hcur : v.checkPoint.currentSegment = u.checkPoint.currentSegment) (hindex : v.blockIndex = u.blockIndex)
    (hclean : ∀ i, (v.entry i).clean = (u.entry i).clean) : Sound v := by
  have hseg : ∀ b, v.segmentOf b = u.segmentOf b := by
    intro b
    unfold segmentOf
    rw [hp, hindex]
  refine ⟨?_, ?_, fun b hb => ?_⟩
  · rw [hp, hcur]
    exact h.valid
  · rw [hcur, hclean]
    exact h.unclean
  · rw [hindex] at hb
    rw [hseg, hp, hclean]
    exact h.placed b hb

theorem Counted.flagDirty (h : Counted u blocks) (hv : u.params.validSegmentNum n)
    (hc : (u.entry n).clean = false) (hd : (u.entry n).dirty = false) :
    Counted ((u.setCheckPoint { u.checkPoint with numDirty := u.checkPoint.numDirty + 1 }).setEntry n
      { u.entry n with dirty := true }) blocks := by
  generalize hu' : (u.setCheckPoint { u.checkPoint with numDirty := u.checkPoint.numDirty + 1 }).setEntry n
    { u.entry n with dirty := true } = v
  have hself : v.entry n = { u.entry n with dirty := true } := by rw [← hu', setEntry_entry_self]
  have hother : ∀ i, i ≠ n → v.entry i = u.entry i := by
    intro i hi
    rw [← hu', setEntry_entry_of_ne hi, setCheckPoint_entry]
  have hsame : ∀ i, (v.entry i).clean = (u.entry i).clean ∧ (v.entry i).activeBytes = (u.entry i).activeBytes := by
    intro i
    by_cases hi : i = n
    · rw [hi, hself]
      exact ⟨rfl, rfl⟩
    · rw [hother i hi]
      exact ⟨rfl, rfl⟩
  have hp : v.params = u.params := by rw [← hu', setEntry_params, setCheckPoint_params]
  have hcp : v.checkPoint = { u.checkPoint with numDirty := u.checkPoint.numDirty + 1 } := by
    rw [← hu', setEntry_checkPoint, setCheckPoint_checkPoint]
  have hindex : v.blockIndex = u.blockIndex := by rw [← hu', setEntry_blockIndex, setCheckPoint_blockIndex]
  refine h.store hp hv (h.sound.congr hp (by rw [hcp]) hindex (fun i => (hsame i).1)) (by rw [hcp])
    (fun i => charge_congr hp (hsame i).1 (fun _ _ => (hsame i).2) (by rw [hcp]) (by rw [hcp])) hother ?_ ?_
  · rw [hcp, hself, hd]
    simp only [if_true, Bool.false_eq_true, if_false]
    omega
  · rw [(hsame n).1, hc]
    exact fun hf => absurd hf Bool.false_ne_true

theorem Counted.storeLink (h : Counted u blocks) (hv : u.params.validSegmentNum n)
    (hc : (u.entry n).clean = true) (link : Int) :
    Counted (u.setEntry n { u.entry n with activeBytes := link }) blocks := by
  have hsame : ∀ i, ((u.setEntry n { u.entry n with activeBytes := link }).entry i).clean = (u.entry i).clean := by
    intro i
    by_cases hi : i = n
    · rw [hi, setEntry_entry_self]
    · rw [setEntry_entry_of_ne hi]
  refine h.store rfl hv (h.sound.congr rfl rfl rfl hsame) rfl (fun i => ?_) (fun i hi => setEntry_entry_of_ne hi _ _)
    ?_ ?_
  · refine charge_congr rfl (hsame i) (fun hci _ => ?_) rfl rfl
    rw [setEntry_entry_of_ne]
    intro he
    rw [he, hc] at hci
    exact Bool.false_ne_true hci.symm
  · rw [setEntry_entry_self, setEntry_checkPoint]
  · rw [setEntry_entry_self]
    exact h.separate n

/-! ## The log -/

/-- The old current segment is not counted dirty a second time. -/
def RetiresOnce (u : SegUsage) : Prop :=
  (u.entry u.checkPoint.currentSegment).dirty = true → u.checkPoint.dirtyActiveBytes < u.checkPoint.curSegActiveBytes

/-- Taking a new segment does not free a block of the array out of the old one. -/
def RetiresWhole (u : SegUsage) : Prop :=
  u.blockOf u.checkPoint.currentSegment = u.blockOf u.checkPoint.cleanSegList ∨
    u.checkPoint.currentSegment ∉ frees (u.numBlocks + 1) (u.blockOf u.checkPoint.currentSegment) u

theorem Counted.retireCurrent (h : Counted u blocks) (hr : RetiresOnce u) : Counted u.retireCurrent blocks := by
  have hself : u.retireCurrent.entry u.checkPoint.currentSegment = { u.entry u.checkPoint.currentSegment with
      activeBytes := u.checkPoint.curSegActiveBytes
      dirty := (u.entry u.checkPoint.currentSegment).dirty ||
        decide (u.checkPoint.curSegActiveBytes ≤ u.checkPoint.dirtyActiveBytes)
      timeOfLastWrite := u.timeOfLastWrite } := by
    exact setEntry_entry_self _ _ _
  refine h.store rfl h.sound.valid (h.sound.congr rfl rfl rfl (retireCurrent_clean u)) rfl (fun i => ?_)
    (fun i hi => retireCurrent_entry_of_ne hi) ?_ ?_
  · refine charge_congr rfl (retireCurrent_clean u i) (fun _ hi => ?_) rfl rfl
    rw [retireCurrent_entry_of_ne hi]
  · rw [hself]
    change (if decide (u.checkPoint.curSegActiveBytes ≤ u.checkPoint.dirtyActiveBytes) = true then
      u.checkPoint.numDirty + 1 else u.checkPoint.numDirty) - _ = _
    by_cases hlow : u.checkPoint.curSegActiveBytes ≤ u.checkPoint.dirtyActiveBytes
    · have hd : (u.entry u.checkPoint.currentSegment).dirty = false :=
        Bool.eq_false_iff.mpr (fun hd => absurd hlow (Int.not_le.mpr (hr hd)))
      simp only [hd, hlow, decide_true, Bool.or_true, if_true, Bool.false_eq_true, if_false]
      omega
    · simp only [hlow, decide_false, Bool.or_false, Bool.false_eq_true, if_false]
  · rw [hself]
    intro hc
    exact absurd (h.sound.unclean.symm.trans hc) Bool.false_ne_true

theorem retireCurrent_active (u : SegUsage) :
    (u.retireCurrent.entry u.checkPoint.currentSegment).activeBytes = u.checkPoint.curSegActiveBytes := by
  unfold retireCurrent
  rw [setEntry_entry_self]

theorem WellFormed.head_clean (h : WellFormed u) (hn : u.checkPoint.numClean ≠ 0) :
    u.params.validSegmentNum u.checkPoint.cleanSegList ∧ (u.entry u.checkPoint.cleanSegList).clean = true := by
  obtain ⟨l, hl⟩ := h.lists
  by_cases hhead : u.checkPoint.cleanSegList = -1
  · have hnil : l = [] := by
      have hlinks := hl.links
      rw [hhead] at hlinks
      exact hlinks.eq_nil
    have hlen := hl.length
    rw [hnil] at hlen
    exact absurd hlen.symm hn
  · obtain ⟨rest, rfl, -⟩ := hl.links.head hhead
    exact (hl.mem _).mp mem_cons_self

/-- The head becomes the current segment; the old one is charged what its entry says. -/
theorem Counted.takeClean (h : Counted u blocks) (hv : u.params.validSegmentNum n)
    (hc : (u.entry n).clean = true)
    (hbytes : (u.entry u.checkPoint.currentSegment).activeBytes = u.checkPoint.curSegActiveBytes) :
    Counted (u.takeClean n) blocks := by
  have hself := takeClean_entry_self n u
  have hcp := takeClean_checkPoint n u
  have hp := takeClean_params n u
  have hindex := takeClean_blockIndex n u
  have hne : u.checkPoint.currentSegment ≠ n := fun he => by
    rw [← he, h.sound.unclean] at hc
    exact Bool.false_ne_true hc
  have hseg : ∀ b, (u.takeClean n).segmentOf b = u.segmentOf b := by
    intro b
    unfold segmentOf
    rw [hp, hindex]
  have hsound : Sound (u.takeClean n) := by
    refine ⟨?_, ?_, fun b hb => ?_⟩
    · rw [hp, hcp]
      exact hv
    · rw [hcp, hself]
    · rw [hindex] at hb
      obtain ⟨hvb, hcb⟩ := h.sound.placed b hb
      have hbn : u.segmentOf b ≠ n := fun he => by
        rw [he, hc] at hcb
        exact Bool.false_ne_true hcb.symm
      rw [hseg, hp, takeClean_entry_of_ne hbn]
      exact ⟨hvb, hcb⟩
  refine h.store hp hv hsound (by rw [hcp]) (fun i => ?_) (fun i hi => takeClean_entry_of_ne hi u) ?_ ?_
  · by_cases hin : i = n
    · have hcur : (u.takeClean n).checkPoint.currentSegment = n := by rw [hcp]
      have hnew := charge_current hsound
      rw [hcur, hp] at hnew
      rw [hin, hnew, charge_of_clean hc, hcp]
      exact u.params.bytesToBlocks_zero
    · by_cases hcur : i = u.checkPoint.currentSegment
      · rw [hcur, charge_current h.sound, charge_of_ne (by rw [takeClean_entry_of_ne hne]; exact h.sound.unclean)
          (by rw [hcp]; exact hne), takeClean_entry_of_ne hne, hp, hbytes]
      · unfold charge
        rw [takeClean_entry_of_ne hin, hp, hcp, if_neg hin, if_neg hcur]
  · rw [hself, hcp]
  · rw [hself]
    exact fun hf => absurd hf Bool.false_ne_true

theorem Counted.newLogSegment (h : Counted u blocks) (hw : WellFormed u)
    (hn : u.checkPoint.numClean ≠ 0) (hr : RetiresOnce u) (hwhole : RetiresWhole u) :
    Counted u.newLogSegment.2 blocks := by
  obtain ⟨hv, hc⟩ := hw.head_clean hn
  have hret := h.retireCurrent hr
  have hfirst : u.fetch u.checkPoint.currentSegment none =
      (some ⟨u.blockOf u.checkPoint.currentSegment, false⟩, u) := by
    unfold fetch
    rw [if_neg (not_not.mpr h.sound.valid)]
  unfold SegUsage.newLogSegment
  simp only [hfirst]
  have hv' : u.retireCurrent.params.validSegmentNum u.retireCurrent.checkPoint.cleanSegList := hv
  generalize hheld : (⟨u.blockOf u.checkPoint.currentSegment, true⟩ : SmemEntry) = held
  have hadj := adjusts_fetch hret.sound u.retireCurrent.checkPoint.cleanSegList (some held)
  obtain ⟨e, he, -⟩ := fetch_eq_some hv' (some held)
  -- the current segment's count is not touched by the release between the two fetches
  have hcur : (u.retireCurrent.fetch u.retireCurrent.checkPoint.cleanSegList (some held)).2.checkPoint.curSegActiveBytes =
      u.retireCurrent.checkPoint.curSegActiveBytes := by
    unfold fetch
    rw [if_neg (not_not.mpr hv'), ← hheld]
    simp only
    by_cases hblock : u.blockOf u.checkPoint.currentSegment =
        u.retireCurrent.blockOf u.retireCurrent.checkPoint.cleanSegList
    · rw [if_pos hblock]
    · rw [if_neg hblock]
      refine release_cur ?_
      have hfree := hwhole.resolve_left hblock
      have hsame : ∀ nested block, frees nested block u.retireCurrent = frees nested block u := frees_congr rfl rfl rfl
      rwa [hsame]
  generalize u.retireCurrent.fetch u.retireCurrent.checkPoint.cleanSegList (some held) = g at hadj he hcur ⊢
  obtain ⟨_, u₂⟩ := g
  obtain rfl : _ = some e := he
  have h₂ := hret.adjusts hadj
  have hclean₂ : (u₂.entry u.retireCurrent.checkPoint.cleanSegList).clean = true := by
    rw [hadj.clean, retireCurrent_clean]
    exact hc
  have hbytes : (u₂.entry u₂.checkPoint.currentSegment).activeBytes = u₂.checkPoint.curSegActiveBytes := by
    rw [hadj.currentSegment, hadj.entry _ (.inr rfl), hcur]
    exact retireCurrent_active u
  have htake := h₂.takeClean (n := u.retireCurrent.checkPoint.cleanSegList) (by rw [hadj.params]; exact hv) hclean₂ hbytes
  exact htake.adjusts (adjusts_release htake.sound _)

theorem RetiresWhole.congr (h : RetiresWhole u) (hp : u'.params = u.params)
    (hc : u'.checkPoint = u.checkPoint) (hi : u'.blockIndex = u.blockIndex) : RetiresWhole u' := by
  have hcur : u'.checkPoint.currentSegment = u.checkPoint.currentSegment := by rw [hc]
  unfold RetiresWhole blockOf numBlocks at *
  rw [hp, hc, frees_congr hp hi hcur]
  exact h

section
variable (h : Counted u blocks)
include h

theorem Counted.getLogTail (hw : WellFormed u)
    {cantWait : Bool} (hr : u.NeedsSegment cantWait → RetiresOnce u ∧ RetiresWhole u) :
    Counted (u.getLogTail cantWait).2 blocks := by
  obtain ⟨u', hu', hcases⟩ := getLogTail_cases cantWait u
  have hadj : Adjusts u u' := by
    rcases hu' with rfl | rfl
    · exact Adjusts.refl u'
    · exact adjusts_segCleanStart u
  have hsame : u'.checkPoint = u.checkPoint ∧ u'.entry = u.entry ∧ u'.blockIndex = u.blockIndex := by
    rcases hu' with rfl | rfl
    · exact ⟨rfl, rfl, rfl⟩
    · exact ⟨rfl, rfl, rfl⟩
  obtain ⟨hcp, hentry, hindex⟩ := hsame
  rcases hcases with ⟨-, hres⟩ | ⟨-, -, hres⟩ | ⟨hneeds, hres⟩
  · rw [hres]
    exact h.adjusts hadj
  · rw [hres]
    exact h.adjusts hadj
  · obtain ⟨honce, hwhole⟩ := hr hneeds
    rw [hres]
    refine (h.adjusts hadj).newLogSegment (hw.frames hadj.toFrames) ?_ ?_
      (hwhole.congr hadj.params hcp hindex)
    · rw [hcp]
      exact hneeds.2.1
    · unfold RetiresOnce at honce ⊢
      rw [hcp, hentry]
      exact honce

theorem Counted.setSegUsage
    (hc : u.params.validSegmentNum segNumber → (u.entry segNumber).clean = false) (activeBytes : Int) :
    Counted (u.setSegUsage segNumber activeBytes) blocks := by
  by_cases hv : u.params.validSegmentNum segNumber
  · exact h.adjusts (adjusts_setSegUsage h.sound hv (hc hv) activeBytes)
  · have hstop : u.setSegUsage segNumber activeBytes = u.stop := by
      unfold SegUsage.setSegUsage SegUsage.setSegUsageNested
      rw [if_pos hv]
    rw [hstop]
    exact h.stop

theorem Counted.setLogTail {range : SegLogRange}
    {startBlock activeBytes time : Int}
    (hc : 0 < activeBytes → u.params.validSegmentNum range.current → (u.entry range.current).clean = false) :
    Counted (u.setLogTail range startBlock activeBytes time) blocks := by
  unfold SegUsage.setLogTail
  have hset : Counted { u.setCheckPoint { u.checkPoint with currentBlockOffset := startBlock } with
      timeOfLastWrite := max u.timeOfLastWrite time } blocks :=
    ⟨⟨h.sound.valid, h.sound.unclean, h.sound.placed⟩, h.dirty, h.separate, h.total⟩
  split
  · next hpos => exact hset.setSegUsage (hc hpos) activeBytes
  · exact hset

end

/-! ## Dirty levels -/

theorem Counted.setDirtyLevelOf {h : Option SmemEntry × SegUsage} (hc : Counted h.2 blocks)
    (hv : h.2.params.validSegmentNum segNum) (level : Int) :
    Counted (SegUsage.setDirtyLevelOf level segNum h).2 blocks ∧
      (SegUsage.setDirtyLevelOf level segNum h).2.params = h.2.params := by
  unfold SegUsage.setDirtyLevelOf
  have hadj := adjusts_fetch hc.sound segNum h.1
  generalize h.2.fetch segNum h.1 = f at hadj ⊢
  obtain ⟨e | e, u⟩ := f
  · exact ⟨(hc.adjusts hadj).stop, hadj.params⟩
  simp only at hadj ⊢
  have hu := hc.adjusts hadj
  split
  · by_cases hflags : ((u.entry segNum).dirty || (u.entry segNum).clean) = true
    · rw [if_pos hflags]
      exact ⟨hu, hadj.params⟩
    · rw [if_neg hflags]
      rw [Bool.or_eq_true, not_or, Bool.not_eq_true, Bool.not_eq_true] at hflags
      exact ⟨hu.flagDirty (by rwa [hadj.params]) hflags.2 hflags.1, hadj.params⟩
  · exact ⟨hu, hadj.params⟩

theorem validSegmentNum_of_mem {p : SuperBlock} {n : Nat} (h : n ∈ List.range p.numberSegments) :
    p.validSegmentNum n := by
  rw [mem_range] at h
  unfold SuperBlock.validSegmentNum
  omega

theorem Counted.setDirtyLevel (h : Counted u blocks) (level : Int) : Counted (u.setDirtyLevel level) blocks := by
  have hlevel : Counted (u.setCheckPoint { u.checkPoint with dirtyActiveBytes := level }) blocks :=
    ⟨⟨h.sound.valid, h.sound.unclean, h.sound.placed⟩, h.dirty, h.separate, h.total⟩
  have hloop := List.foldlRecOn
    (motive := fun r : Option SmemEntry × SegUsage => Counted r.2 blocks ∧ r.2.params = u.params)
    (List.range u.params.numberSegments) (fun h (segNum : Nat) => SegUsage.setDirtyLevelOf level segNum h)
    (b := (none, u.setCheckPoint { u.checkPoint with dirtyActiveBytes := level })) ⟨hlevel, rfl⟩
    (fun r hr segNum hmem => by
      have hvalid : r.2.params.validSegmentNum segNum := by
        rw [hr.2]
        exact validSegmentNum_of_mem hmem
      have hstep := hr.1.setDirtyLevelOf hvalid level
      exact ⟨hstep.1, hstep.2.trans hr.2⟩)
  exact hloop.1.adjusts (adjusts_releaseHeld hloop.1.sound _)

theorem Counted.considerSeg {h : List SegListEntry × Option SmemEntry × SegUsage}
    (hc : Counted h.2.2 blocks) (hv : h.2.2.params.validSegmentNum segNum) (maxSegArrayLen : Nat)
    (currentTime : Int) :
    Counted (SegUsage.considerSeg maxSegArrayLen currentTime segNum h).2.2 blocks ∧
      (SegUsage.considerSeg maxSegArrayLen currentTime segNum h).2.2.params = h.2.2.params := by
  obtain ⟨segs, held, u⟩ := h
  unfold SegUsage.considerSeg
  simp only at hc hv ⊢
  split
  · exact ⟨hc, rfl⟩
  have hadj := adjusts_fetch hc.sound segNum held
  generalize u.fetch segNum held = f at hadj ⊢
  obtain ⟨e | e, u'⟩ := f
  · exact ⟨(hc.adjusts hadj).stop, hadj.params⟩
  simp only at hadj ⊢
  have hu := hc.adjusts hadj
  split
  · next hflag =>
    rw [Bool.and_eq_true, Bool.not_eq_true', Bool.or_eq_false_iff] at hflag
    exact ⟨hu.flagDirty (by rwa [hadj.params]) hflag.1.1 hflag.1.2, hadj.params⟩
  · exact ⟨hu, hadj.params⟩

theorem Counted.getSegsToClean (h : Counted u blocks) (maxSegArrayLen : Nat)
    (currentTime : Int) (fullClean : Bool) :
    Counted (u.getSegsToClean maxSegArrayLen currentTime fullClean).2 blocks := by
  have hloop := List.foldlRecOn
    (motive := fun r : List SegListEntry × Option SmemEntry × SegUsage =>
      Counted r.2.2 blocks ∧ r.2.2.params = u.params)
    (List.range u.params.numberSegments)
    (fun h (segNum : Nat) => SegUsage.considerSeg maxSegArrayLen currentTime segNum h)
    (b := ([], none, u)) ⟨h, rfl⟩
    (fun r hr segNum hmem => by
      have hvalid : r.2.2.params.validSegmentNum segNum := by
        rw [hr.2]
        exact validSegmentNum_of_mem hmem
      have hstep := hr.1.considerSeg hvalid maxSegArrayLen currentTime
      exact ⟨hstep.1, hstep.2.trans hr.2⟩)
  exact hloop.1.adjusts (adjusts_releaseHeld hloop.1.sound _)

/-! ## Cleaning -/

/-- A segment to mark clean is clean already, or counts no live blocks, has none of the array, and is not being
    written. -/
def Emptied (u : SegUsage) (segNumber : Int) : Prop :=
  u.params.validSegmentNum segNumber → (u.entry segNumber).clean = false →
    segNumber ≠ u.checkPoint.currentSegment ∧ u.params.bytesToBlocks (u.entry segNumber).activeBytes = 0 ∧
      HoldsNoBlock u segNumber

theorem Emptied.frames (h : Emptied u i) (hf : Frames u u')
    (hentry : HoldsNoBlock u i → u'.entry i = u.entry i) : Emptied u' i := by
  intro hv hc
  rw [hf.params] at hv
  rw [hf.clean] at hc
  obtain ⟨hne, hbytes, hblocks⟩ := h hv hc
  refine ⟨?_, ?_, hblocks.frames hf⟩
  · rw [hf.currentSegment]
    exact hne
  · rw [hf.params, hentry hblocks]
    exact hbytes

theorem Counted.mark (h : Counted u blocks) (hv : u.params.validSegmentNum n)
    (hc : (u.entry n).clean = false) (he : Emptied u n) (numClean link : Int) :
    Counted ((u.setCheckPoint { u.checkPoint with
      numDirty := if (u.entry n).dirty then u.checkPoint.numDirty - 1 else u.checkPoint.numDirty
      numClean := numClean }).setEntry n { u.entry n with clean := true, dirty := false, activeBytes := link })
      blocks := by
  obtain ⟨hne, hbytes, hblocks⟩ := he hv hc
  generalize hu' : (u.setCheckPoint { u.checkPoint with
      numDirty := if (u.entry n).dirty then u.checkPoint.numDirty - 1 else u.checkPoint.numDirty
      numClean := numClean }).setEntry n { u.entry n with clean := true, dirty := false, activeBytes := link } = v
  have hself : v.entry n = { u.entry n with clean := true, dirty := false, activeBytes := link } := by
    rw [← hu', setEntry_entry_self]
  have hother : ∀ i, i ≠ n → v.entry i = u.entry i := by
    intro i hi
    rw [← hu', setEntry_entry_of_ne hi, setCheckPoint_entry]
  have hp : v.params = u.params := by rw [← hu', setEntry_params, setCheckPoint_params]
  have hindex : v.blockIndex = u.blockIndex := by rw [← hu', setEntry_blockIndex, setCheckPoint_blockIndex]
  have hcp : v.checkPoint = { u.checkPoint with
      numDirty := if (u.entry n).dirty then u.checkPoint.numDirty - 1 else u.checkPoint.numDirty
      numClean := numClean } := by rw [← hu', setEntry_checkPoint, setCheckPoint_checkPoint]
  have hseg : ∀ b, v.segmentOf b = u.segmentOf b := by
    intro b
    unfold segmentOf
    rw [hp, hindex]
  have hsound : Sound v := by
    refine ⟨?_, ?_, fun b hb => ?_⟩
    · rw [hp, hcp]
      exact h.sound.valid
    · rw [hcp, hother _ hne.symm]
      exact h.sound.unclean
    · rw [hindex] at hb
      rw [hseg, hp, hother _ (hblocks b hb)]
      exact h.sound.placed b hb
  refine h.store hp hv hsound (by rw [hcp]) (fun i => ?_) hother ?_ ?_
  · by_cases hi : i = n
    · -- nothing was charged to it, and nothing is
      rw [hi, charge_of_clean (by rw [hself]), charge_of_ne hc hne, hbytes]
    · unfold charge
      rw [hother i hi, hp, hcp]
  · rw [hcp, hself]
    cases (u.entry n).dirty with
    | true =>
      simp only [if_true, Bool.false_eq_true, if_false]
      omega
    | false => simp only [Bool.false_eq_true, if_false]
  · rw [hself]
    exact fun _ => rfl

variable {m : Marking}

/-- One segment of the list: it stays counted, and the others to mark stay emptied. -/
theorem Counted.markSegClean {m' : Marking} (h : Counted m.usage blocks)
    (he : Emptied m.usage segNumber) (hm : SegUsage.markSegClean segNumber m = some m') :
    Counted m'.usage blocks ∧ ∀ i, Emptied m.usage i → Emptied m'.usage i := by
  unfold SegUsage.markSegClean at hm
  by_cases hskip : segNumber = -1
  · rw [if_pos hskip] at hm
    cases hm
    exact ⟨h, fun _ hi => hi⟩
  rw [if_neg hskip] at hm
  have hv : m.usage.params.validSegmentNum segNumber := by
    by_contra hv
    rw [fetch_invalid hv] at hm
    simp at hm
  have hadj := adjusts_fetch h.sound segNumber m.held
  have hkeep : ∀ i, Emptied m.usage i → Emptied (m.usage.fetch segNumber m.held).2 i :=
    fun i hi => hi.frames hadj.toFrames (fun hblocks => fetch_entry hblocks)
  generalize m.usage.fetch segNumber m.held = f at hm hadj hkeep
  obtain ⟨e | e, u⟩ := f
  · simp at hm
  simp only at hm hadj hkeep
  have hu := h.adjusts hadj
  by_cases hclean : (u.entry segNumber).clean = true
  · rw [if_pos hclean] at hm
    cases hm
    exact ⟨hu, hkeep⟩
  · rw [if_neg hclean] at hm
    cases hm
    refine ⟨hu.mark (by rwa [hadj.params]) (Bool.eq_false_iff.mpr hclean) (hkeep segNumber he) _ _,
      fun i hi hvi hci => ?_⟩
    by_cases hin : i = segNumber
    · rw [hin, setEntry_entry_self] at hci
      exact absurd hci.symm Bool.false_ne_true
    · rw [setEntry_entry_of_ne hin] at hci ⊢
      exact hkeep i hi hvi hci

variable {segs : List Int}

theorem Counted.markLoop (h : Counted m.usage blocks)
    (he : ∀ s ∈ segs, Emptied m.usage s) : Counted (SegUsage.markLoop segs m).2.usage blocks := by
  induction segs generalizing m with
  | nil => exact h
  | cons segNumber segs ih =>
    unfold SegUsage.markLoop
    cases hm : SegUsage.markSegClean segNumber m with
    | none => exact (h.adjusts (adjusts_fetch h.sound segNumber m.held)).stop
    | some m' =>
      obtain ⟨hcounted, hkeep⟩ := h.markSegClean (he segNumber mem_cons_self) hm
      exact ih hcounted (fun s hs => hkeep s (he s (mem_cons_of_mem segNumber hs)))

theorem Counted.insertMarked (h : Counted m.usage blocks)
    (hhead : m.usage.params.validSegmentNum m.usage.checkPoint.cleanSegList →
      (m.usage.entry m.usage.checkPoint.cleanSegList).clean = true)
    (hfirst : m.usage.params.validSegmentNum m.first → (m.usage.entry m.first).clean = true) :
    Counted (SegUsage.insertMarked m) blocks := by
  unfold SegUsage.insertMarked
  simp only
  generalize m.usage.checkPoint.cleanSegList = head at *
  by_cases hv : m.usage.params.validSegmentNum head
  swap
  · rw [fetch_invalid hv]
    exact (h.adjusts (adjusts_releaseHeld h.sound _)).stop
  have hadj := adjusts_fetch h.sound head m.held
  generalize m.usage.fetch head m.held = f at hadj ⊢
  obtain ⟨e | e, u₁⟩ := f
  · exact (h.adjusts hadj).stop
  simp only at hadj ⊢
  have hc₁ : (u₁.entry head).clean = true := by
    rw [hadj.clean]
    exact hhead hv
  have h₂ := (h.adjusts hadj).storeLink (by rwa [hadj.params]) hc₁ m.previous
  have hclean₂ : m.usage.params.validSegmentNum m.first →
      ((u₁.setEntry head { u₁.entry head with activeBytes := m.previous }).entry m.first).clean = true := by
    intro hvf
    by_cases he : m.first = head
    · rw [he, setEntry_entry_self]
      exact hc₁
    · rw [setEntry_entry_of_ne he, hadj.clean]
      exact hfirst hvf
  generalize hu₂ : u₁.setEntry head { u₁.entry head with activeBytes := m.previous } = u₂ at h₂ hclean₂ ⊢
  have hparams₂ : u₂.params = m.usage.params := by
    rw [← hu₂]
    exact hadj.params
  have hadj₂ := adjusts_fetch h₂.sound m.first (some { e with modified := true })
  by_cases hvf : u₂.params.validSegmentNum m.first
  swap
  · rw [fetch_invalid hvf]
    exact (h₂.adjusts (adjusts_releaseHeld h₂.sound _)).stop
  generalize u₂.fetch m.first (some { e with modified := true }) = g at hadj₂ ⊢
  obtain ⟨e' | e', u₃⟩ := g
  · exact (h₂.adjusts hadj₂).stop
  have h₃ := (h₂.adjusts hadj₂).storeLink (n := m.first) (by rwa [hadj₂.params])
    (by rw [hadj₂.clean]; exact hclean₂ (hparams₂ ▸ hvf)) (u₁.entry head).activeBytes
  exact h₃.adjusts (adjusts_release h₃.sound _)

theorem valid_of_markLoop (h : (SegUsage.markLoop segs m).1 = true) :
    ∀ s ∈ segs, s = -1 ∨ m.usage.params.validSegmentNum s := by
  induction segs generalizing m with
  | nil => exact fun s hs => absurd hs not_mem_nil
  | cons segNumber segs ih =>
    unfold SegUsage.markLoop at h
    cases hm : SegUsage.markSegClean segNumber m with
    | none =>
      rw [hm] at h
      exact absurd h Bool.false_ne_true
    | some m' =>
      rw [hm] at h
      intro s hs
      rcases mem_cons.mp hs with rfl | hs
      · by_cases hskip : s = -1
        · exact .inl hskip
        · refine .inr ?_
          by_contra hv
          unfold SegUsage.markSegClean at hm
          rw [if_neg hskip, fetch_invalid hv] at hm
          simp at hm
      · rw [← (markSegClean_sameLog hm).params]
        exact ih h s hs

theorem panic_of_markLoop (h : (SegUsage.markLoop segs m).1 = false) :
    (SegUsage.markLoop segs m).2.usage.panic = true := by
  induction segs generalizing m with
  | nil => exact absurd h.symm Bool.false_ne_true
  | cons segNumber segs ih =>
    unfold SegUsage.markLoop at h ⊢
    cases hm : SegUsage.markSegClean segNumber m with
    | none => rfl
    | some m' =>
      rw [hm] at h
      exact ih h

/-- The counters stay exact; the list stays in order, or the kernel stops. -/
theorem Counted.markSegsClean (h : Counted u blocks) (hw : WellFormed u)
    (he : ∀ s ∈ segs, Emptied u s) :
    Counted (u.markSegsClean segs) blocks ∧
      ((u.markSegsClean segs).panic = true ∨ WellFormed (u.markSegsClean segs)) := by
  have hloop : Counted (SegUsage.markLoop segs { usage := u }).2.usage blocks := Counted.markLoop h he
  unfold SegUsage.markSegsClean
  simp only
  cases hend : (SegUsage.markLoop segs { usage := u }).1 with
  | false =>
    exact ⟨hloop, .inl (panic_of_markLoop hend)⟩
  | true =>
    have hs : ∀ s ∈ segs, Markable u s := by
      intro s hmem
      by_cases hskip : s = -1
      · exact .inl hskip
      · have hv := (valid_of_markLoop hend s hmem).resolve_left hskip
        refine .inr ⟨hv, fun hcur => ?_⟩
        exact (he s hmem hv (by rw [hcur]; exact hw.unclean)).1 hcur
    obtain ⟨l, hl⟩ := hw.lists
    obtain ⟨m, k, hm, hmarks⟩ := (hw.marks hl).markLoop hs
    rw [hm] at hloop ⊢
    simp only at hloop ⊢
    by_cases hp : m.previous = -1
    · rw [if_pos hp]
      exact ⟨hloop, .inr (hmarks.wellFormed hp)⟩
    rw [if_neg hp]
    have hk : k ≠ [] := fun hk => hp (by have hmarked := hmarks.marked; rw [hk] at hmarked; exact hmarked)
    have hfirst := (hmarks.mem m.first).mp (mem_append_left l (mem_of_getLast? (hmarks.first hk)))
    refine ⟨hloop.insertMarked (fun hv => ?_) (fun _ => hfirst.2), ?_⟩
    · have hne : m.usage.checkPoint.cleanSegList ≠ -1 := by
        have hpos := hv.1
        omega
      obtain ⟨rest, rfl, -⟩ := hmarks.links.head hne
      exact ((hmarks.mem _).mp (mem_append_right k mem_cons_self)).2
    · by_cases hhead : m.usage.checkPoint.cleanSegList = -1
      · refine .inl ?_
        have hinvalid : ¬m.usage.params.validSegmentNum (-1) := fun hv => absurd hv.1 (by decide)
        unfold SegUsage.insertMarked
        simp only [hhead, fetch_invalid hinvalid]
        rfl
      · exact .inr (hmarks.insertMarked hp hhead)

/-! ## Runs -/

/-- Usage is set for segments not clean, the log's old segment is given up with its count whole, and what is marked
    clean is empty. -/
def KeepsCounters (u : SegUsage) : Label → Prop
  | .setSegUsage segNumber _ => u.params.validSegmentNum segNumber → (u.entry segNumber).clean = false
  | .getLogTail cantWait => u.NeedsSegment cantWait → RetiresOnce u ∧ RetiresWhole u
  | .setLogTail range _ activeBytes _ =>
    0 < activeBytes → u.params.validSegmentNum range.current → (u.entry range.current).clean = false
  | .markSegsClean segs => ∀ s ∈ segs, Emptied u s
  | _ => True

theorem counted_step {l : Label} (h : Counted u blocks ∧ (u.panic = true ∨ WellFormed u)) (hk : KeepsCounters u l) (hs : step u l = some v) :
    Counted v blocks ∧ (v.panic = true ∨ WellFormed v) := by
  obtain ⟨hc, hw⟩ := h
  unfold step at hs
  split at hs
  · simp at hs
  next hrun =>
  have hw := hw.resolve_left hrun
  cases hs
  cases l with
  | setSegUsage segNumber activeBytes =>
    exact ⟨hc.setSegUsage hk activeBytes, .inr (hw.frames (frames_setSegUsage _ _ _))⟩
  | getLogTail cantWait => exact ⟨hc.getLogTail hw hk, .inr (hw.getLogTail cantWait)⟩
  | setLogTail range startBlock activeBytes time =>
    exact ⟨hc.setLogTail hk, .inr (hw.setLogTail range startBlock activeBytes time)⟩
  | setDirtyLevel level => exact ⟨hc.setDirtyLevel level, .inr (hw.setDirtyLevel level)⟩
  | getSegsToClean maxSegArrayLen currentTime fullClean =>
    exact ⟨hc.getSegsToClean maxSegArrayLen currentTime fullClean,
      .inr (hw.getSegsToClean maxSegArrayLen currentTime fullClean)⟩
  | markSegsClean segs => exact hc.markSegsClean hw hk

/-- The dirty segments are counted, none of them is clean, and no block is lost or made. -/
theorem counters_of_run {u v : SegUsage} (hw : WellFormed u) (hc : Counted u u.total)
    (h : Run step KeepsCounters u v) :
    v.checkPoint.numDirty = v.dirtyCount ∧ (∀ i, ¬((v.entry i).dirty = true ∧ (v.entry i).clean = true)) ∧
      v.total = u.total := by
  obtain ⟨hv, -⟩ := h.invariant (I := fun s => Counted s u.total ∧ (s.panic = true ∨ WellFormed s))
    (fun _ _ _ hi hk hs => counted_step hi hk hs) ⟨hc, .inr hw⟩
  refine ⟨hv.dirty, fun i hi => ?_, hv.total⟩
  rw [hv.separate i hi.2] at hi
  exact absurd hi.1 Bool.false_ne_true

theorem twoClean_counted : Counted twoClean twoClean.total := by
  refine ⟨⟨by decide, rfl, fun b hb => absurd rfl hb⟩, by decide, fun i _ => ?_, rfl⟩
  unfold twoClean
  simp only
  split
  · rfl
  · split <;> rfl

/-- The log moves on, the segment before dies and is cleaned. -/
theorem counters_after_clean : ∃ v, Run step KeepsCounters twoClean v ∧ v.checkPoint.numClean = 2 ∧
    v.checkPoint.numDirty = v.dirtyCount ∧ v.total = twoClean.total := by
  have h₁ : Run step KeepsCounters twoClean (twoClean.getLogTail true).2 :=
    (Run.refl _ _).snoc (l := Label.getLogTail true)
      (fun _ => ⟨fun hd => absurd hd (by decide), .inl (by decide)⟩) rfl
  generalize ht : (twoClean.getLogTail true).2 = t at h₁
  have hset : KeepsCounters t (.setSegUsage 2 (-8192)) := fun _ => by rw [← ht]; decide
  have h₂ : Run step KeepsCounters twoClean (t.setSegUsage 2 (-8192)) := h₁.snoc hset (by rw [← ht]; rfl)
  have hempty : KeepsCounters (t.setSegUsage 2 (-8192)) (.markSegsClean [2]) := by
    intro s hs
    obtain rfl := mem_singleton.mp hs
    rw [← ht]
    exact fun _ _ => ⟨by decide, by decide, fun b hb => absurd rfl hb⟩
  have h₃ : Run step KeepsCounters twoClean ((t.setSegUsage 2 (-8192)).markSegsClean [2]) :=
    h₂.snoc hempty (by rw [← ht]; rfl)
  obtain ⟨hdirty, -, htotal⟩ := counters_of_run twoClean_wellFormed twoClean_counted h₃
  exact ⟨_, h₃, by rw [← ht]; decide, hdirty, htotal⟩

/-- Two clean segments, and the log at the end of the third. -/
def lastOfThree : SegUsage := { twoClean with checkPoint := { twoClean.checkPoint with dirtyActiveBytes := 0 } }

/-- The current segment's entry is flagged dirty, and once more when the log moves on. -/
theorem dirty_twice : WellFormed lastOfThree ∧ Counted lastOfThree lastOfThree.total ∧
    ∃ v, Run step (fun _ _ => True) lastOfThree v ∧ v.checkPoint.numDirty = 2 ∧ v.dirtyCount = 1 := by
  refine ⟨?_, ?_, _, run_of_exec [.setDirtyLevel 8192, .getLogTail true] _ _ (fun _ _ => trivial) rfl, ?_, ?_⟩
  · exact twoClean_wellFormed.congr rfl rfl rfl rfl (fun _ => rfl) (fun _ _ => rfl)
  · exact ⟨⟨twoClean_counted.sound.valid, twoClean_counted.sound.unclean, twoClean_counted.sound.placed⟩,
      twoClean_counted.dirty, twoClean_counted.separate, rfl⟩
  · decide
  · decide

end SegUsage

end SpriteKernel.Lfs
