import SpriteKernel.Lfs.SegUsage
import SpriteKernel.Lib.Tally

/- What setting the usage of segments not clean leaves alone, through all the nested calls a release may make: the
   clean list, the log, and the books of blocks and dirty segments (`Adjusts`). Every routine of the usage array is
   such calls with a few stores between. -/
namespace SpriteKernel.Lfs

open SpriteKernel

namespace SegUsage

/-- The blocks a segment takes from the free ones. -/
def charge (u : SegUsage) (i : Int) : Int :=
  if (u.entry i).clean then 0
  else if i = u.checkPoint.currentSegment then u.params.bytesToBlocks u.checkPoint.curSegActiveBytes
  else u.params.bytesToBlocks (u.entry i).activeBytes

/-- The free blocks and those of all segments that are not clean. -/
def total (u : SegUsage) : Int :=
  u.checkPoint.freeBlocks + (Finset.range u.params.numberSegments).sum (fun i => u.charge i)

/-- How many segments are flagged dirty. -/
def dirtyCount (u : SegUsage) : Int :=
  (Finset.range u.params.numberSegments).sum (fun i => if (u.entry i).dirty then 1 else 0)

/-- The current segment is one, and neither it nor one with a block of the array in it is clean. -/
structure Sound (u : SegUsage) : Prop where
  valid : u.params.validSegmentNum u.checkPoint.currentSegment
  unclean : (u.entry u.checkPoint.currentSegment).clean = false
  placed : ∀ b, u.blockIndex b ≠ nilDiskAddr →
    u.params.validSegmentNum (u.segmentOf b) ∧ (u.entry (u.segmentOf b)).clean = false

/-- `u'` is `u` with some usages set, as far as the clean list and the log go. -/
structure Frames (u u' : SegUsage) : Prop where
  params : u'.params = u.params
  numClean : u'.checkPoint.numClean = u.checkPoint.numClean
  cleanSegList : u'.checkPoint.cleanSegList = u.checkPoint.cleanSegList
  currentSegment : u'.checkPoint.currentSegment = u.checkPoint.currentSegment
  dirtyActiveBytes : u'.checkPoint.dirtyActiveBytes = u.checkPoint.dirtyActiveBytes
  currentBlockOffset : u'.checkPoint.currentBlockOffset = u.checkPoint.currentBlockOffset
  clean : ∀ i, (u'.entry i).clean = (u.entry i).clean
  entry : ∀ i, (u.entry i).clean = true ∨ i = u.checkPoint.currentSegment → u'.entry i = u.entry i
  index : ∀ b, u'.blockIndex b = u.blockIndex b ∨ u'.blockIndex b = nilDiskAddr

/-- `u'` is `u` with some usages set and the books kept. -/
structure Adjusts (u u' : SegUsage) : Prop extends Frames u u' where
  panic : u'.panic = u.panic
  total : u'.total = u.total
  excess : u'.checkPoint.numDirty - u'.dirtyCount = u.checkPoint.numDirty - u.dirtyCount

theorem Frames.refl (u : SegUsage) : Frames u u :=
  ⟨rfl, rfl, rfl, rfl, rfl, rfl, fun _ => rfl, fun _ _ => rfl, fun _ => .inl rfl⟩

variable {u v w : SegUsage}

theorem Frames.trans (h : Frames u v) (h' : Frames v w) : Frames u w where
  params := h'.params.trans h.params
  numClean := h'.numClean.trans h.numClean
  cleanSegList := h'.cleanSegList.trans h.cleanSegList
  currentSegment := h'.currentSegment.trans h.currentSegment
  dirtyActiveBytes := h'.dirtyActiveBytes.trans h.dirtyActiveBytes
  currentBlockOffset := h'.currentBlockOffset.trans h.currentBlockOffset
  clean := fun i => (h'.clean i).trans (h.clean i)
  entry := fun i hi => (h'.entry i (by rwa [h.clean, h.currentSegment])).trans (h.entry i hi)
  index := fun b => by
    rcases h'.index b with hb | hb
    · rw [hb]
      exact h.index b
    · exact .inr hb

theorem Adjusts.refl (u : SegUsage) : Adjusts u u := ⟨Frames.refl u, rfl, rfl, rfl⟩

theorem Adjusts.trans (h : Adjusts u v) (h' : Adjusts v w) : Adjusts u w :=
  ⟨h.toFrames.trans h'.toFrames, h'.panic.trans h.panic, h'.total.trans h.total, h'.excess.trans h.excess⟩

variable {u' : SegUsage}

theorem Frames.sound (h : Frames u u') (hs : Sound u) : Sound u' := by
  refine ⟨?_, ?_, fun b hb => ?_⟩
  · rw [h.params, h.currentSegment]
    exact hs.valid
  · rw [h.currentSegment, h.clean]
    exact hs.unclean
  · have hsame : u'.blockIndex b = u.blockIndex b := (h.index b).resolve_right hb
    have hseg : u'.segmentOf b = u.segmentOf b := by
      unfold segmentOf
      rw [h.params, hsame]
    rw [hseg, h.params, h.clean]
    exact hs.placed b (hsame ▸ hb)

/-! ## The frame -/

theorem frames_stop (u : SegUsage) : Frames u u.stop :=
  ⟨rfl, rfl, rfl, rfl, rfl, rfl, fun _ => rfl, fun _ _ => rfl, fun _ => .inl rfl⟩

theorem frames_segCleanStart (u : SegUsage) : Frames u u.segCleanStart :=
  ⟨rfl, rfl, rfl, rfl, rfl, rfl, fun _ => rfl, fun _ _ => rfl, fun _ => .inl rfl⟩

theorem adjusts_segCleanStart (u : SegUsage) : Adjusts u u.segCleanStart :=
  ⟨frames_segCleanStart u, rfl, rfl, rfl⟩

theorem frames_clearIndex (block : Nat) (u : SegUsage) : Frames u (u.clearIndex block) := by
  refine ⟨rfl, rfl, rfl, rfl, rfl, rfl, fun _ => rfl, fun _ _ => rfl, fun b => ?_⟩
  by_cases hb : b = block
  · rw [hb]
    exact .inr (clearIndex_self block u)
  · exact .inl (clearIndex_of_ne hb u)

theorem frames_setCurrentUsage (activeBytes : Int) (u : SegUsage) : Frames u (u.setCurrentUsage activeBytes) :=
  ⟨rfl, rfl, rfl, rfl, rfl, rfl, fun _ => rfl, fun _ _ => rfl, fun _ => .inl rfl⟩

variable {segNumber : Int} {cp : SegUsageCheckPoint} {s : SegUsageEntry}

/-- An entry not clean, nor the current segment's, and the counts of dirty segments and free blocks. -/
theorem frames_store (hne : segNumber ≠ u.checkPoint.currentSegment) (hc : (u.entry segNumber).clean = false)
    (hs : s.clean = false)
    (hcp : cp = { u.checkPoint with freeBlocks := cp.freeBlocks, numDirty := cp.numDirty }) :
    Frames u ((u.setCheckPoint cp).setEntry segNumber s) := by
  rw [hcp]
  refine ⟨rfl, rfl, rfl, rfl, rfl, rfl, fun i => ?_, fun i hi => ?_, fun _ => .inl rfl⟩
  · by_cases hi : i = segNumber
    · rw [hi, setEntry_entry_self, hc, hs]
    · rw [setEntry_entry_of_ne hi]
      rfl
  · refine setEntry_entry_of_ne (fun he => ?_) s _
    rw [he, hc] at hi
    exact hi.elim Bool.false_ne_true hne

theorem setEntryUsage_cases (segNumber activeBytes : Int) (u : SegUsage) :
    ∃ cp : SegUsageCheckPoint, cp = { u.checkPoint with freeBlocks := cp.freeBlocks, numDirty := cp.numDirty } ∧
      (u.setEntryUsage segNumber activeBytes = (u.setCheckPoint cp).stop ∧ (u.entry segNumber).clean = true ∨
        ∃ s : SegUsageEntry, u.setEntryUsage segNumber activeBytes = (u.setCheckPoint cp).setEntry segNumber s ∧
          (u.entry segNumber).clean = false ∧ s.clean = false ∧
          s.activeBytes = max ((u.entry segNumber).activeBytes + activeBytes) 0 ∧
          cp.freeBlocks + u.params.bytesToBlocks s.activeBytes =
            u.checkPoint.freeBlocks + u.params.bytesToBlocks (u.entry segNumber).activeBytes ∧
          cp.numDirty - (if s.dirty then 1 else 0) =
            u.checkPoint.numDirty - if (u.entry segNumber).dirty then 1 else 0) := by
  unfold setEntryUsage
  dsimp only
  split
  next hc => exact ⟨_, rfl, .inl ⟨rfl, hc⟩⟩
  next hc =>
  rw [Bool.not_eq_true] at hc
  split
  · split
    · next hd => exact ⟨_, rfl, .inr ⟨_, rfl, hc, hc, rfl, by dsimp only; omega, by rw [if_pos hd]⟩⟩
    · exact ⟨_, rfl, .inr ⟨_, rfl, hc, hc, rfl, by dsimp only; omega, by simp⟩⟩
  · split
    · exact ⟨_, rfl, .inr ⟨_, rfl, hc, hc, rfl, by dsimp only; omega, by simp⟩⟩
    · next hd => exact ⟨_, rfl, .inr ⟨_, rfl, hc, hc, rfl, by dsimp only; omega, by rw [if_neg hd]⟩⟩

theorem frames_setEntryUsage (hne : segNumber ≠ u.checkPoint.currentSegment)
    (activeBytes : Int) : Frames u (u.setEntryUsage segNumber activeBytes) := by
  obtain ⟨cp, hcp, ⟨heq, -⟩ | ⟨s, heq, hc, hs, -⟩⟩ := setEntryUsage_cases segNumber activeBytes u
  · rw [heq, hcp]
    exact ⟨rfl, rfl, rfl, rfl, rfl, rfl, fun _ => rfl, fun _ _ => rfl, fun _ => .inl rfl⟩
  · exact heq ▸ frames_store hne hc hs hcp

theorem setEntryUsage_blockIndex (segNumber activeBytes : Int) (u : SegUsage) :
    (u.setEntryUsage segNumber activeBytes).blockIndex = u.blockIndex := by
  obtain ⟨cp, -, ⟨heq, -⟩ | ⟨s, heq, -⟩⟩ := setEntryUsage_cases segNumber activeBytes u <;> rw [heq] <;> rfl

theorem setEntryUsage_curSegActiveBytes (segNumber activeBytes : Int) (u : SegUsage) :
    (u.setEntryUsage segNumber activeBytes).checkPoint.curSegActiveBytes = u.checkPoint.curSegActiveBytes := by
  obtain ⟨cp, hcp, ⟨heq, -⟩ | ⟨s, heq, -⟩⟩ := setEntryUsage_cases segNumber activeBytes u <;> rw [heq, hcp] <;> rfl

variable {i activeBytes : Int} {e : SmemEntry}

theorem setEntryUsage_entry_of_ne (hi : i ≠ segNumber) (activeBytes : Int) (u : SegUsage) :
    (u.setEntryUsage segNumber activeBytes).entry i = u.entry i := by
  obtain ⟨cp, -, ⟨heq, -⟩ | ⟨s, heq, -⟩⟩ := setEntryUsage_cases segNumber activeBytes u
  · rw [heq]
    rfl
  · rw [heq]
    exact setEntry_entry_of_ne hi s _

/-- The state in which the old place of a segment's entry is freed. -/
def entryStored (segNumber activeBytes : Int) (u : SegUsage) : SegUsage :=
  (u.setEntryUsage segNumber activeBytes).clearIndex (u.blockOf segNumber)

theorem setSegUsageNested_cases (nested : Nat) (segNumber activeBytes : Int) (u : SegUsage) :
    (¬u.params.validSegmentNum segNumber ∧ setSegUsageNested nested segNumber activeBytes u = u.stop) ∨
      u.params.validSegmentNum segNumber ∧
        (segNumber = u.checkPoint.currentSegment ∧
            setSegUsageNested nested segNumber activeBytes u = u.setCurrentUsage activeBytes ∨
          segNumber ≠ u.checkPoint.currentSegment ∧
            (setSegUsageNested nested segNumber activeBytes u = u.setEntryUsage segNumber activeBytes ∨
              ∃ n, nested = n + 1 ∧ u.blockIndex (u.blockOf segNumber) ≠ nilDiskAddr ∧
                setSegUsageNested nested segNumber activeBytes u =
                  setSegUsageNested n (u.segmentOf (u.blockOf segNumber)) (-u.params.stableBlockSize)
                    (u.entryStored segNumber activeBytes))) := by
  generalize hres : setSegUsageNested nested segNumber activeBytes u = res
  unfold setSegUsageNested at hres
  by_cases hv : u.params.validSegmentNum segNumber
  · refine .inr ⟨hv, ?_⟩
    rw [if_neg (not_not.mpr hv)] at hres
    by_cases hcur : segNumber = u.checkPoint.currentSegment
    · rw [if_pos hcur] at hres
      exact .inl ⟨hcur, hres.symm⟩
    rw [if_neg hcur] at hres
    refine .inr ⟨hcur, ?_⟩
    by_cases hclean : (u.entry segNumber).clean = true
    · rw [if_pos hclean] at hres
      exact .inl hres.symm
    rw [if_neg hclean] at hres
    have hframe := frames_setEntryUsage hcur activeBytes
    have hseg : (u.setEntryUsage segNumber activeBytes).segmentOf (u.blockOf segNumber) =
        u.segmentOf (u.blockOf segNumber) := by
      unfold segmentOf
      rw [hframe.params, setEntryUsage_blockIndex]
    cases nested with
    | zero => exact .inl hres.symm
    | succ n =>
      simp only [setEntryUsage_blockIndex, hseg, hframe.params] at hres
      by_cases hnil : u.blockIndex (u.blockOf segNumber) = nilDiskAddr
      · rw [if_pos hnil] at hres
        exact .inl hres.symm
      · rw [if_neg hnil] at hres
        exact .inr ⟨n, rfl, hnil, hres.symm⟩
  · rw [if_pos hv] at hres
    exact .inl ⟨hv, hres.symm⟩

theorem frames_entryStored (hne : segNumber ≠ u.checkPoint.currentSegment)
    (activeBytes : Int) : Frames u (u.entryStored segNumber activeBytes) :=
  (frames_setEntryUsage hne activeBytes).trans (frames_clearIndex _ _)

theorem entryStored_blockIndex (segNumber activeBytes : Int) (u : SegUsage) :
    (u.entryStored segNumber activeBytes).blockIndex = (u.clearIndex (u.blockOf segNumber)).blockIndex := by
  unfold entryStored clearIndex
  rw [setEntryUsage_blockIndex]

theorem setSegUsageNested_induct {C : Nat → Int → Int → SegUsage → SegUsage → Prop}
    (stop : ∀ n i a u, ¬u.params.validSegmentNum i → C n i a u u.stop)
    (current : ∀ n a u, C n u.checkPoint.currentSegment a u (u.setCurrentUsage a))
    (store : ∀ n i a u, u.params.validSegmentNum i → i ≠ u.checkPoint.currentSegment → C n i a u (u.setEntryUsage i a))
    (next : ∀ n i a u r, u.params.validSegmentNum i → i ≠ u.checkPoint.currentSegment → u.blockIndex (u.blockOf i) ≠ nilDiskAddr →
      C n (u.segmentOf (u.blockOf i)) (-u.params.stableBlockSize) (u.entryStored i a) r → C (n + 1) i a u r)
    (nested : Nat) (i a : Int) (u : SegUsage) : C nested i a u (setSegUsageNested nested i a u) := by
  induction nested using Nat.strongRecOn generalizing i a u with
  | ind nested ih =>
    rcases setSegUsageNested_cases nested i a u with ⟨hbad, hres⟩ | ⟨hv, ⟨rfl, hres⟩ | ⟨hne, hres | ⟨n, rfl, hnil, hres⟩⟩⟩
    · exact hres ▸ stop nested i a u hbad
    · exact hres ▸ current nested a u
    · exact hres ▸ store nested i a u hv hne
    · exact hres ▸ next n i a u _ hv hne hnil (ih n (Nat.lt_succ_self n) _ _ _)

theorem frames_setSegUsageNested (nested : Nat) (segNumber activeBytes : Int) (u : SegUsage) :
    Frames u (setSegUsageNested nested segNumber activeBytes u) :=
  setSegUsageNested_induct (C := fun _ _ _ u r => Frames u r) (fun _ _ _ u _ => frames_stop u)
    (fun _ a u => frames_setCurrentUsage a u) (fun _ _ a _ _ hne => frames_setEntryUsage hne a)
    (fun _ _ a _ _ _ hne _ ih => (frames_entryStored hne a).trans ih) nested segNumber activeBytes u

theorem frames_setSegUsage (segNumber activeBytes : Int) (u : SegUsage) :
    Frames u (u.setSegUsage segNumber activeBytes) :=
  frames_setSegUsageNested u.numBlocks segNumber activeBytes u

theorem frames_release (e : SmemEntry) (u : SegUsage) : Frames u (u.release e) := by
  unfold release
  split
  · exact (frames_clearIndex _ _).trans (frames_setSegUsage _ _ _)
  · exact Frames.refl u

theorem frames_releaseHeld (held : Option SmemEntry) (u : SegUsage) : Frames u (u.releaseHeld held) := by
  cases held with
  | none => exact Frames.refl u
  | some e => exact frames_release e u

theorem frames_fetch (segNumber : Int) (held : Option SmemEntry) (u : SegUsage) :
    Frames u (u.fetch segNumber held).2 := by
  unfold fetch
  split
  · exact frames_releaseHeld held u
  · cases held with
    | none => exact Frames.refl u
    | some e =>
      simp only
      split
      · exact Frames.refl u
      · exact frames_release e u

theorem fetch_invalid (hv : ¬u.params.validSegmentNum segNumber)
    (held : Option SmemEntry) : u.fetch segNumber held = (none, u.releaseHeld held) := by
  exact if_pos hv

theorem fetch_eq_some (hv : u.params.validSegmentNum segNumber)
    (held : Option SmemEntry) : ∃ e, (u.fetch segNumber held).1 = some e ∧ e.blockNum = u.blockOf segNumber := by
  unfold fetch
  rw [if_neg (not_not.mpr hv)]
  cases held with
  | none => exact ⟨_, rfl, rfl⟩
  | some e =>
    by_cases hb : e.blockNum = u.blockOf segNumber
    · simp only [if_pos hb]
      exact ⟨e, rfl, hb⟩
    · simp only [if_neg hb]
      exact ⟨_, rfl, rfl⟩

/-! ## The books -/

theorem adjusts_clearIndex (block : Nat) (u : SegUsage) : Adjusts u (u.clearIndex block) :=
  ⟨frames_clearIndex block u, rfl, rfl, rfl⟩

theorem adjusts_setCurrentUsage (hs : Sound u) (activeBytes : Int) : Adjusts u (u.setCurrentUsage activeBytes) := by
  refine ⟨frames_setCurrentUsage activeBytes u, rfl, ?_, rfl⟩
  have hother : ∀ i, i ≠ u.checkPoint.currentSegment → (u.setCurrentUsage activeBytes).charge i = u.charge i := by
    intro i hi
    unfold charge
    change (if (u.entry i).clean then 0 else if i = u.checkPoint.currentSegment then _ else _) = _
    rw [if_neg hi, if_neg hi]
    rfl
  have hsum := Tally.sum_range_change (f := u.charge) (g := (u.setCurrentUsage activeBytes).charge) hs.valid hother
  have hold : u.charge u.checkPoint.currentSegment = u.params.bytesToBlocks u.checkPoint.curSegActiveBytes := by
    simp only [charge, hs.unclean, Bool.false_eq_true, if_false, if_true]
  have hnew : (u.setCurrentUsage activeBytes).charge u.checkPoint.currentSegment =
      u.params.bytesToBlocks (max (u.checkPoint.curSegActiveBytes + activeBytes) 0) := by
    simp only [charge, setCurrentUsage, setCheckPoint, hs.unclean, Bool.false_eq_true, if_false, if_true]
  unfold SegUsage.total
  change (u.setCurrentUsage activeBytes).checkPoint.freeBlocks +
    (Finset.range u.params.numberSegments).sum (fun i => (u.setCurrentUsage activeBytes).charge i) = _
  rw [hsum, hold, hnew]
  simp only [setCurrentUsage, setCheckPoint]
  omega

/-- An entry stored with the books kept: the checkpoint's counts change by its blocks and flag. -/
theorem adjusts_store (hv : u.params.validSegmentNum segNumber) (hne : segNumber ≠ u.checkPoint.currentSegment)
    (hc : (u.entry segNumber).clean = false) (hs : s.clean = false)
    (hcp : cp = { u.checkPoint with freeBlocks := cp.freeBlocks, numDirty := cp.numDirty })
    (hfree : cp.freeBlocks + u.params.bytesToBlocks s.activeBytes =
      u.checkPoint.freeBlocks + u.params.bytesToBlocks (u.entry segNumber).activeBytes)
    (hdirty : cp.numDirty - (if s.dirty then 1 else 0) =
      u.checkPoint.numDirty - if (u.entry segNumber).dirty then 1 else 0) :
    Adjusts u ((u.setCheckPoint cp).setEntry segNumber s) := by
  have hself : ((u.setCheckPoint cp).setEntry segNumber s).entry segNumber = s := setEntry_entry_self segNumber s _
  have hentry : ∀ i, i ≠ segNumber → ((u.setCheckPoint cp).setEntry segNumber s).entry i = u.entry i :=
    fun i hi => setEntry_entry_of_ne hi s _
  have hcur : cp.currentSegment = u.checkPoint.currentSegment := by rw [hcp]
  have hbytes : cp.curSegActiveBytes = u.checkPoint.curSegActiveBytes := by rw [hcp]
  refine ⟨frames_store hne hc hs hcp, rfl, ?_, ?_⟩
  · have hsum := Tally.sum_range_change (f := u.charge) (g := ((u.setCheckPoint cp).setEntry segNumber s).charge) hv
      (fun i hi => by
        unfold charge
        rw [hentry i hi]
        change (if (u.entry i).clean then 0 else if i = cp.currentSegment then u.params.bytesToBlocks cp.curSegActiveBytes
          else u.params.bytesToBlocks (u.entry i).activeBytes) = _
        rw [hcur, hbytes])
    have hold : u.charge segNumber = u.params.bytesToBlocks (u.entry segNumber).activeBytes := by
      simp only [charge, hc, Bool.false_eq_true, if_false, if_neg hne]
    have hnew : ((u.setCheckPoint cp).setEntry segNumber s).charge segNumber = u.params.bytesToBlocks s.activeBytes := by
      unfold charge
      rw [hself, hs]
      exact if_neg (hcur ▸ hne)
    unfold SegUsage.total
    change cp.freeBlocks + (Finset.range u.params.numberSegments).sum
      (fun i => ((u.setCheckPoint cp).setEntry segNumber s).charge i) = _
    rw [hsum, hold, hnew]
    omega
  · have hsum := Tally.sum_range_change (f := fun i => if (u.entry i).dirty then 1 else 0)
      (g := fun i => if (((u.setCheckPoint cp).setEntry segNumber s).entry i).dirty then 1 else 0) hv
      (fun i hi => by rw [hentry i hi])
    simp only [hself] at hsum
    unfold dirtyCount
    change cp.numDirty - (Finset.range u.params.numberSegments).sum
      (fun i => if (((u.setCheckPoint cp).setEntry segNumber s).entry i).dirty then 1 else 0) = _
    rw [hsum]
    omega

theorem adjusts_setEntryUsage (hv : u.params.validSegmentNum segNumber)
    (hne : segNumber ≠ u.checkPoint.currentSegment) (hc : (u.entry segNumber).clean = false) (activeBytes : Int) :
    Adjusts u (u.setEntryUsage segNumber activeBytes) := by
  obtain ⟨cp, hcp, ⟨-, hc'⟩ | ⟨s, heq, -, hs, -, hfree, hdirty⟩⟩ := setEntryUsage_cases segNumber activeBytes u
  · rw [hc] at hc'
    cases hc'
  · exact heq ▸ adjusts_store hv hne hc hs hcp hfree hdirty

theorem adjusts_setSegUsageNested (nested : Nat) (hs : Sound u)
    (hv : u.params.validSegmentNum segNumber) (hc : (u.entry segNumber).clean = false) (activeBytes : Int) :
    Adjusts u (setSegUsageNested nested segNumber activeBytes u) := by
  refine setSegUsageNested_induct (C := fun _ i _ u r => Sound u → u.params.validSegmentNum i → (u.entry i).clean = false → Adjusts u r)
    (fun _ _ _ _ hbad _ hv _ => absurd hv hbad) (fun _ a _ hs _ _ => adjusts_setCurrentUsage hs a)
    (fun _ _ a _ _ hne _ hv hc => adjusts_setEntryUsage hv hne hc a) (fun n i a u r _ hne hnil ih hs hv hc => ?_)
    nested segNumber activeBytes u hs hv hc
  -- the entry's block was in a segment that is not clean
  obtain ⟨hv', hc'⟩ := hs.placed _ hnil
  have hstored : Adjusts u (u.entryStored i a) := (adjusts_setEntryUsage hv hne hc a).trans (adjusts_clearIndex _ _)
  refine hstored.trans (ih (hstored.toFrames.sound hs) ?_ ?_)
  · rwa [hstored.params]
  · rwa [hstored.clean]

theorem adjusts_setSegUsage (hs : Sound u) (hv : u.params.validSegmentNum segNumber) (hc : (u.entry segNumber).clean = false) (activeBytes : Int) :
    Adjusts u (u.setSegUsage segNumber activeBytes) :=
  adjusts_setSegUsageNested u.numBlocks hs hv hc activeBytes

theorem adjusts_release (hs : Sound u) (e : SmemEntry) : Adjusts u (u.release e) := by
  unfold release
  split
  · next hmod =>
    have hnil : u.blockIndex e.blockNum ≠ nilDiskAddr := by
      simp only [Bool.and_eq_true, bne_iff_ne] at hmod
      exact hmod.2
    obtain ⟨hv, hc⟩ := hs.placed _ hnil
    have hclear := adjusts_clearIndex e.blockNum u
    exact hclear.trans (adjusts_setSegUsage (hclear.toFrames.sound hs) hv hc _)
  · exact Adjusts.refl u

theorem adjusts_releaseHeld (hs : Sound u) (held : Option SmemEntry) : Adjusts u (u.releaseHeld held) := by
  cases held with
  | none => exact Adjusts.refl u
  | some e => exact adjusts_release hs e

theorem adjusts_fetch (hs : Sound u) (segNumber : Int) (held : Option SmemEntry) :
    Adjusts u (u.fetch segNumber held).2 := by
  unfold fetch
  split
  · exact adjusts_releaseHeld hs held
  · cases held with
    | none => exact Adjusts.refl u
    | some e =>
      simp only
      split
      · exact Adjusts.refl u
      · exact adjusts_release hs e

/-! ## What a release frees -/

/-- The segments that lose block `block` of the array: its own, and, but for the current one, those of its entry's
    block. -/
def frees : Nat → Nat → SegUsage → List Int
  | 0, _, _ => []
  | nested + 1, block, u =>
    if u.blockIndex block = nilDiskAddr then []
    else
      u.segmentOf block ::
        if u.segmentOf block = u.checkPoint.currentSegment then []
        else frees nested (u.blockOf (u.segmentOf block)) (u.clearIndex block)

theorem frees_congr (hp : u'.params = u.params) (hi : u'.blockIndex = u.blockIndex)
    (hc : u'.checkPoint.currentSegment = u.checkPoint.currentSegment) (nested block : Nat) :
    frees nested block u' = frees nested block u := by
  induction nested generalizing u u' block with
  | zero => rfl
  | succ nested ih =>
    have hseg : u'.segmentOf block = u.segmentOf block := by
      unfold segmentOf
      rw [hp, hi]
    have hblock : u'.blockOf (u.segmentOf block) = u.blockOf (u.segmentOf block) := by
      unfold blockOf
      rw [hp]
    have hclear : (u'.clearIndex block).blockIndex = (u.clearIndex block).blockIndex := by
      unfold clearIndex
      rw [hi]
    have hrest := @ih (u.clearIndex block) (u'.clearIndex block) hp hclear hc
    unfold frees
    rw [hi, hseg, hc, hblock, hrest]

theorem setSegUsageNested_cur (nested : Nat) (hne : segNumber ≠ u.checkPoint.currentSegment)
    (hfree : u.checkPoint.currentSegment ∉ frees nested (u.blockOf segNumber) u) :
    (setSegUsageNested nested segNumber activeBytes u).checkPoint.curSegActiveBytes =
      u.checkPoint.curSegActiveBytes := by
  refine setSegUsageNested_induct (C := fun n i _ u r => i ≠ u.checkPoint.currentSegment →
      u.checkPoint.currentSegment ∉ frees n (u.blockOf i) u → r.checkPoint.curSegActiveBytes = u.checkPoint.curSegActiveBytes)
    (fun _ _ _ _ _ _ _ => rfl) (fun _ _ _ hne _ => absurd rfl hne) (fun _ i a u _ _ _ _ => setEntryUsage_curSegActiveBytes i a u)
    (fun n i a u r _ hne hnil ih _ hfree => ?_) nested segNumber activeBytes u hne hfree
  have hframe := frames_entryStored hne a
  unfold frees at hfree
  rw [if_neg hnil, List.mem_cons, not_or] at hfree
  obtain ⟨hfirst, hrest⟩ := hfree
  rw [if_neg (Ne.symm hfirst)] at hrest
  have hblock : (u.entryStored i a).blockOf (u.segmentOf (u.blockOf i)) = u.blockOf (u.segmentOf (u.blockOf i)) := by
    unfold blockOf
    rw [hframe.params]
  have hfrees := frees_congr (u := u.clearIndex (u.blockOf i)) hframe.params (entryStored_blockIndex i a u)
    hframe.currentSegment n (u.blockOf (u.segmentOf (u.blockOf i)))
  rw [ih ?_ ?_]
  · exact setEntryUsage_curSegActiveBytes i a u
  · rw [hframe.currentSegment]
    exact Ne.symm hfirst
  · rw [hframe.currentSegment, hblock, hfrees]
    exact hrest

def HoldsNoBlock (u : SegUsage) (segNumber : Int) : Prop :=
  ∀ b, u.blockIndex b ≠ nilDiskAddr → u.segmentOf b ≠ segNumber

theorem HoldsNoBlock.frames (h : HoldsNoBlock u i) (hf : Frames u u') : HoldsNoBlock u' i := by
  intro b hb
  have hsame : u'.blockIndex b = u.blockIndex b := (hf.index b).resolve_right hb
  have hseg : u'.segmentOf b = u.segmentOf b := by
    unfold segmentOf
    rw [hf.params, hsame]
  rw [hseg]
  exact h b (hsame ▸ hb)

/-- Entries change only for the segment itself and those with a block of the array in
them. -/
theorem setSegUsageNested_entry (nested : Nat) (hi : i ≠ segNumber)
    (hblocks : HoldsNoBlock u i) : (setSegUsageNested nested segNumber activeBytes u).entry i = u.entry i := by
  refine setSegUsageNested_induct (C := fun _ j _ u r => i ≠ j → HoldsNoBlock u i → r.entry i = u.entry i)
    (fun _ _ _ _ _ _ _ => rfl) (fun _ _ _ _ _ => rfl) (fun _ _ a u _ _ hi _ => setEntryUsage_entry_of_ne hi a u)
    (fun n j a u r _ hne hnil ih hi hblocks => ?_) nested segNumber activeBytes u hi hblocks
  rw [ih (hblocks _ hnil).symm (hblocks.frames (frames_entryStored hne a))]
  exact setEntryUsage_entry_of_ne hi a u

theorem release_entry (hblocks : HoldsNoBlock u i) : (u.release e).entry i = u.entry i := by
  unfold release
  split
  · next hmod =>
    have hnil : u.blockIndex e.blockNum ≠ nilDiskAddr := by
      simp only [Bool.and_eq_true, bne_iff_ne] at hmod
      exact hmod.2
    exact setSegUsageNested_entry _ (hblocks _ hnil).symm (hblocks.frames (frames_clearIndex _ _))
  · rfl

theorem fetch_entry {held : Option SmemEntry} (hblocks : HoldsNoBlock u i) : (u.fetch segNumber held).2.entry i = u.entry i := by
  unfold fetch
  split
  · cases held with
    | none => rfl
    | some e => exact release_entry hblocks
  · cases held with
    | none => rfl
    | some e =>
      simp only
      split
      · rfl
      · exact release_entry hblocks

theorem release_cur (hfree : u.checkPoint.currentSegment ∉ frees (u.numBlocks + 1) e.blockNum u) :
    (u.release e).checkPoint.curSegActiveBytes = u.checkPoint.curSegActiveBytes := by
  unfold release
  split
  · next hmod =>
    have hnil : u.blockIndex e.blockNum ≠ nilDiskAddr := by
      simp only [Bool.and_eq_true, bne_iff_ne] at hmod
      exact hmod.2
    unfold frees at hfree
    rw [if_neg hnil, List.mem_cons, not_or] at hfree
    obtain ⟨hfirst, hrest⟩ := hfree
    rw [if_neg (Ne.symm hfirst)] at hrest
    exact setSegUsageNested_cur _ (Ne.symm hfirst) hrest
  · rfl

/-! ## What a segment loses -/

/-- The active bytes of a segment, which are in the checkpoint for the one being
written. -/
def active (u : SegUsage) (i : Int) : Int :=
  if i = u.checkPoint.currentSegment then u.checkPoint.curSegActiveBytes else (u.entry i).activeBytes

theorem setEntryUsage_activeBytes (hc : (u.entry segNumber).clean = false)
    (activeBytes : Int) : ((u.setEntryUsage segNumber activeBytes).entry segNumber).activeBytes =
      max ((u.entry segNumber).activeBytes + activeBytes) 0 := by
  obtain ⟨cp, -, ⟨-, hc'⟩ | ⟨s, heq, -, -, hbytes, -⟩⟩ := setEntryUsage_cases segNumber activeBytes u
  · rw [hc] at hc'
    cases hc'
  · rw [heq, setEntry_entry_self, hbytes]

/-- A segment with enough active bytes, and no block of the array freed with it, changes by what it is told. -/
theorem setSegUsage_active {n : Int} (hv : u.params.validSegmentNum i)
    (hc : (u.entry i).clean = false) (hpos : 0 ≤ u.active i + n) (hblocks : HoldsNoBlock u i) :
    (u.setSegUsage i n).active i = u.active i + n := by
  have hcur := (frames_setSegUsage i n u).currentSegment
  unfold active at hpos ⊢
  rw [hcur]
  unfold setSegUsage
  rcases setSegUsageNested_cases u.numBlocks i n u with
    ⟨hbad, -⟩ | ⟨-, ⟨hi, hres⟩ | ⟨hne, hres | ⟨k, -, hnil, hres⟩⟩⟩
  · exact absurd hv hbad
  · rw [hres, if_pos hi]
    simp only [setCurrentUsage, setCheckPoint_checkPoint]
    omega
  · rw [hres, if_neg hne, setEntryUsage_activeBytes hc]
    omega
  · -- the entry's own block dies in another segment
    rw [hres, if_neg hne, setSegUsageNested_entry k (hblocks _ hnil).symm (hblocks.frames (frames_entryStored hne n))]
    change ((u.setEntryUsage i n).entry i).activeBytes = _
    rw [setEntryUsage_activeBytes hc]
    omega

end SegUsage

end SpriteKernel.Lfs
