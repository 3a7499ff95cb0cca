import SpriteKernel.Lfs.Truncate

/- `LfsFile_TruncIndex` as a whole. The surviving blocks and no others are found afterwards, unless the entry of the
   file's last block, counted twice from the cut, is looked for past the end of its index block (or the new length
   overflows). -/
namespace SpriteKernel.Lfs

open SpriteKernel

namespace FileIndex

/-- The blocks of a file of `length` bytes, as `LfsFile_TruncIndex` counts them in an `int`. -/
def blocksOf (length : Int) : Int := (toInt32 (length + (fsBlockSize - 1))).tdiv fsBlockSize

def lastBlock (f : FileIndex) : Int := f.lastByte.tdiv fsBlockSize

/-- The last block's entry is looked for past the end of an index block of the file. -/
def Overruns (io : IndexIO) (n last : Int) (f : FileIndex) : Prop :=
  (f.indexBlock io (-1) ≠ none ∧ Hits numDirectBlocks n last ∧ indicesPerBlock ≤ fragElement numDirectBlocks n last) ∨
    ∃ k, 0 ≤ k ∧ k < indicesPerBlock ∧ ChildOverruns io n last f (f.indexBlock io (-2)) k

/-! ## Numbers of blocks -/

variable {length : Int}

theorem blocksOf_nonneg (h0 : 0 ≤ length) (h : length ≤ 2147483648 - fsBlockSize) :
    0 ≤ blocksOf length ∧ blocksOf length ≤ 524288 ∧
      ∀ d, blocksOf length ≤ d ↔ length ≤ d * fsBlockSize := by
  have hint : toInt32 (length + (fsBlockSize - 1)) = length + (fsBlockSize - 1) := by
    unfold toInt32 fsBlockSize at *
    rw [Int.bmod_eq_of_le] <;> omega
  unfold blocksOf
  rw [hint, Int.tdiv_eq_ediv_of_nonneg (by unfold fsBlockSize; omega)]
  unfold fsBlockSize at *
  refine ⟨by omega, by omega, fun d => by omega⟩

theorem blocksOf_neg (h : 2147483648 - fsBlockSize < length) (h1 : length < 2147483648) : blocksOf length < 0 := by
  have hint : toInt32 (length + (fsBlockSize - 1)) = length + (fsBlockSize - 1) - 4294967296 := by
    unfold toInt32 fsBlockSize at *
    rw [← Int.sub_bmod_right, Int.bmod_eq_of_le] <;> omega
  unfold blocksOf
  rw [hint]
  unfold fsBlockSize at *
  have hle : (length + (4096 - 1) - 4294967296).tdiv 4096 ≤ (-4096 : Int).tdiv 4096 :=
    Int.tdiv_le_tdiv (by decide) (by omega)
  rw [show (-4096 : Int).tdiv 4096 = -1 from rfl] at hle
  omega

variable {f : FileIndex}

/-- What a file has: its last block is below the double indirect block's 512 first children. -/
theorem lastBlock_spec (h : -1 ≤ f.lastByte) (h1 : f.lastByte < 2147483648) :
    0 ≤ f.lastBlock ∧ f.lastBlock < 524288 ∧
      (0 ≤ f.lastByte → f.lastBlock * fsBlockSize ≤ f.lastByte ∧ f.lastByte < (f.lastBlock + 1) * fsBlockSize) ∧
      (f.lastByte < 0 → f.lastBlock = 0) := by
  unfold lastBlock fsBlockSize
  by_cases h0 : 0 ≤ f.lastByte
  · rw [Int.tdiv_eq_ediv_of_nonneg h0]
    omega
  · have he : f.lastByte = -1 := by omega
    rw [he]
    decide

/-! ## Addresses of data blocks -/

variable {d : Int}

theorem addrOf_direct (io : IndexIO) (f : FileIndex) (h0 : 0 ≤ d) (h : d < numDirectBlocks) :
    f.addrOf io d = f.direct d := by
  unfold addrOf
  rw [place_direct h0 h]

theorem addrOf_single (io : IndexIO) (f : FileIndex) {i : Int} (h0 : 0 ≤ i) (h : i < indicesPerBlock) :
    f.addrOf io (numDirectBlocks + i) = entryOf (f.indexBlock io (-1)) i := by
  unfold addrOf
  rw [place_single h0 h]

variable {k : Int}

theorem addrOf_double (io : IndexIO) (f : FileIndex) {i : Int} (hk : 0 ≤ k) (hk' : k < indicesPerBlock)
    (h0 : 0 ≤ i) (h : i < indicesPerBlock) :
    f.addrOf io (childStart k + i) = entryOf (f.indexBlock io (childNum k)) i := by
  have hnum : childNum k = -4 - k := by
    unfold childNum numIndirectBlocks
    omega
  unfold addrOf childStart
  rw [Int.add_assoc, place_double hk hk' h0 h, hnum]

theorem data_cases (h0 : 0 ≤ d) (h : d < doubleStart + indicesPerBlock * indicesPerBlock) :
    d < numDirectBlocks ∨ (∃ i, 0 ≤ i ∧ i < indicesPerBlock ∧ d = numDirectBlocks + i) ∨
      ∃ k i, 0 ≤ k ∧ k < indicesPerBlock ∧ 0 ≤ i ∧ i < indicesPerBlock ∧ d = childStart k + i := by
  by_cases hdirect : d < numDirectBlocks
  · exact .inl hdirect
  · by_cases hsingle : d < doubleStart
    · refine .inr (.inl ⟨d - numDirectBlocks, by omega, ?_, by omega⟩)
      unfold doubleStart at hsingle
      omega
    · refine .inr (.inr ⟨(d - doubleStart) / 1024, (d - doubleStart) % 1024, ?_⟩)
      unfold childStart doubleStart numDirectBlocks indicesPerBlock at *
      omega

variable {io : IndexIO}

theorem admitted_data (h0 : 0 ≤ d) (h : d < 524288) : Admitted d := by
  unfold Admitted numIndirectBlocks numDirectBlocks indicesPerBlock
  omega

theorem reachable_data (f : FileIndex) (h0 : 0 ≤ d) (h : d < 524288) : ¬Unreachable f d := by
  rintro (rfl | ⟨i, hp, -⟩)
  · exact absurd h0 (by decide)
  · rcases data_cases h0 (by unfold doubleStart numDirectBlocks indicesPerBlock; omega) with
      hd | ⟨j, hj, hj', rfl⟩ | ⟨k, j, hk, hk', hj, hj', rfl⟩
    · rw [place_direct h0 hd] at hp
      exact Place.noConfusion hp
    · rw [place_single hj hj', Place.entry.injEq] at hp
      exact absurd hp.1 (by decide)
    · have hplace := place_double hk hk' hj hj'
      unfold childStart at hp h
      rw [Int.add_assoc, hplace, Place.entry.injEq] at hp
      have hlast := hp.1
      unfold lastIndexBlock numIndirectBlocks at hlast
      unfold numDirectBlocks indicesPerBlock at *
      omega

theorem lookup_data (hio : AllRead io) (f : FileIndex) (h0 : 0 ≤ d) (h : d < 524288) :
    f.lookup io d = (.success, f.addrOf io d) :=
  lookup_of_reachable hio (admitted_data h0 h) (reachable_data f h0 h)

/-! ## The parts, where `LfsFile_TruncIndex` gets to them -/

/-- The data blocks from `lo` to `hi` have been truncated, as far as the file went. -/
structure Cut (io : IndexIO) (n last lo hi : Int) (f f' : FileIndex) : Prop where
  kept : ∀ d, 0 ≤ d → d < doubleStart + indicesPerBlock * indicesPerBlock → d < n ∨ d < lo ∨ hi ≤ d →
    f'.addrOf io d = f.addrOf io d
  gone : ∀ d, lo ≤ d → d < hi → n ≤ d → d ≤ last → f'.addrOf io d = nilDiskAddr
  nil : ∀ d, 0 ≤ d → d < doubleStart + indicesPerBlock * indicesPerBlock → f.addrOf io d = nilDiskAddr →
    f'.addrOf io d = nilDiskAddr

variable {n last lo hi : Int}

theorem Cut.of_last_lt (h : last < lo) (f : FileIndex) : Cut io n last lo hi f f :=
  ⟨fun _ _ _ _ => rfl, fun d h1 _ _ h4 => absurd h1 (by omega), fun _ _ _ h => h⟩

theorem Cut.of_le (h : hi ≤ n) (f : FileIndex) : Cut io n last lo hi f f :=
  ⟨fun _ _ _ _ => rfl, fun d _ h2 h3 _ => absurd h2 (by omega), fun _ _ _ h => h⟩

variable {f' : FileIndex}

theorem Cut.of_update (hin : ∀ d, lo ≤ d → d < hi → f'.addrOf io d = if n ≤ d then nilDiskAddr else f.addrOf io d)
    (hout : ∀ d, 0 ≤ d → d < doubleStart + indicesPerBlock * indicesPerBlock → d < lo ∨ hi ≤ d →
      f'.addrOf io d = f.addrOf io d) : Cut io n last lo hi f f' := by
  refine ⟨fun d hd hd' hk => ?_, fun d h1 h2 hn _ => ?_, fun d hd hd' hnil => ?_⟩
  · by_cases hr : lo ≤ d ∧ d < hi
    · rw [hin d hr.1 hr.2, if_neg (by omega)]
    · exact hout d hd hd' (by omega)
  · rw [hin d h1 h2, if_pos hn]
  · by_cases hr : lo ≤ d ∧ d < hi
    · rw [hin d hr.1 hr.2, hnil, ite_self]
    · rw [hout d hd hd' (by omega), hnil]

theorem DoubleDone.cut (h : DoubleDone io n last f f') :
    Cut io n last doubleStart (doubleStart + indicesPerBlock * indicesPerBlock) f f' := by
  have hsingle : f'.indexBlock io (-1) = f.indexBlock io (-1) := by
    rw [indexBlock_single, indexBlock_single, h.indirect 0 (by decide), contents_congr h.single]
  refine Cut.of_update (fun d h0 hd => ?_) (fun d h0 hd hr => ?_)
  · rcases data_cases (Int.le_trans (by decide) h0) hd with
      hlt | ⟨i, hi, hi', rfl⟩ | ⟨k, i, hk, hk', hi, hi', rfl⟩
    · unfold doubleStart indicesPerBlock at h0
      omega
    · unfold doubleStart at h0
      omega
    · rw [addrOf_double io f hk hk' hi hi', addrOf_double io f' hk hk' hi hi', h.entry k hk hk' i hi hi']
  · rcases data_cases h0 hd with hlt | ⟨i, hi, hi', rfl⟩ | ⟨k, i, hk, hk', hi, hi', rfl⟩
    · rw [addrOf_direct io f h0 hlt, addrOf_direct io f' h0 hlt, h.direct]
    · rw [addrOf_single io f hi hi', addrOf_single io f' hi hi', hsingle]
    · unfold childStart doubleStart indicesPerBlock at *
      omega

theorem SingleDone.cut (h : SingleDone io n last f f') : Cut io n last numDirectBlocks doubleStart f f' := by
  have hdouble : f'.indexBlock io (-2) = f.indexBlock io (-2) := by
    rw [indexBlock_double, indexBlock_double, h.indirect 1 (by decide), contents_congr (h.cache (-2) (by decide))]
  have hchild : ∀ k, 0 ≤ k → f'.indexBlock io (childNum k) = f.indexBlock io (childNum k) := by
    intro k hk
    rw [← childContents_double hk, ← childContents_double hk, hdouble]
    unfold childContents
    rw [contents_congr (h.cache _ (childNum_ne hk).2)]
  refine Cut.of_update (fun d h0 hd => ?_) (fun d h0 hd hr => ?_)
  · obtain ⟨i, rfl⟩ : ∃ i, d = numDirectBlocks + i := ⟨d - numDirectBlocks, by omega⟩
    unfold doubleStart at hd
    rw [addrOf_single io f (by omega) (by omega), addrOf_single io f' (by omega) (by omega),
      h.entry i (by omega) (by omega)]
  · rcases data_cases h0 hd with hlt | ⟨i, hi, hi', rfl⟩ | ⟨k, i, hk, hk', hi, hi', rfl⟩
    · rw [addrOf_direct io f h0 hlt, addrOf_direct io f' h0 hlt, h.direct]
    · unfold doubleStart at hr
      omega
    · rw [addrOf_double io f hk hk' hi hi', addrOf_double io f' hk hk' hi hi', hchild k hk]

theorem cut_direct (f : FileIndex) (calls : List UsageCall) :
    Cut io n last 0 numDirectBlocks f { f with
      direct := cleared n numDirectBlocks f.direct, usageCalls := f.usageCalls ++ calls } := by
  obtain ⟨f', hf'⟩ : ∃ f' : FileIndex, f' = { f with
    direct := cleared n numDirectBlocks f.direct, usageCalls := f.usageCalls ++ calls } := ⟨_, rfl⟩
  rw [← hf']
  have hblock : ∀ v, f'.indexBlock io v = f.indexBlock io v := by
    intro v
    rw [hf']
    rfl
  have hdirect : f'.direct = cleared n numDirectBlocks f.direct := by rw [hf']
  refine Cut.of_update (fun d h0 hd => ?_) (fun d h0 hd hr => ?_)
  · rw [addrOf_direct io f h0 hd, addrOf_direct io f' h0 hd, hdirect]
    by_cases hn : n ≤ d
    · rw [cleared_of_le hn hd, if_pos hn]
    · rw [cleared_of_lt (by omega), if_neg hn]
  · rcases data_cases h0 hd with hlt | ⟨i, hi, hi', rfl⟩ | ⟨k, i, hk, hk', hi, hi', rfl⟩
    · omega
    · rw [addrOf_single io f hi hi', addrOf_single io f' hi hi', hblock]
    · rw [addrOf_double io f hk hk' hi hi', addrOf_double io f' hk hk' hi hi', hblock]

theorem Cut.append {mid : Int} {g h : FileIndex} (h₁ : Cut io n last mid hi f g)
    (h₂ : Cut io n last lo mid g h) (h0 : 0 ≤ lo) (hlo : lo ≤ mid) (hhi : mid ≤ hi)
    (hmax : hi ≤ doubleStart + indicesPerBlock * indicesPerBlock) : Cut io n last lo hi f h := by
  refine ⟨fun d hd hd' hk => ?_, fun d hd hd' hn hl => ?_,
    fun d hd hd' hnil => h₂.nil d hd hd' (h₁.nil d hd hd' hnil)⟩
  · rw [h₂.kept d hd hd' (by omega), h₁.kept d hd hd' (by omega)]
  · by_cases hm : d < mid
    · exact h₂.gone d hd hm hn hl
    · rw [h₂.kept d (by omega) (by omega) (by omega)]
      exact h₁.gone d (by omega) hd' hn hl

/-! ## The space of a file -/

/-- What the data blocks of the descriptor take of the segment. -/
def directSpace (io : IndexIO) (seg last : Int) (f : FileIndex) : Int :=
  arraySpace io.params seg (fun i => sizeOf io.params f.lastByte last i) 10 f.direct

/-- What the indirect block and those below it take. -/
def singleSpace (io : IndexIO) (seg last : Int) (f : FileIndex) : Int :=
  space io.params seg fsBlockSize (f.indirect 0) +
    arraySpace io.params seg (fun i => sizeOf io.params f.lastByte last (numDirectBlocks + i)) 1024
      (entryOf (f.indexBlock io (-1)))

/-- What the double indirect block and those below it take. -/
def doubleSpace (io : IndexIO) (seg last : Int) (f : FileIndex) : Int :=
  space io.params seg fsBlockSize (f.indirect 1) +
    (Finset.range 1024).sum (fun k => childSpace io seg last f (f.indexBlock io (-2)) k)

/-- What the file's data and index blocks take of the segment. -/
def occupied (io : IndexIO) (seg last : Int) (f : FileIndex) : Int :=
  directSpace io seg last f + singleSpace io seg last f + doubleSpace io seg last f

theorem singleTotal_eq (io : IndexIO) (seg last : Int) (f : FileIndex) :
    singleTotal io seg last f = freedIn seg f.usageCalls + singleSpace io seg last f := by
  unfold singleTotal singleSpace
  rw [Int.add_assoc]

theorem doubleTotal_eq (io : IndexIO) (seg last : Int) (f : FileIndex) :
    doubleTotal io seg last f = freedIn seg f.usageCalls + doubleSpace io seg last f := by
  unfold doubleTotal childrenTotal doubleSpace
  rw [Int.add_left_comm]

theorem directSpace_congr (io : IndexIO) (hd : f'.direct = f.direct)
    (hb : f'.lastByte = f.lastByte) (seg last : Int) : directSpace io seg last f' = directSpace io seg last f := by
  unfold directSpace
  rw [hd, hb]

theorem singleSpace_congr (io : IndexIO) (hi : f'.indirect 0 = f.indirect 0)
    (hc : f'.cache (-1) = f.cache (-1)) (hb : f'.lastByte = f.lastByte) (seg last : Int) :
    singleSpace io seg last f' = singleSpace io seg last f := by
  unfold singleSpace
  rw [indexBlock_single, indexBlock_single, hi, contents_congr hc, hb]

theorem doubleSpace_congr (io : IndexIO) (hi : f'.indirect 1 = f.indirect 1)
    (hc : ∀ w, w ≠ -1 → f'.cache w = f.cache w) (hb : f'.lastByte = f.lastByte) (seg last : Int) :
    doubleSpace io seg last f' = doubleSpace io seg last f := by
  unfold doubleSpace
  rw [indexBlock_double, indexBlock_double, hi, contents_congr (hc (-2) (by decide))]
  refine congrArg (fun x => space io.params seg fsBlockSize (f.indirect 1) + x) (Finset.sum_congr rfl (fun k _ => ?_))
  unfold childSpace childContents
  rw [contents_congr (hc _ (childNum_ne (by omega)).2), hb]

/-! ## The whole -/

/-- What the usage array is told too much of the last block, which is not found. -/
def missed (io : IndexIO) (seg n last : Int) (f : FileIndex) : Int :=
  misfreed io.params seg f.lastByte numDirectBlocks n last (entryOf (f.indexBlock io (-1)) (last - numDirectBlocks)) +
    childrenMisfreed io seg n last f (f.indexBlock io (-2)) (cutElement n) indicesPerBlock

/-- What it is not told of a child that is dropped. -/
def dropped (io : IndexIO) (seg n last : Int) (f : FileIndex) : Int :=
  if doubleStart ≤ last then forgotten io seg n (f.indexBlock io (-2)) else 0

def EndsAfter (io : IndexIO) (last : Int) (f : FileIndex) : Prop :=
  ∀ d, 0 ≤ d → last < d → d < doubleStart + indicesPerBlock * indicesPerBlock → f.addrOf io d = nilDiskAddr

structure DoublePart (io : IndexIO) (n last : Int) (f f' : FileIndex) : Prop where
  direct : f'.direct = f.direct
  indirect : f'.indirect 0 = f.indirect 0
  lastByte : f'.lastByte = f.lastByte
  cache : f'.cache (-1) = f.cache (-1)
  cut : Cut io n last doubleStart (doubleStart + indicesPerBlock * indicesPerBlock) f f'
  freed : EndsAfter io last f → ∀ seg,
    doubleTotal io seg last f' + dropped io seg n last f = doubleTotal io seg last f +
      childrenMisfreed io seg n last f (f.indexBlock io (-2)) (cutElement n) indicesPerBlock

theorem EndsAfter.child (h : EndsAfter io last f) (hk : 0 ≤ k) (hk' : k < indicesPerBlock) (hin : ¬ChildOverruns io n last f (f.indexBlock io (-2)) k) :
    EndsAt io n last f (f.indexBlock io (-2)) k := by
  intro hhit hcut
  by_cases hc : childContents io f (f.indexBlock io (-2)) k = none
  · rw [hc]
    rfl
  · have hlt : fragElement (childStart k) n last < indicesPerBlock :=
      Int.not_le.mp (fun hle => hin ⟨hc, hhit, hle⟩)
    rw [childContents_double hk]
    have hpos : last < childStart k + fragElement (childStart k) n last ∧ 0 ≤ fragElement (childStart k) n last := by
      obtain ⟨h1, -, -⟩ := hhit
      unfold fragElement
      omega
    have hnil := h (childStart k + fragElement (childStart k) n last)
      (by unfold childStart numDirectBlocks indicesPerBlock at *; omega) hpos.1
      (by unfold childStart doubleStart indicesPerBlock at *; omega)
    rwa [addrOf_double io f hk hk' hpos.2 hlt] at hnil

theorem childrenMisfreed_of_last_lt {seg : Int} (h : last < doubleStart) (f : FileIndex)
    (e : Option BlockArray) (lo hi : Int) : childrenMisfreed io seg n last f e lo hi = 0 := by
  refine Finset.sum_eq_zero (fun k _ => ?_)
  have hno : ¬Hits (childStart k) n last := by
    intro hhit
    have h1 := hhit.1
    unfold childStart doubleStart indicesPerBlock at *
    omega
  have hzero : ∀ a, misfreed io.params seg f.lastByte (childStart k) n last a = 0 :=
    fun a => if_neg (fun hc => hno hc.1)
  rw [hzero]
  split <;> rfl

theorem ChildOverruns.lt {e : Option BlockArray}
    (h : ChildOverruns io n last f e k) (hlast : last < 524288) : k < indicesPerBlock := by
  obtain ⟨-, ⟨h1, -, -⟩, -⟩ := h
  unfold childStart numDirectBlocks indicesPerBlock at *
  omega

theorem doublePart_ok (hio : AllRead io) (hn : n ≤ 524288)
    (hin : ∀ k, 0 ≤ k → ¬ChildOverruns io n last f (f.indexBlock io (-2)) k) :
    ∃ f', (if n < numDirectBlocks + indicesPerBlock + indicesPerBlock * indicesPerBlock ∧
        last ≥ numDirectBlocks + indicesPerBlock then
      f.truncIndirect io n last 1 1 (numDirectBlocks + indicesPerBlock) else .ok (.success, f)) = .ok (.success, f') ∧
      DoublePart io n last f f' := by
  have hlimit : n < doubleStart + indicesPerBlock * indicesPerBlock := by
    unfold doubleStart numDirectBlocks indicesPerBlock
    omega
  by_cases hlast : last ≥ doubleStart
  · obtain ⟨h0, -, -⟩ := cutElement_spec n
    obtain ⟨f', hrun, hdone⟩ := truncDouble_ok hio hlimit (fun k (hk : cutElement n ≤ k) => hin k (by omega))
    refine ⟨f', ?_, hdone.direct, hdone.indirect 0 (by decide), hdone.lastByte, hdone.single, hdone.cut,
      fun hend seg => ?_⟩
    · rw [if_pos ⟨hlimit, hlast⟩]
      exact hrun
    · unfold dropped
      rw [if_pos hlast]
      exact hdone.freed seg (fun k hk hk' => hend.child hk hk' (hin k hk))
  · refine ⟨f, if_neg (fun h => hlast h.2), rfl, rfl, rfl, rfl, Cut.of_last_lt (by omega) f, fun _ seg => ?_⟩
    unfold dropped
    rw [if_neg hlast, childrenMisfreed_of_last_lt (by omega)]

theorem doublePart_outside (hio : AllRead io) (hn : n ≤ 524288) (hl : last < 524288)
    (hk : 0 ≤ k) (hover : ChildOverruns io n last f (f.indexBlock io (-2)) k) :
    (if n < numDirectBlocks + indicesPerBlock + indicesPerBlock * indicesPerBlock ∧
        last ≥ numDirectBlocks + indicesPerBlock then
      f.truncIndirect io n last 1 1 (numDirectBlocks + indicesPerBlock) else .ok (.success, f)) =
      .error .outOfBounds := by
  have hlimit : n < doubleStart + indicesPerBlock * indicesPerBlock := by
    unfold doubleStart numDirectBlocks indicesPerBlock
    omega
  have hlast : last ≥ doubleStart := by
    have h1 := hover.2.1.1
    unfold childStart doubleStart indicesPerBlock at *
    omega
  rw [if_pos ⟨hlimit, hlast⟩]
  exact truncDouble_outside hio hlimit hk (hover.lt hl) hover

structure SinglePart (io : IndexIO) (n last : Int) (f f' : FileIndex) : Prop where
  direct : f'.direct = f.direct
  indirect : f'.indirect 1 = f.indirect 1
  lastByte : f'.lastByte = f.lastByte
  cache : ∀ w, w ≠ -1 → f'.cache w = f.cache w
  cut : Cut io n last numDirectBlocks doubleStart f f'
  freed : EndsAfter io last f → ∀ seg, singleTotal io seg last f' = singleTotal io seg last f +
    misfreed io.params seg f.lastByte numDirectBlocks n last (entryOf (f.indexBlock io (-1)) (last - numDirectBlocks))

theorem singlePart_ok (hio : AllRead io) (hin : f.indexBlock io (-1) ≠ none → Hits numDirectBlocks n last →
      fragElement numDirectBlocks n last < indicesPerBlock) :
    ∃ f', (if n < indicesPerBlock + numDirectBlocks ∧ last ≥ numDirectBlocks then
      f.truncIndirect io n last 0 0 numDirectBlocks else .ok (.success, f)) = .ok (.success, f') ∧
      SinglePart io n last f f' := by
  have hnone : ¬Hits numDirectBlocks n last → ∀ seg a, misfreed io.params seg f.lastByte numDirectBlocks n last a = 0 :=
    fun h seg a => if_neg (fun hc => h hc.1)
  by_cases hlast : last ≥ numDirectBlocks
  · by_cases hn : n < indicesPerBlock + numDirectBlocks
    · obtain ⟨f', hrun, hdone⟩ := truncSingle_ok hio (show n - numDirectBlocks ≤ indicesPerBlock by omega) hin
      refine ⟨f', ?_, hdone.direct, hdone.indirect 1 (by decide), hdone.lastByte, hdone.cache, hdone.cut,
        fun hend seg => hdone.freed seg (fun hhit hcut => ?_)⟩
      · rw [if_pos ⟨hn, hlast⟩]
        exact hrun
      · by_cases hc : f.indexBlock io (-1) = none
        · rw [hc]
          rfl
        · have hlt := hin hc hhit
          have hpos : last < numDirectBlocks + fragElement numDirectBlocks n last ∧
              0 ≤ fragElement numDirectBlocks n last := by
            unfold fragElement
            omega
          have hnil := hend (numDirectBlocks + fragElement numDirectBlocks n last)
            (by unfold numDirectBlocks at *; omega) hpos.1
            (by unfold doubleStart indicesPerBlock at *; omega)
          rwa [addrOf_single io f hpos.2 hlt] at hnil
    · refine ⟨f, if_neg (fun h => hn h.1), rfl, rfl, rfl, fun _ _ => rfl,
        Cut.of_le (by unfold doubleStart; omega) f, fun _ seg => ?_⟩
      rw [hnone (fun h => by have h2 := h.2.1; have h3 := h.2.2; omega), Int.add_zero]
  · refine ⟨f, if_neg (fun h => hlast h.2), rfl, rfl, rfl, fun _ _ => rfl, Cut.of_last_lt (by omega) f, fun _ seg => ?_⟩
    rw [hnone (fun h => hlast h.1), Int.add_zero]

theorem singlePart_outside (hio : AllRead io) (hc : f.indexBlock io (-1) ≠ none) (hhit : Hits numDirectBlocks n last)
    (hout : indicesPerBlock ≤ fragElement numDirectBlocks n last) :
    (if n < indicesPerBlock + numDirectBlocks ∧ last ≥ numDirectBlocks then
      f.truncIndirect io n last 0 0 numDirectBlocks else .ok (.success, f)) = .error .outOfBounds := by
  have hn : n < indicesPerBlock + numDirectBlocks := by
    obtain ⟨-, h2, h3⟩ := hhit
    omega
  rw [if_pos ⟨hn, hhit.1⟩]
  exact truncSingle_outside hio hc hhit hout

structure Truncated (io : IndexIO) (n last : Int) (f f' : FileIndex) : Prop where
  lastByte : f'.lastByte = f.lastByte
  cut : Cut io n last 0 (doubleStart + indicesPerBlock * indicesPerBlock) f f'
  freed : EndsAfter io last f → (f.lastByte < 0 → f.direct last = nilDiskAddr) → ∀ seg,
    freedIn seg f'.usageCalls + occupied io seg last f' + dropped io seg n last f =
      freedIn seg f.usageCalls + occupied io seg last f + missed io seg n last f

theorem Truncated.of_parts {f₁ f₂ f₃ : FileIndex} (h₁ : DoublePart io n last f f₁)
    (h₂ : SinglePart io n last f₁ f₂) (hcut : Cut io n last 0 numDirectBlocks f₂ f₃)
    (hi : f₃.indirect = f₂.indirect) (hc : f₃.cache = f₂.cache) (hb : f₃.lastByte = f₂.lastByte)
    (hfreed : (f₂.lastByte < 0 → f₂.direct last = nilDiskAddr) → ∀ seg,
      freedIn seg f₃.usageCalls + directSpace io seg last f₃ = freedIn seg f₂.usageCalls + directSpace io seg last f₂) :
    Truncated io n last f f₃ := by
  refine ⟨by rw [hb, h₂.lastByte, h₁.lastByte], ?_, fun hend hempty seg => ?_⟩
  · have hfront := h₂.cut.append hcut (by decide) (by decide) (by decide) (by decide)
    exact h₁.cut.append hfront (by decide) (by decide) (by decide) (Int.le_refl _)
  · have hend₁ : EndsAfter io last f₁ := by
      intro d h0 hd hd'
      exact h₁.cut.nil d h0 hd' (hend d h0 hd hd')
    have hf1 := h₁.freed hend seg
    have hf2 := h₂.freed hend₁ seg
    have hf3 := hfreed (by rw [h₂.lastByte, h₁.lastByte, h₂.direct, h₁.direct]; exact hempty) seg
    have hblock : f₁.indexBlock io (-1) = f.indexBlock io (-1) := by
      rw [indexBlock_single, indexBlock_single, h₁.indirect, contents_congr h₁.cache]
    rw [singleTotal_eq, singleTotal_eq, h₁.lastByte, hblock,
      singleSpace_congr io h₁.indirect h₁.cache h₁.lastByte] at hf2
    rw [doubleTotal_eq, doubleTotal_eq] at hf1
    rw [directSpace_congr io (h₂.direct.trans h₁.direct) (h₂.lastByte.trans h₁.lastByte)] at hf3
    have hdouble := doubleSpace_congr io h₂.indirect h₂.cache h₂.lastByte seg last
    have hdouble' : doubleSpace io seg last f₃ = doubleSpace io seg last f₂ :=
      doubleSpace_congr io (by rw [hi]) (fun w _ => by rw [hc]) hb seg last
    have hsingle' : singleSpace io seg last f₃ = singleSpace io seg last f₂ :=
      singleSpace_congr io (by rw [hi]) (by rw [hc]) hb seg last
    unfold occupied missed
    omega

theorem truncIndex_ok (hio : AllRead io) (hn : 0 ≤ blocksOf length)
    (hn' : blocksOf length ≤ 524288) (hlast : 0 ≤ f.lastBlock) (hlast' : f.lastBlock < 524288)
    (hin : ¬Overruns io (blocksOf length) f.lastBlock f) :
    ∃ f', f.truncIndex io length = .ok (.success, f') ∧ Truncated io (blocksOf length) f.lastBlock f f' := by
  obtain ⟨hsingle, hdouble⟩ := not_or.mp hin
  have hin₁ : ∀ k, 0 ≤ k → ¬ChildOverruns io (blocksOf length) f.lastBlock f (f.indexBlock io (-2)) k :=
    fun k hk hover => hdouble ⟨k, hk, hover.lt hlast', hover⟩
  obtain ⟨f₁, hrun₁, h₁⟩ := doublePart_ok hio hn' hin₁
  have hblock : f₁.indexBlock io (-1) = f.indexBlock io (-1) := by
    rw [indexBlock_single, indexBlock_single, h₁.indirect, contents_congr h₁.cache]
  have hin₂ : f₁.indexBlock io (-1) ≠ none → Hits numDirectBlocks (blocksOf length) f.lastBlock →
      fragElement numDirectBlocks (blocksOf length) f.lastBlock < indicesPerBlock :=
    fun hc hhit => Int.not_le.mp (fun hle => hsingle ⟨by rw [← hblock]; exact hc, hhit, hle⟩)
  obtain ⟨f₂, hrun₂, h₂⟩ := singlePart_ok hio hin₂
  unfold truncIndex
  have hnum : (toInt32 (length + (fsBlockSize - 1))).tdiv fsBlockSize = blocksOf length := rfl
  have hbyte : f.lastByte.tdiv fsBlockSize = f.lastBlock := rfl
  simp only [hnum, hbyte, hrun₁, hrun₂, bind, Except.bind]
  by_cases hd : blocksOf length < numDirectBlocks
  · obtain ⟨calls, hrun₃, hfreed⟩ := truncDirect_ok io hn hd hlast f₂
    refine ⟨_, by rw [if_pos hd, hrun₃], Truncated.of_parts h₁ h₂ (cut_direct f₂ calls) rfl rfl rfl (fun hempty seg => ?_)⟩
    have hcalls := hfreed seg hempty
    simp only [directSpace, freedIn_append]
    omega
  · exact ⟨f₂, by rw [if_neg hd], Truncated.of_parts h₁ h₂ (Cut.of_le (by omega) f₂) rfl rfl rfl (fun _ _ => rfl)⟩

theorem truncIndex_outside (hio : AllRead io) (hn' : blocksOf length ≤ 524288) (hlast : f.lastBlock < 524288)
    (hover : Overruns io (blocksOf length) f.lastBlock f) : f.truncIndex io length = .error .outOfBounds := by
  have hnum : (toInt32 (length + (fsBlockSize - 1))).tdiv fsBlockSize = blocksOf length := rfl
  have hbyte : f.lastByte.tdiv fsBlockSize = f.lastBlock := rfl
  unfold truncIndex
  simp only [hnum, hbyte, bind]
  by_cases hdouble : ∃ k, 0 ≤ k ∧ ChildOverruns io (blocksOf length) f.lastBlock f (f.indexBlock io (-2)) k
  · obtain ⟨k, hk, hchild⟩ := hdouble
    rw [doublePart_outside hio hn' hlast hk hchild]
    rfl
  · obtain ⟨f₁, hrun₁, h₁⟩ := doublePart_ok hio hn' (fun k hk hchild => hdouble ⟨k, hk, hchild⟩)
    obtain ⟨hc, hhit, hout⟩ : f.indexBlock io (-1) ≠ none ∧ Hits numDirectBlocks (blocksOf length) f.lastBlock ∧
        indicesPerBlock ≤ fragElement numDirectBlocks (blocksOf length) f.lastBlock :=
      hover.resolve_right (fun ⟨k, hk, _, hchild⟩ => hdouble ⟨k, hk, hchild⟩)
    have hblock : f₁.indexBlock io (-1) = f.indexBlock io (-1) := by
      rw [indexBlock_single, indexBlock_single, h₁.indirect, contents_congr h₁.cache]
    rw [hrun₁]
    simp only [Except.bind]
    rw [singlePart_outside hio (by rw [hblock]; exact hc) hhit hout]

theorem truncIndex_overflow (io : IndexIO) (f : FileIndex) (hn : blocksOf length < 0) :
    ∃ e, f.truncIndex io length = .error e := by
  have hnum : (toInt32 (length + (fsBlockSize - 1))).tdiv fsBlockSize = blocksOf length := rfl
  have hlow : blocksOf length < numDirectBlocks := by
    unfold numDirectBlocks
    omega
  have hlast : ∀ g : FileIndex, ∃ e, g.truncDirect io (blocksOf length) (f.lastByte.tdiv fsBlockSize) = .error e :=
    fun g => truncDirect_outside hn g
  unfold truncIndex
  simp only [hnum, bind, if_pos hlow]
  generalize f.lastByte.tdiv fsBlockSize = last at hlast ⊢
  generalize (if blocksOf length < numDirectBlocks + indicesPerBlock + indicesPerBlock * indicesPerBlock ∧
    last ≥ numDirectBlocks + indicesPerBlock then _ else _ : Except Fault (ReturnStatus × FileIndex)) = r
  cases r with
  | error e => exact ⟨e, rfl⟩
  | ok r =>
    simp only [Except.bind]
    generalize (if blocksOf length < indicesPerBlock + numDirectBlocks ∧ last ≥ numDirectBlocks then _ else _ :
      Except Fault (ReturnStatus × FileIndex)) = q
    cases q with
    | error e => exact ⟨e, rfl⟩
    | ok q =>
      obtain ⟨e, he⟩ := hlast q.2
      exact ⟨e, by simp only [he]⟩

/-- Blocks in front of the new end are where they were; those behind it, up to the old end, are gone. -/
structure Keeps (io : IndexIO) (length : Int) (f f' : FileIndex) : Prop where
  kept : ∀ d, 0 ≤ d → d * fsBlockSize < length → f'.lookup io d = f.lookup io d
  gone : ∀ d, length ≤ d * fsBlockSize → 0 ≤ d → d ≤ f.lastBlock → f'.lookup io d = (.success, nilDiskAddr)

/-- `LfsFile_TruncIndex` keeps the surviving blocks and no others, and when it does not. -/
theorem truncIndex_iff {io : IndexIO} (hio : AllRead io) {f : FileIndex} (hbyte : -1 ≤ f.lastByte)
    (hbyte' : f.lastByte < 2147483648) {length : Int} (hlen : 0 ≤ length) (hlen' : length < 2147483648) :
    (∃ f', f.truncIndex io length = .ok (.success, f') ∧ Keeps io length f f') ↔
      length ≤ 2147483648 - fsBlockSize ∧ ¬Overruns io (blocksOf length) f.lastBlock f := by
  obtain ⟨hlast, hlast', -, -⟩ := lastBlock_spec hbyte hbyte'
  constructor
  · rintro ⟨f', hrun, -⟩
    have hfits : length ≤ 2147483648 - fsBlockSize := by
      by_contra hlong
      obtain ⟨e, he⟩ := truncIndex_overflow io f (blocksOf_neg (by omega) hlen')
      rw [he] at hrun
      exact absurd hrun (by simp)
    refine ⟨hfits, fun hover => ?_⟩
    rw [truncIndex_outside hio (blocksOf_nonneg hlen hfits).2.1 hlast' hover] at hrun
    exact absurd hrun (by simp)
  · rintro ⟨hfits, hin⟩
    obtain ⟨hn, hn', hblocks⟩ := blocksOf_nonneg hlen hfits
    obtain ⟨f', hrun, hdone⟩ := truncIndex_ok hio hn hn' hlast hlast' hin
    have hmax : (524288 : Int) ≤ doubleStart + indicesPerBlock * indicesPerBlock := by decide
    refine ⟨f', hrun, fun d h0 hd => ?_, fun d hd h0 hl => ?_⟩
    · have hlt : d < blocksOf length := by
        by_contra hge
        have hle := (hblocks d).mp (by omega)
        omega
      rw [lookup_data hio f h0 (by omega), lookup_data hio f' h0 (by omega),
        hdone.cut.kept d h0 (by omega) (.inl hlt)]
    · rw [lookup_data hio f' h0 (by omega), hdone.cut.gone d h0 (by omega) ((hblocks d).mpr hd) hl]

theorem Overruns.indexed (h : Overruns io n last f) : numDirectBlocks ≤ last := by
  rcases h with ⟨-, hhit, -⟩ | ⟨k, hk, -, -, hhit, -⟩
  · exact hhit.1
  · have h1 := hhit.1
    unfold childStart indicesPerBlock at h1
    omega

/-- Segments of 1024 blocks of 4096 bytes. -/
def wholeBlocks : IndexIO where
  params := ⟨12, 0, 4194304, 3, 1, 1, 341, 4096⟩
  readIndex := fun _ => .ok (fun _ => nilDiskAddr)
  readData := fun _ => .success
  room := fun _ => true

/-- A file of at most 1034 blocks from address 1 on, whose indirect block is in the cache. -/
def fileOf (lastByte blocks : Int) : FileIndex where
  lastByte := lastByte
  isDirectory := false
  direct := fun i => if i < blocks then 1 + i else nilDiskAddr
  indirect := fun i => if i = 0 ∧ numDirectBlocks < blocks then 2000 else nilDiskAddr
  indexDirty := false
  cache := fun v => if v = -1 ∧ numDirectBlocks < blocks then
    some ⟨fun i => if 0 ≤ i ∧ numDirectBlocks + i < blocks then 1 + numDirectBlocks + i else nilDiskAddr, false⟩ else none
  data := fun _ => none
  usageCalls := []

/-- A file of three blocks cut to the first. -/
theorem truncIndex_short : ∃ f', (fileOf 12287 3).truncIndex wholeBlocks 4096 = .ok (.success, f') ∧
    Keeps wholeBlocks 4096 (fileOf 12287 3) f' := by
  refine (@truncIndex_iff wholeBlocks (fun _ _ => ⟨_, rfl⟩) (fileOf 12287 3) (by decide) (by decide) 4096
    (by decide) (by decide)).mpr ⟨by decide, fun h => ?_⟩
  have hlast : (fileOf 12287 3).lastBlock = 2 := rfl
  exact absurd h.indexed (by rw [hlast]; decide)

/-- The last of 611 blocks is cut off: its entry, 600 of the indirect block, is looked for 600 further on. -/
theorem fragment_entry_outside : (fileOf 2502655 611).truncIndex wholeBlocks 2498560 = .error .outOfBounds ∧
    ¬∃ f', (fileOf 2502655 611).truncIndex wholeBlocks 2498560 = .ok (.success, f') ∧
      Keeps wholeBlocks 2498560 (fileOf 2502655 611) f' := by
  have hlast : (fileOf 2502655 611).lastBlock = 610 := rfl
  have hblocks : blocksOf 2498560 = 610 := by decide
  have hrun : (fileOf 2502655 611).truncIndex wholeBlocks 2498560 = .error .outOfBounds := by
    refine truncIndex_outside (fun _ _ => ⟨_, rfl⟩) (by rw [hblocks]; decide) (by rw [hlast]; decide)
      (.inl ⟨?_, ?_, ?_⟩)
    · rw [indexBlock_single, contents_of_cached (b := ⟨fun i => if 0 ≤ i ∧ numDirectBlocks + i < 611 then
        1 + numDirectBlocks + i else nilDiskAddr, false⟩) rfl]
      simp
    · decide
    · decide
  refine ⟨hrun, fun ⟨f', hok, _⟩ => ?_⟩
  rw [hrun] at hok
  exact absurd hok (by simp)

end FileIndex

end SpriteKernel.Lfs
