import SpriteKernel.Lfs.TruncIndex

/- The space truncation frees: what the usage array is told is dead, and what the file has less. They are the same,
   unless the last block's entry is looked for outside its index block (or the length overflows), the last block is a
   fragment not found, or a double indirect block is dropped whose first child is still needed. -/
namespace SpriteKernel.Lfs

open SpriteKernel

namespace FileIndex

def IndexStart (start : Int) : Prop :=
  start = numDirectBlocks ∨ ∃ k, 0 ≤ k ∧ k < indicesPerBlock ∧ start = childStart k

/-- The cut and the file's last block are below one index block: the block's entry is looked for behind it. -/
def Straddles (n last : Int) : Prop := ∃ start, IndexStart start ∧ Hits start n last ∧ start < n

/-- The last block is not found, and takes less than a whole block. -/
def FragmentMissed (io : IndexIO) (n last : Int) (f : FileIndex) : Prop :=
  Straddles n last ∧ f.addrOf io last ≠ nilDiskAddr ∧ sizeOf io.params f.lastByte last last ≠ fsBlockSize

/-- The double indirect block is dropped for a cut among the blocks below its first child. -/
def ChildForgotten (io : IndexIO) (n last : Int) (f : FileIndex) : Prop :=
  doubleStart ≤ last ∧ doubleStart < n ∧ n < doubleStart + indicesPerBlock ∧
    entryOf (f.indexBlock io (-2)) 0 ≠ nilDiskAddr

/-! ## What is told too much, and too little -/

variable {n last start : Int}

theorem misfreed_of_not (h : ¬(Hits start n last ∧ start < n)) (p : SuperBlock)
    (seg lastByte : Int) (a : DiskAddr) : misfreed p seg lastByte start n last a = 0 := if_neg h

variable {io : IndexIO} {seg : Int}

theorem childrenMisfreed_eq {k : Int} (hk : 0 ≤ k) (hk' : k < indicesPerBlock)
    (hlast : childStart k ≤ last ∧ last < childStart k + indicesPerBlock) (f : FileIndex) :
    childrenMisfreed io seg n last f (f.indexBlock io (-2)) (cutElement n) indicesPerBlock =
      misfreed io.params seg f.lastByte (childStart k) n last (f.addrOf io last) := by
  obtain ⟨m, rfl⟩ : ∃ m : Nat, k = m := ⟨k.toNat, by omega⟩
  have hother : ∀ l : Int, l ≠ m → ∀ a, misfreed io.params seg f.lastByte (childStart l) n last a = 0 := by
    intro l hl a
    refine misfreed_of_not (fun hc => hl ?_) _ _ _ _
    obtain ⟨⟨h1, h2, -⟩, -⟩ := hc
    unfold childStart indicesPerBlock at *
    omega
  have haddr : f.addrOf io last = entryOf (childContents io f (f.indexBlock io (-2)) m) (last - childStart m) := by
    rw [childContents_double hk, ← addrOf_double io f hk hk' (by omega) (by omega)]
    congr 1
    omega
  unfold childrenMisfreed
  rw [Finset.sum_eq_single m (fun l _ hl => ?_) (fun h => absurd (Finset.mem_range.mpr ?_) h), ← haddr]
  · by_cases hcut : cutElement n ≤ m
    · rw [if_pos ⟨hcut, hk'⟩]
    · rw [if_neg (fun h => hcut h.1), misfreed_of_not (fun hc => ?_)]
      obtain ⟨h0, -, hspec⟩ := cutElement_spec n
      obtain ⟨⟨-, h2, h3⟩, -⟩ := hc
      unfold childStart indicesPerBlock at *
      omega
  · rw [hother l (by omega)]
    split <;> rfl
  · unfold indicesPerBlock at hk'
    omega

theorem missed_eq (hs : IndexStart start) (hlast : start ≤ last ∧ last < start + indicesPerBlock) (f : FileIndex) :
    missed io seg n last f = misfreed io.params seg f.lastByte start n last (f.addrOf io last) := by
  unfold missed
  rcases hs with rfl | ⟨k, hk, hk', rfl⟩
  · have haddr := addrOf_single io f (i := last - numDirectBlocks) (by omega) (by omega)
    rw [show numDirectBlocks + (last - numDirectBlocks) = last by omega] at haddr
    rw [childrenMisfreed_of_last_lt hlast.2, haddr, Int.add_zero]
  · rw [childrenMisfreed_eq hk hk' hlast, misfreed_of_not (fun hc => ?_), Int.zero_add]
    have h2 := hc.1.2.1
    unfold childStart indicesPerBlock at *
    omega

theorem missed_of_direct (h : last < numDirectBlocks) (f : FileIndex) : missed io seg n last f = 0 := by
  unfold missed
  rw [childrenMisfreed_of_last_lt (by unfold doubleStart indicesPerBlock; omega),
    misfreed_of_not (fun hc => by have h1 := hc.1.1; omega), Int.add_zero]

theorem missed_of_straddles (h : Straddles n last) (f : FileIndex) (seg : Int) :
    missed io seg n last f = space io.params seg fsBlockSize (f.addrOf io last) -
      space io.params seg (sizeOf io.params f.lastByte last last) (f.addrOf io last) := by
  obtain ⟨start, hs, hhit, hlt⟩ := h
  rw [missed_eq hs ⟨hhit.1, hhit.2.1⟩]
  exact if_pos ⟨hhit, hlt⟩

theorem missed_of_not (hlast : 0 ≤ last) (hlast' : last < 524288)
    (h : ¬Straddles n last) (f : FileIndex) (seg : Int) : missed io seg n last f = 0 := by
  rcases data_cases hlast (by unfold doubleStart numDirectBlocks indicesPerBlock; omega) with
    hd | ⟨i, hi, hi', rfl⟩ | ⟨k, i, hk, hk', hi, hi', rfl⟩
  · exact missed_of_direct hd f
  · have hs : IndexStart numDirectBlocks := .inl rfl
    rw [missed_eq hs (by omega)]
    exact misfreed_of_not (fun hc => h ⟨_, hs, hc⟩) _ _ _ _
  · have hs : IndexStart (childStart k) := .inr ⟨k, hk, hk', rfl⟩
    rw [missed_eq hs (by omega)]
    exact misfreed_of_not (fun hc => h ⟨_, hs, hc⟩) _ _ _ _

variable {f : FileIndex} {p : SuperBlock}

theorem dropped_of_not (h : ¬ChildForgotten io n last f) (seg : Int) : dropped io seg n last f = 0 := by
  unfold dropped forgotten
  by_cases hlast : doubleStart ≤ last
  · rw [if_pos hlast]
    by_cases hcut : f.indexBlock io (-2) ≠ none ∧ doubleStart < n ∧ n < doubleStart + indicesPerBlock
    · rw [if_pos hcut]
      have hnil : entryOf (f.indexBlock io (-2)) 0 = nilDiskAddr := by
        by_contra hne
        exact h ⟨hlast, hcut.2.1, hcut.2.2, hne⟩
      rw [hnil, space_nil]
    · rw [if_neg hcut]
  · rw [if_neg hlast]

theorem dropped_of_forgotten (h : ChildForgotten io n last f) :
    dropped io (io.params.diskAddrToSegmentNum (entryOf (f.indexBlock io (-2)) 0)) n last f = fsBlockSize := by
  obtain ⟨hlast, hlo, hhi, hchild⟩ := h
  have hblock : f.indexBlock io (-2) ≠ none := by
    intro hnone
    rw [hnone] at hchild
    exact hchild rfl
  unfold dropped forgotten
  rw [if_pos hlast, if_pos ⟨hblock, hlo, hhi⟩]
  exact if_pos ⟨hchild, rfl⟩

theorem space_self {size : Int} {a : DiskAddr} (h : a ≠ nilDiskAddr) :
    space p (p.diskAddrToSegmentNum a) size a = size := if_pos ⟨h, rfl⟩

theorem roundToBlocks_pos {bytes : Int} (h : 0 < bytes) : 0 < roundToBlocks p bytes := by
  have hpos : (0 : Int) < 2 ^ p.blockSizeShift := Int.pow_pos (by decide)
  have hblocks : 0 < p.bytesToBlocks bytes := by
    unfold SuperBlock.bytesToBlocks SuperBlock.blockSize
    rw [Int.shiftRight_eq_div_pow]
    exact (Int.le_ediv_iff_mul_le hpos).mpr (by omega)
  unfold roundToBlocks SuperBlock.blocksToBytes
  rw [Int.shiftLeft_eq]
  exact Int.mul_pos hblocks hpos

theorem missed_eq_dropped_iff (hbyte : -1 ≤ f.lastByte)
    (hbyte' : f.lastByte < 2147483648) : (∀ seg, missed io seg n f.lastBlock f = dropped io seg n f.lastBlock f) ↔
      ¬FragmentMissed io n f.lastBlock f ∧ ¬ChildForgotten io n f.lastBlock f := by
  obtain ⟨hlast, hlast', hblock, hempty⟩ := lastBlock_spec hbyte hbyte'
  by_cases hforgot : ChildForgotten io n f.lastBlock f
  · refine ⟨fun h => ?_, fun h => absurd hforgot h.2⟩
    have heq := h (io.params.diskAddrToSegmentNum (entryOf (f.indexBlock io (-2)) 0))
    rw [dropped_of_forgotten hforgot] at heq
    have hpos : 0 < sizeOf io.params f.lastByte f.lastBlock f.lastBlock := by
      have hnonneg : 0 ≤ f.lastByte := by
        by_contra hneg
        have h1 := hforgot.1
        rw [hempty (by omega)] at h1
        exact absurd h1 (by decide)
      unfold sizeOf
      rw [if_pos rfl]
      exact roundToBlocks_pos (by have h1 := (hblock hnonneg).1; omega)
    by_cases hstr : Straddles n f.lastBlock
    · rw [missed_of_straddles hstr] at heq
      unfold space fsBlockSize at heq
      split at heq <;> omega
    · rw [missed_of_not hlast hlast' hstr] at heq
      exact absurd heq (by decide)
  · have hdrop := dropped_of_not hforgot
    refine ⟨fun h => ⟨fun ⟨hstr, haddr, hsize⟩ => ?_, hforgot⟩, fun ⟨hmiss, _⟩ seg => ?_⟩
    · have heq := h (io.params.diskAddrToSegmentNum (f.addrOf io f.lastBlock))
      rw [hdrop, missed_of_straddles hstr, space_self haddr, space_self haddr] at heq
      omega
    · rw [hdrop]
      by_cases hstr : Straddles n f.lastBlock
      · rw [missed_of_straddles hstr]
        by_cases haddr : f.addrOf io f.lastBlock = nilDiskAddr
        · rw [haddr, space_nil, space_nil, Int.sub_self]
        · by_cases hsize : sizeOf io.params f.lastByte f.lastBlock f.lastBlock = fsBlockSize
          · rw [hsize, Int.sub_self]
          · exact absurd ⟨hstr, haddr, hsize⟩ hmiss
      · exact missed_of_not hlast hlast' hstr f seg

/-- The usage array is told of what the file has less. -/
def Accounts (io : IndexIO) (f f' : FileIndex) : Prop :=
  ∀ seg, freedIn seg f'.usageCalls - freedIn seg f.usageCalls =
    occupied io seg f.lastBlock f - occupied io seg f.lastBlock f'

def NothingBehind (io : IndexIO) (f : FileIndex) : Prop :=
  ∀ d, 0 ≤ d → f.lastByte < d * fsBlockSize → d < doubleStart + indicesPerBlock * indicesPerBlock →
    f.addrOf io d = nilDiskAddr

theorem NothingBehind.endsAfter (h : NothingBehind io f) (hbyte : -1 ≤ f.lastByte)
    (hbyte' : f.lastByte < 2147483648) : EndsAfter io f.lastBlock f ∧
      (f.lastByte < 0 → f.direct f.lastBlock = nilDiskAddr) := by
  obtain ⟨hlast, -, hblock, hempty⟩ := lastBlock_spec hbyte hbyte'
  refine ⟨fun d h0 hd hd' => h d h0 ?_ hd', fun hneg => ?_⟩
  · unfold fsBlockSize at *
    by_cases hnonneg : 0 ≤ f.lastByte
    · omega
    · omega
  · rw [hempty hneg, ← addrOf_direct io f (Int.le_refl 0) (by decide)]
    exact h 0 (Int.le_refl 0) (by omega) (by decide)

theorem accounts_iff (hio : AllRead io) {f' : FileIndex} (hbyte : -1 ≤ f.lastByte)
    (hbyte' : f.lastByte < 2147483648) (hend : NothingBehind io f) {length : Int} (hlen : 0 ≤ length)
    (hfits : length ≤ 2147483648 - fsBlockSize) (hin : ¬Overruns io (blocksOf length) f.lastBlock f)
    (hrun : f.truncIndex io length = .ok (.success, f')) : Accounts io f f' ↔
      ¬FragmentMissed io (blocksOf length) f.lastBlock f ∧ ¬ChildForgotten io (blocksOf length) f.lastBlock f := by
  obtain ⟨hlast, hlast', -, -⟩ := lastBlock_spec hbyte hbyte'
  obtain ⟨hafter, hempty⟩ := hend.endsAfter hbyte hbyte'
  obtain ⟨hn, hn', -⟩ := blocksOf_nonneg hlen hfits
  obtain ⟨g, hg, hdone⟩ := truncIndex_ok hio hn hn' hlast hlast' hin
  have heq : g = f' := by
    rw [hg] at hrun
    exact (Prod.mk.inj (Except.ok.inj hrun)).2
  rw [heq] at hdone
  rw [← missed_eq_dropped_iff hbyte hbyte']
  refine forall_congr' (fun seg => ?_)
  have hfreed := hdone.freed hafter hempty seg
  omega

/-- `LfsFile_TruncIndex` frees what it removes. -/
theorem truncIndex_frees_iff {io : IndexIO} (hio : AllRead io) {f : FileIndex} (hbyte : -1 ≤ f.lastByte)
    (hbyte' : f.lastByte < 2147483648) (hend : NothingBehind io f) {length : Int} (hlen : 0 ≤ length)
    (hlen' : length < 2147483648) :
    (∃ f', f.truncIndex io length = .ok (.success, f') ∧ Accounts io f f') ↔
      length ≤ 2147483648 - fsBlockSize ∧ ¬Overruns io (blocksOf length) f.lastBlock f ∧
        ¬FragmentMissed io (blocksOf length) f.lastBlock f ∧ ¬ChildForgotten io (blocksOf length) f.lastBlock f := by
  obtain ⟨hlast, hlast', -, -⟩ := lastBlock_spec hbyte hbyte'
  constructor
  · rintro ⟨f', hrun, hacc⟩
    have hfits : length ≤ 2147483648 - fsBlockSize := by
      by_contra hlong
      obtain ⟨e, he⟩ := truncIndex_overflow io f (blocksOf_neg (by omega) hlen')
      rw [he] at hrun
      exact absurd hrun (by simp)
    have hin : ¬Overruns io (blocksOf length) f.lastBlock f := by
      intro hover
      rw [truncIndex_outside hio (blocksOf_nonneg hlen hfits).2.1 hlast' hover] at hrun
      exact absurd hrun (by simp)
    exact ⟨hfits, hin, (accounts_iff hio hbyte hbyte' hend hlen hfits hin hrun).mp hacc⟩
  · rintro ⟨hfits, hin, hsame⟩
    obtain ⟨hn, hn', -⟩ := blocksOf_nonneg hlen hfits
    obtain ⟨f', hrun, -⟩ := truncIndex_ok hio hn hn' hlast hlast' hin
    exact ⟨f', hrun, (accounts_iff hio hbyte hbyte' hend hlen hfits hin hrun).mpr hsame⟩

theorem Straddles.indexed (h : Straddles n last) : numDirectBlocks ≤ last := by
  obtain ⟨start, hs, ⟨h1, -, -⟩, -⟩ := h
  rcases hs with rfl | ⟨k, hk, -, rfl⟩
  · exact h1
  · unfold childStart indicesPerBlock at h1
    omega

/-- Segments of 2048 blocks of 512 bytes. -/
def smallBlocks : IndexIO where
  params := ⟨9, 0, 1048576, 3, 1, 1, 341, 4096⟩
  readIndex := fun _ => .ok (fun _ => nilDiskAddr)
  readData := fun _ => .success
  room := fun _ => true

theorem nothingBehind_fileOf {lastByte blocks : Int}
    (h : ∀ d, lastByte < d * fsBlockSize → blocks ≤ d) : NothingBehind io (fileOf lastByte blocks) := by
  have hdouble : (fileOf lastByte blocks).indexBlock io (-2) = none := rfl
  intro d h0 hd hd'
  have hle := h d hd
  rcases data_cases h0 hd' with hlt | ⟨i, hi, hi', rfl⟩ | ⟨k, i, hk, hk', hi, hi', rfl⟩
  · rw [addrOf_direct _ _ h0 hlt]
    exact if_neg (by omega)
  · rw [addrOf_single _ _ hi hi', indexBlock_single]
    by_cases hlong : numDirectBlocks < blocks
    · have hcache : (fileOf lastByte blocks).cache (-1) = some ⟨fun i => if 0 ≤ i ∧ numDirectBlocks + i < blocks then
          1 + numDirectBlocks + i else nilDiskAddr, false⟩ := if_pos ⟨rfl, hlong⟩
      rw [contents_of_cached hcache]
      exact if_neg (by omega)
    · have hcache : (fileOf lastByte blocks).cache (-1) = none := if_neg (fun hc => hlong hc.2)
      have hnil : (fileOf lastByte blocks).indirect 0 = nilDiskAddr := if_neg (fun hc => hlong hc.2)
      rw [hnil, contents_of_nil hcache]
      rfl
  · have hcache : (fileOf lastByte blocks).cache (childNum k) = none := if_neg (fun hc => (childNum_ne hk).2 hc.1)
    rw [addrOf_double _ _ hk hk' hi hi', ← childContents_double hk, hdouble]
    unfold childContents
    rw [show entryOf none k = nilDiskAddr from rfl, contents_of_nil hcache]
    rfl

/-- A file of two blocks and a bit is cut to its first block. -/
theorem truncIndex_frees_short : ∃ f', (fileOf 8291 3).truncIndex smallBlocks 4096 = .ok (.success, f') ∧
    Accounts smallBlocks (fileOf 8291 3) f' := by
  have hlast : (fileOf 8291 3).lastBlock = 2 := rfl
  refine (@truncIndex_frees_iff smallBlocks (fun _ _ => ⟨_, rfl⟩) (fileOf 8291 3) (by decide) (by decide)
    (nothingBehind_fileOf (fun d hd => by unfold fsBlockSize at hd; omega)) 4096 (by decide) (by decide)).mpr ⟨by decide, fun h => ?_, fun h => ?_, fun h => ?_⟩
  · exact absurd h.indexed (by rw [hlast]; decide)
  · exact absurd h.1.indexed (by rw [hlast]; decide)
  · exact absurd h.1 (by rw [hlast]; decide)

/-- A file of 21 blocks, the last of 100 bytes, is cut to 15. -/
theorem fragment_missed : ¬∃ f', (fileOf 82019 21).truncIndex smallBlocks 61440 = .ok (.success, f') ∧
    Accounts smallBlocks (fileOf 82019 21) f' := by
  have hlast : (fileOf 82019 21).lastBlock = 20 := rfl
  rintro ⟨f', hrun, hacc⟩
  have hin : ¬Overruns smallBlocks (blocksOf 61440) (fileOf 82019 21).lastBlock (fileOf 82019 21) := by
    rintro (⟨-, -, hout⟩ | ⟨k, hk, -, -, ⟨h1, -, -⟩, -⟩)
    · exact absurd hout (by decide)
    · unfold childStart numDirectBlocks indicesPerBlock at h1
      omega
  have hmiss := ((accounts_iff (fun _ _ => ⟨_, rfl⟩) (by decide) (by decide)
    (nothingBehind_fileOf (fun d hd => by unfold fsBlockSize at hd; omega)) (by decide) (by decide) hin hrun).mp hacc).1
  refine hmiss ⟨⟨numDirectBlocks, .inl rfl, by decide, by decide⟩, ?_, by decide⟩
  decide

end FileIndex

end SpriteKernel.Lfs
