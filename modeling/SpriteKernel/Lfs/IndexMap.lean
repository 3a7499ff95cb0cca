import SpriteKernel.Lfs.FileIndex
import SpriteKernel.Lfs.SegAdjust

/- The file index as a map from block numbers to disk addresses. `addrOf` is the map, through the index blocks
   wherever they are; `AccessBlock` reads and writes it. It takes the last index block, -1027, for one past the
   largest file, so the data blocks below cannot be set. -/
namespace SpriteKernel.Lfs

open Function

open SpriteKernel

namespace FileIndex

def AllRead (io : IndexIO) : Prop := ∀ a, a ≠ nilDiskAddr → ∃ e, io.readIndex a = .ok e

/-- An index block: the copy in the cache, or else what is at its address. -/
def contents (io : IndexIO) (f : FileIndex) (blockNum : Int) (diskAddr : DiskAddr) : Option BlockArray :=
  match f.cache blockNum with
  | some b => some b.entry
  | none => if diskAddr = nilDiskAddr then none else (io.readIndex diskAddr).toOption

def indexAddr (io : IndexIO) (f : FileIndex) (blockNum : Int) : DiskAddr :=
  if blockNum ≥ -numIndirectBlocks then f.indirect (-blockNum - 1)
  else entryOf (f.contents io (-2) (f.indirect 1)) (-blockNum - (numIndirectBlocks + 1))

def indexBlock (io : IndexIO) (f : FileIndex) (blockNum : Int) : Option BlockArray :=
  f.contents io blockNum (f.indexAddr io blockNum)

def addrOf (io : IndexIO) (f : FileIndex) (blockNum : Int) : DiskAddr :=
  match place blockNum with
  | .direct i => f.direct i
  | .indirect i => f.indirect i
  | .entry parentBlockNum parentIndex => entryOf (f.indexBlock io parentBlockNum) parentIndex
  | .invalid => nilDiskAddr

/-- What `LfsFile_GetIndex` returns. -/
def lookup (io : IndexIO) (f : FileIndex) (blockNum : Int) : ReturnStatus × DiskAddr :=
  ((f.getIndex io {} blockNum).1, (f.getIndex io {} blockNum).2.1)

/-! ## Places -/

variable {b k : Int}

theorem place_direct (h0 : 0 ≤ b) (h : b < numDirectBlocks) : place b = .direct b := by
  unfold place
  rw [if_neg (by omega), if_pos h]

theorem place_indirect (hneg : b < 0) (h : b ≥ -numIndirectBlocks) : place b = .indirect (-b - 1) := by
  unfold place
  rw [if_pos hneg, if_pos h]

theorem place_child (h0 : 0 ≤ k) (h : k < indicesPerBlock - 1) : place (-4 - k) = .entry (-2) k := by
  unfold place numIndirectBlocks
  rw [if_pos (by omega), if_neg (by omega), if_pos (by omega)]
  congr 1
  omega

variable {i : Int}

theorem place_single (h0 : 0 ≤ i) (h : i < indicesPerBlock) : place (numDirectBlocks + i) = .entry (-1) i := by
  unfold place numDirectBlocks
  rw [if_neg (by omega), if_neg (by omega), if_pos (by omega)]
  congr 1
  omega

theorem place_double (h0 : 0 ≤ k) (h : k < indicesPerBlock) (hi : 0 ≤ i) (hi' : i < indicesPerBlock) :
    place (numDirectBlocks + indicesPerBlock + (indicesPerBlock * k + i)) = .entry (-4 - k) i := by
  unfold place numDirectBlocks numIndirectBlocks
  unfold indicesPerBlock at *
  rw [if_neg (by omega), if_neg (by omega), if_neg (by omega), if_pos (by omega)]
  have hd : (10 + 1024 + (1024 * k + i) - 10 - 1024).tdiv 1024 = k := by
    rw [Int.tdiv_eq_ediv_of_nonneg (by omega)]
    omega
  have hm : (10 + 1024 + (1024 * k + i) - 10 - 1024).tmod 1024 = i := by
    rw [Int.tmod_eq_emod_of_nonneg (by omega)]
    omega
  congr 1
  omega

/-- What the format admits: data blocks, and index blocks down to the last one. -/
def Admitted (b : Int) : Prop :=
  -(numIndirectBlocks + indicesPerBlock) ≤ b ∧
    b < numDirectBlocks + indicesPerBlock + indicesPerBlock * indicesPerBlock

def lastIndexBlock : Int := -(numIndirectBlocks + indicesPerBlock)

theorem place_cases (h : Admitted b) :
    (0 ≤ b ∧ place b = .direct b) ∨ (b < 0 ∧ place b = .indirect (-b - 1)) ∨ b = lastIndexBlock ∨
      (∃ k, 0 ≤ k ∧ k < indicesPerBlock - 1 ∧ b = -4 - k ∧ place b = .entry (-2) k) ∨
      (∃ i, 0 ≤ i ∧ i < indicesPerBlock ∧ b = numDirectBlocks + i ∧ place b = .entry (-1) i) ∨
      ∃ k i, 0 ≤ k ∧ k < indicesPerBlock ∧ 0 ≤ i ∧ i < indicesPerBlock ∧
        b = numDirectBlocks + indicesPerBlock + (indicesPerBlock * k + i) ∧ place b = .entry (-4 - k) i := by
  obtain ⟨hlow, hhigh⟩ := h
  by_cases hneg : b < 0
  · by_cases hind : b ≥ -numIndirectBlocks
    · exact .inr (.inl ⟨hneg, place_indirect hneg hind⟩)
    · refine .inr (.inr ?_)
      by_cases hlast : b = lastIndexBlock
      · exact .inl hlast
      · unfold lastIndexBlock at hlast
        unfold numIndirectBlocks indicesPerBlock at *
        refine .inr (.inl ⟨-4 - b, by omega, by omega, by omega, ?_⟩)
        have hp := place_child (k := -4 - b) (by omega) (by unfold indicesPerBlock; omega)
        rwa [show -4 - (-4 - b) = b by omega] at hp
  · by_cases hdir : b < numDirectBlocks
    · exact .inl ⟨by omega, place_direct (by omega) hdir⟩
    · refine .inr (.inr (.inr (.inr ?_)))
      by_cases hsingle : b < numDirectBlocks + indicesPerBlock
      · refine .inl ⟨b - numDirectBlocks, by omega, by omega, by omega, ?_⟩
        have hp := place_single (i := b - numDirectBlocks) (by omega) (by omega)
        rwa [show numDirectBlocks + (b - numDirectBlocks) = b by omega] at hp
      · refine .inr ⟨(b - 1034) / 1024, (b - 1034) % 1024, ?_⟩
        unfold numDirectBlocks indicesPerBlock at *
        refine ⟨by omega, by omega, by omega, by omega, by omega, ?_⟩
        have hp := place_double (k := (b - 1034) / 1024) (i := (b - 1034) % 1024) (by omega)
          (by unfold indicesPerBlock; omega) (by omega) (by unfold indicesPerBlock; omega)
        unfold numDirectBlocks indicesPerBlock at hp
        rwa [show 10 + 1024 + (1024 * ((b - 1034) / 1024) + (b - 1034) % 1024) = b by omega] at hp

def Place.blockNum : Place → Int
  | .direct i => i
  | .indirect i => -i - 1
  | .entry parentBlockNum parentIndex =>
    if parentBlockNum = -1 then numDirectBlocks + parentIndex
    else if parentBlockNum = -2 then -4 - parentIndex
    else numDirectBlocks + indicesPerBlock + (indicesPerBlock * (-4 - parentBlockNum) + parentIndex)
  | .invalid => lastIndexBlock

theorem place_lastIndexBlock : place lastIndexBlock = .invalid := by decide

theorem blockNum_place (h : Admitted b) : (place b).blockNum = b := by
  rcases place_cases h with
    ⟨-, hp⟩ | ⟨-, hp⟩ | rfl | ⟨k, -, -, hb, hp⟩ | ⟨i, -, -, hb, hp⟩ | ⟨k, i, hk, -, -, -, hb, hp⟩
  · rw [hp]
    rfl
  · rw [hp]
    simp only [Place.blockNum]
    omega
  · rfl
  · rw [hp, hb]
    rfl
  · rw [hp, hb]
    rfl
  · rw [hp, hb]
    simp only [Place.blockNum]
    rw [if_neg (by omega), if_neg (by omega)]
    congr 3
    omega

variable {d : Int}

theorem place_inj (hb : Admitted b) (hd : Admitted d) (h : place b = place d) : b = d := by
  rw [← blockNum_place hb, ← blockNum_place hd, h]

theorem place_ne_invalid (h : Admitted b) (hb : b ≠ lastIndexBlock) : place b ≠ .invalid := by
  intro hp
  have hnum := blockNum_place h
  rw [hp] at hnum
  exact hb hnum.symm

variable {p : Int}

theorem parent_cases (h : Admitted b) (hp : place b = .entry p i) :
    p = -1 ∨ p = -2 ∨ ∃ k, 0 ≤ k ∧ k < indicesPerBlock ∧ p = -4 - k := by
  rcases place_cases h with
    ⟨-, hq⟩ | ⟨-, hq⟩ | rfl | ⟨k, -, -, -, hq⟩ | ⟨j, -, -, -, hq⟩ | ⟨k, j, hk, hk', -, -, -, hq⟩
  · simp [hq] at hp
  · simp [hq] at hp
  · simp [place_lastIndexBlock] at hp
  · rw [hq, Place.entry.injEq] at hp
    exact .inr (.inl hp.1.symm)
  · rw [hq, Place.entry.injEq] at hp
    exact .inl hp.1.symm
  · rw [hq, Place.entry.injEq] at hp
    exact .inr (.inr ⟨k, hk, hk', hp.1.symm⟩)

/-! ## Looking up -/

/-- The index block above a block cannot be looked up. -/
def Unreachable (f : FileIndex) (b : Int) : Prop :=
  b = lastIndexBlock ∨ ∃ i, place b = .entry lastIndexBlock i ∧ f.cache lastIndexBlock = none

/-- `f'` is `f` with the double indirect block perhaps read into the cache. -/
structure Loads (io : IndexIO) (f f' : FileIndex) : Prop where
  direct : f'.direct = f.direct
  indirect : f'.indirect = f.indirect
  usageCalls : f'.usageCalls = f.usageCalls
  panic : f'.panic = f.panic
  lastByte : f'.lastByte = f.lastByte
  cache : ∀ v, f'.cache v = f.cache v ∨
    v = -2 ∧ f.cache v = none ∧ ∃ e, f.indexBlock io (-2) = some e ∧ f'.cache v = some ⟨e, false⟩

theorem Loads.refl (io : IndexIO) (f : FileIndex) : Loads io f f :=
  ⟨rfl, rfl, rfl, rfl, rfl, fun _ => .inl rfl⟩

variable {io : IndexIO} {f : FileIndex} {v : Int} {a : DiskAddr}

theorem contents_of_cached {b : CachedIndex} (h : f.cache v = some b)
    (a : DiskAddr) : f.contents io v a = some b.entry := by
  unfold contents
  rw [h]

theorem contents_of_read {e : BlockArray}
    (h : f.cache v = none) (ha : a ≠ nilDiskAddr) (he : io.readIndex a = .ok e) : f.contents io v a = some e := by
  unfold contents
  rw [h]
  simp only [if_neg ha, he]
  rfl

theorem contents_of_nil (h : f.cache v = none) : f.contents io v nilDiskAddr = none := by
  unfold contents
  rw [h]
  exact if_pos rfl

variable {f' : FileIndex}

theorem contents_congr (h : f'.cache v = f.cache v) (a : DiskAddr) : f'.contents io v a = f.contents io v a := by
  unfold contents
  rw [h]

theorem indexAddr_descriptor (h : v ≥ -numIndirectBlocks) : f.indexAddr io v = f.indirect (-v - 1) := by
  exact if_pos h

theorem indexBlock_double (io : IndexIO) (f : FileIndex) :
    f.indexBlock io (-2) = f.contents io (-2) (f.indirect 1) := by
  rfl

theorem indexAddr_child (h : 0 ≤ k) : f.indexAddr io (-4 - k) = entryOf (f.indexBlock io (-2)) k := by
  unfold indexAddr
  rw [if_neg (by unfold numIndirectBlocks; omega)]
  congr 1
  unfold numIndirectBlocks
  omega

theorem Loads.indexBlock (h : Loads io f f') (v : Int) : f'.indexBlock io v = f.indexBlock io v := by
  have hdouble : f'.contents io (-2) (f'.indirect 1) = f.contents io (-2) (f.indirect 1) := by
    rcases h.cache (-2) with hc | ⟨-, -, e, he, hc⟩
    · rw [contents_congr hc, h.indirect]
    · rw [indexBlock_double] at he
      rw [he, contents_of_cached hc]
  rcases h.cache v with hc | ⟨rfl, -⟩
  · have haddr : f'.indexAddr io v = f.indexAddr io v := by
      unfold indexAddr
      rw [hdouble, h.indirect]
    unfold FileIndex.indexBlock
    rw [contents_congr hc, haddr]
  · rw [indexBlock_double, indexBlock_double, hdouble]

theorem Loads.addrOf (h : Loads io f f') (b : Int) : f'.addrOf io b = f.addrOf io b := by
  unfold FileIndex.addrOf
  rw [h.direct, h.indirect]
  split
  · rfl
  · rfl
  · rw [h.indexBlock]
  · rfl

theorem putIndex_self {b : CachedIndex} (h : f.cache v = some b) : f.putIndex v b = f := by
  unfold putIndex
  rw [← h, update_eq_self]

variable {flags : CacheFlags}

theorem not_busy (h : flags.dontBlock = false) (v : Int) : io.busy flags v = false := by
  unfold IndexIO.busy
  rw [h, Bool.false_and]

theorem access_parent (hio : AllRead io) (hflags : flags.dontBlock = false)
    (hp : p = -1 ∨ p = -2 ∨ ∃ k, 0 ≤ k ∧ k < indicesPerBlock - 1 ∧ p = -4 - k) (depth : Nat) :
    ∃ f', Loads io f f' ∧ (f.cache p = none → f'.cache p = none) ∧
      accessBlock io (depth + 1) .getAddr flags p 0 nilDiskAddr f = (.success, f.indexAddr io p, f') := by
  have hdescriptor : ∀ depth v, v < 0 → v ≥ -numIndirectBlocks →
      accessBlock io depth .getAddr flags v 0 nilDiskAddr f = (.success, f.indexAddr io v, f) := by
    intro depth v hneg hv
    unfold accessBlock
    rw [if_neg (fun h => IndexOp.noConfusion h.2), place_indirect hneg hv, indexAddr_descriptor hv]
  rcases hp with rfl | rfl | ⟨k, hk, hk', rfl⟩
  · exact ⟨f, Loads.refl io f, fun h => h, hdescriptor (depth + 1) (-1) (by decide) (by decide)⟩
  · exact ⟨f, Loads.refl io f, fun h => h, hdescriptor (depth + 1) (-2) (by decide) (by decide)⟩
  · unfold accessBlock
    rw [if_neg (fun h => IndexOp.noConfusion h.2), place_child hk hk', indexAddr_child hk, indexBlock_double]
    simp only [not_busy hflags, Bool.false_eq_true, if_false]
    cases hc : f.cache (-2) with
    | some b =>
      refine ⟨f, Loads.refl io f, fun h => h, ?_⟩
      simp only [accessEntry, putIndex_self hc, contents_of_cached hc, entryOf]
    | none =>
      have haddr := hdescriptor depth (-2) (by decide) (by decide)
      rw [indexAddr_descriptor (by decide), show (- -2 - 1 : Int) = 1 from rfl] at haddr
      simp only [haddr, ne_eq, not_true_eq_false, if_false]
      by_cases hnil : f.indirect 1 = nilDiskAddr
      · rw [if_pos hnil, hnil, contents_of_nil hc]
        exact ⟨f, Loads.refl io f, fun h => h, rfl⟩
      · obtain ⟨e, he⟩ := hio _ hnil
        rw [if_neg hnil, contents_of_read hc hnil he]
        simp only [he]
        refine ⟨f.putIndex (-2) ⟨e, false⟩, ⟨rfl, rfl, rfl, rfl, rfl, fun v => ?_⟩, fun h => ?_, rfl⟩
        · by_cases hv : v = -2
          · rw [hv]
            refine .inr ⟨rfl, hc, e, ?_, ?_⟩
            · rw [indexBlock_double, contents_of_read hc hnil he]
            · rw [putIndex_cache_self]
          · exact .inl (putIndex_cache_of_ne hv _ _)
        · rw [putIndex_cache_of_ne (by omega)]
          exact h

/-- A reachable block not in the descriptor has its index block cached, or its address can be looked up. -/
theorem reachable_parent (h : Admitted b) (hb : ¬Unreachable f b)
    (hp : place b = .entry p i) (hc : f.cache p = none) :
    p = -1 ∨ p = -2 ∨ ∃ k, 0 ≤ k ∧ k < indicesPerBlock - 1 ∧ p = -4 - k := by
  rcases parent_cases h hp with hp' | hp' | ⟨k, hk, hk', rfl⟩
  · exact .inl hp'
  · exact .inr (.inl hp')
  · refine .inr (.inr ⟨k, hk, ?_, rfl⟩)
    by_contra hlast
    have heq : -4 - k = lastIndexBlock := by
      unfold lastIndexBlock numIndirectBlocks
      omega
    exact hb (.inr ⟨i, by rw [hp, heq], by rw [← heq]; exact hc⟩)

theorem lookup_of_reachable (hio : AllRead io) (h : Admitted b)
    (hb : ¬Unreachable f b) : f.lookup io b = (.success, f.addrOf io b) := by
  have hinvalid := place_ne_invalid h (fun hlast => hb (.inl hlast))
  unfold lookup getIndex accessBlock addrOf
  rw [if_neg (fun h => IndexOp.noConfusion h.2)]
  cases hp : place b with
  | direct i => rfl
  | indirect i => rfl
  | invalid => exact absurd hp hinvalid
  | entry p i =>
    simp only [not_busy (show CacheFlags.dontBlock {} = false from rfl), Bool.false_eq_true, if_false]
    cases hc : f.cache p with
    | some c =>
      unfold indexBlock
      rw [contents_of_cached hc]
      rfl
    | none =>
      obtain ⟨f', hl, hc', hacc⟩ := access_parent hio (show CacheFlags.dontBlock {} = false from rfl) (f := f) (reachable_parent h hb hp hc) 0
      simp only [hacc, ne_eq, not_true_eq_false, if_false]
      unfold indexBlock
      by_cases hnil : f.indexAddr io p = nilDiskAddr
      · rw [if_pos hnil, hnil, contents_of_nil hc]
        rfl
      · obtain ⟨e, he⟩ := hio _ hnil
        rw [if_neg hnil, contents_of_read hc hnil he]
        simp only [he]
        rfl

theorem access_unreachable {op : IndexOp} (hop : op ≠ .growAddr) (hflags : flags.dontBlock = false) (hb : Unreachable f b) (size : Int) (a : DiskAddr) :
    accessBlock io 2 op flags b size a f = (.fsInvalidArg, a, f) := by
  have hlast : ∀ depth, accessBlock io depth .getAddr flags lastIndexBlock 0 nilDiskAddr f =
      (.fsInvalidArg, nilDiskAddr, f) := by
    intro depth
    unfold accessBlock
    rw [if_neg (fun h => IndexOp.noConfusion h.2), place_lastIndexBlock]
  unfold accessBlock
  rw [if_neg (fun h => hop h.2)]
  rcases hb with rfl | ⟨i, hp, hc⟩
  · rw [place_lastIndexBlock]
  · rw [hp]
    simp only [not_busy hflags, Bool.false_eq_true, if_false, hc, hlast]
    rfl

theorem lookup_of_unreachable (hb : Unreachable f b) : f.lookup io b = (.fsInvalidArg, nilDiskAddr) := by
  unfold lookup getIndex
  rw [access_unreachable (fun h => IndexOp.noConfusion h) rfl hb]

/-! ## Storing -/

/-- The address of a block is stored, in an index block that is made where there is none. -/
def storeAddr (io : IndexIO) (b : Int) (a : DiskAddr) (f : FileIndex) : FileIndex :=
  match place b with
  | .direct i => f.setDirect i a
  | .indirect i => f.setIndirect i a
  | .entry p i => f.putIndex p ⟨update ((f.indexBlock io p).getD (fun _ => nilDiskAddr)) i a, true⟩
  | .invalid => f

theorem indexBlock_callUsage (io : IndexIO) (calls : List UsageCall) (f : FileIndex) (v : Int) :
    (f.callUsage calls).indexBlock io v = f.indexBlock io v := rfl

theorem callUsage_nil (f : FileIndex) : f.callUsage [] = f := by
  unfold callUsage
  rw [List.append_nil]

theorem entryOf_getD (e : Option BlockArray) (i : Int) : e.getD (fun _ => nilDiskAddr) i = entryOf e i := by
  cases e <;> rfl

theorem access_set (hio : AllRead io) (hflags : flags.dontBlock = false)
    (h : Admitted b) (hb : ¬Unreachable f b) (size : Int) (a : DiskAddr) :
    ∃ f', Loads io f f' ∧ (∀ p i, place b = .entry p i → f.cache p = none → f'.cache p = none) ∧
      accessBlock io 2 .setAddr flags b size a f = (.success, a,
        (f'.callUsage (segUsageFree io.params size (f.addrOf io b))).storeAddr io b a) := by
  have hinvalid := place_ne_invalid h (fun hlast => hb (.inl hlast))
  unfold accessBlock addrOf storeAddr
  rw [if_neg (fun h => IndexOp.noConfusion h.2)]
  cases hp : place b with
  | direct i => exact ⟨f, Loads.refl io f, fun _ _ _ hc => hc, rfl⟩
  | indirect i => exact ⟨f, Loads.refl io f, fun _ _ _ hc => hc, rfl⟩
  | invalid => exact absurd hp hinvalid
  | entry p i =>
    simp only [not_busy hflags, Bool.false_eq_true, if_false, Place.entry.injEq, indexBlock_callUsage]
    cases hc : f.cache p with
    | some c =>
      have hblock : f.indexBlock io p = some c.entry := contents_of_cached hc _
      refine ⟨f, Loads.refl io f, fun _ _ _ hc => hc, ?_⟩
      rw [hblock]
      rfl
    | none =>
      obtain ⟨f', hl, hc', hacc⟩ := access_parent hio hflags (f := f) (reachable_parent h hb hp hc) 0
      have hnone : ∀ q j, p = q ∧ i = j → f.cache q = none → f'.cache q = none := fun q _ hq hcq => by
        obtain ⟨rfl, -⟩ := hq
        exact hc' hcq
      refine ⟨f', hl, hnone, ?_⟩
      simp only [hacc, ne_eq, not_true_eq_false, if_false, hl.indexBlock]
      unfold indexBlock
      by_cases hnil : f.indexAddr io p = nilDiskAddr
      · rw [if_pos hnil, hnil, contents_of_nil hc]
        simp only [entryOf, segUsageFree, if_true, callUsage_nil, Option.getD_none]
      · obtain ⟨e, he⟩ := hio _ hnil
        rw [if_neg hnil, contents_of_read hc hnil he]
        simp only [he]
        rfl

theorem storeAddr_cache (io : IndexIO) {q : Int} (h : ∀ i, place b ≠ .entry q i) (a : DiskAddr) (f : FileIndex) :
    (f.storeAddr io b a).cache q = f.cache q := by
  unfold storeAddr
  split
  · rfl
  · rfl
  · next p i hp =>
    refine putIndex_cache_of_ne (fun he => ?_) _ _
    rw [← he] at hp
    exact h i hp
  · rfl

theorem storeAddr_indirect (io : IndexIO) (hb : Admitted b) (hne : v ≠ b) (a : DiskAddr)
    (f : FileIndex) : (f.storeAddr io b a).indirect (-v - 1) = f.indirect (-v - 1) := by
  have hnum := blockNum_place hb
  unfold storeAddr
  split
  · rfl
  · next i hp =>
    rw [hp] at hnum
    simp only [Place.blockNum] at hnum
    exact update_of_ne (by omega) _ _
  · rfl
  · rfl

theorem storeAddr_entry (hp : place b = .entry p i) (a : DiskAddr) (f : FileIndex) :
    (f.storeAddr io b a).indexBlock io p =
      some (update ((f.indexBlock io p).getD (fun _ => nilDiskAddr)) i a) := by
  unfold storeAddr
  rw [hp]
  exact contents_of_cached (putIndex_cache_self _ _ _) _

/-- The other index blocks stay, unless read from where the block is that is given a new address. -/
theorem storeAddr_indexBlock {q : Int} (hb : Admitted b)
    (hp : ∀ i, place b ≠ .entry q i)
    (hread : f.cache q = none → (q = -1 ∨ q = -2 ∨ ∃ k, 0 ≤ k ∧ k < indicesPerBlock - 1 ∧ q = -4 - k) ∧ q ≠ b ∧
      ¬∃ j, place q = .entry b j ∧ f.cache b = none) (a : DiskAddr) :
    (f.storeAddr io b a).indexBlock io q = f.indexBlock io q := by
  have hcache := storeAddr_cache io hp a f
  cases hc : f.cache q with
  | some c =>
    rw [hc] at hcache
    unfold indexBlock
    rw [contents_of_cached hcache, contents_of_cached hc]
  | none =>
    obtain ⟨hq, hne, hdisk⟩ := hread hc
    have haddr : (f.storeAddr io b a).indexAddr io q = f.indexAddr io q := by
      rcases hq with rfl | rfl | ⟨k, hk, hk', rfl⟩
      · rw [indexAddr_descriptor (by decide), indexAddr_descriptor (by decide)]
        exact storeAddr_indirect io hb hne a f
      · rw [indexAddr_descriptor (by decide), indexAddr_descriptor (by decide)]
        exact storeAddr_indirect io hb hne a f
      · rw [indexAddr_child hk, indexAddr_child hk]
        by_cases hchild : ∃ i, place b = .entry (-2) i
        · -- another entry of the double indirect block
          obtain ⟨i, hi⟩ := hchild
          have hik : k ≠ i := by
            intro he
            have hnum := blockNum_place hb
            rw [hi, ← he] at hnum
            exact hne hnum
          rw [storeAddr_entry hi]
          simp only [entryOf, update_of_ne hik]
          exact entryOf_getD _ _
        · have hp' : ∀ i, place b ≠ .entry (-2) i := fun i hi => hchild ⟨i, hi⟩
          have hcache' := storeAddr_cache io hp' a f
          congr 1
          rw [indexBlock_double, indexBlock_double]
          cases hc' : f.cache (-2) with
          | some c =>
            rw [hc'] at hcache'
            rw [contents_of_cached hcache', contents_of_cached hc']
          | none =>
            have hne' : (-2 : Int) ≠ b := fun he => hdisk ⟨k, by rw [← he]; exact place_child hk hk', by rw [← he]; exact hc'⟩
            rw [contents_congr hcache']
            congr 1
            exact storeAddr_indirect io hb hne' a f
    unfold indexBlock
    rw [contents_congr hcache, haddr]

/-- The lookup of `d` reads the index block `b` from the disk. -/
def ReadsFromDisk (f : FileIndex) (d b : Int) : Prop :=
  ∃ p i, place d = .entry p i ∧ f.cache p = none ∧ (p = b ∨ ∃ j, place p = .entry b j ∧ f.cache b = none)

theorem storeAddr_self (h : Admitted b) (hb : b ≠ lastIndexBlock) (a : DiskAddr)
    (f : FileIndex) : (f.storeAddr io b a).addrOf io b = a := by
  have hinvalid := place_ne_invalid h hb
  unfold addrOf
  cases hp : place b with
  | direct i =>
    unfold storeAddr
    rw [hp]
    exact update_self _ _ _
  | indirect i =>
    unfold storeAddr
    rw [hp]
    exact update_self _ _ _
  | entry p i =>
    simp only [storeAddr_entry hp, entryOf, update_self]
  | invalid => exact absurd hp hinvalid

theorem storeAddr_other (hb : Admitted b) (hd : Admitted d) (hne : d ≠ b)
    (hreach : ¬Unreachable f d) (hdisk : ¬ReadsFromDisk f d b) (a : DiskAddr) :
    (f.storeAddr io b a).addrOf io d = f.addrOf io d := by
  have hplace : place d ≠ place b := fun h => hne (place_inj hd hb h)
  unfold addrOf
  cases hp : place d with
  | direct j =>
    unfold storeAddr
    cases hq : place b with
    | direct i =>
      have hij : j ≠ i := fun he => hplace (by rw [hp, hq, he])
      exact update_of_ne hij _ _
    | indirect i => rfl
    | entry p i => rfl
    | invalid => rfl
  | indirect j =>
    have hnum := blockNum_place hd
    rw [hp] at hnum
    simp only [Place.blockNum] at hnum
    have hstore := storeAddr_indirect io hb hne a f
    rwa [show -d - 1 = j by omega] at hstore
  | entry q j =>
    simp only
    by_cases hsame : ∃ i, place b = .entry q i
    · obtain ⟨i, hi⟩ := hsame
      have hij : j ≠ i := fun he => hplace (by rw [hp, hi, he])
      rw [storeAddr_entry hi]
      simp only [entryOf, update_of_ne hij]
      exact entryOf_getD _ _
    · rw [storeAddr_indexBlock hb (fun i hi => hsame ⟨i, hi⟩) (fun hc => ⟨reachable_parent hd hreach hp hc,
        fun he => hdisk ⟨q, j, hp, hc, .inl he⟩, fun ⟨k, hk, hcb⟩ => hdisk ⟨q, j, hp, hc, .inr ⟨k, hk, hcb⟩⟩⟩)]
  | invalid => rfl

/-! ## The map -/

theorem Loads.unreachable (h : Loads io f f') (d : Int) : Unreachable f' d ↔ Unreachable f d := by
  have hlast : f'.cache lastIndexBlock = f.cache lastIndexBlock :=
    (h.cache lastIndexBlock).resolve_right (fun hc => absurd hc.1 (by decide))
  unfold Unreachable
  rw [hlast]

theorem Loads.readsFromDisk (h : Loads io f f') (hr : ReadsFromDisk f' d b) : ReadsFromDisk f d b := by
  have hnone : ∀ v, f'.cache v = none → f.cache v = none := by
    intro v hv
    rcases h.cache v with hc | ⟨-, -, e, -, hc⟩
    · rw [← hc]
      exact hv
    · rw [hv] at hc
      exact absurd hc (by simp)
  obtain ⟨p, i, hp, hc, hb⟩ := hr
  exact ⟨p, i, hp, hnone p hc, hb.imp id (fun ⟨j, hj, hcb⟩ => ⟨j, hj, hnone b hcb⟩)⟩

theorem storeAddr_unreachable (io : IndexIO) (hb : ¬Unreachable f b) (a : DiskAddr) (d : Int) :
    Unreachable (f.storeAddr io b a) d ↔ Unreachable f d := by
  have hlast : (f.storeAddr io b a).cache lastIndexBlock = none ↔ f.cache lastIndexBlock = none := by
    by_cases hp : ∃ i, place b = .entry lastIndexBlock i
    · obtain ⟨i, hi⟩ := hp
      refine iff_of_false (fun hc => ?_) (fun hc => hb (.inr ⟨i, hi, hc⟩))
      unfold storeAddr at hc
      rw [hi] at hc
      exact absurd hc (by simp)
    · rw [storeAddr_cache io (fun i hi => hp ⟨i, hi⟩)]
  unfold Unreachable
  rw [hlast]

def ValidAddr (p : SuperBlock) (a : DiskAddr) : Prop :=
  a = nilDiskAddr ∨ p.validSegmentNum (p.diskAddrToSegmentNum a)

instance (p : SuperBlock) (a : DiskAddr) : Decidable (ValidAddr p a) := inferInstanceAs (Decidable (_ ∨ _))

/-- The calls made for freed blocks, made to the usage array. -/
def setUsages (calls : List UsageCall) (u : SegUsage) : SegUsage :=
  calls.foldl (fun u c => u.setSegUsage c.segNumber c.activeBytes) u

/-- The segment of a block that dies, counted in it, loses `size` active bytes in the block's calls. -/
def LosesExactly (p : SuperBlock) (size : Int) (a : DiskAddr) : Prop :=
  ∀ u : SegUsage, a ≠ nilDiskAddr → u.params.validSegmentNum (p.diskAddrToSegmentNum a) →
    (u.entry (p.diskAddrToSegmentNum a)).clean = false → size ≤ u.active (p.diskAddrToSegmentNum a) →
    u.HoldsNoBlock (p.diskAddrToSegmentNum a) →
    (setUsages (segUsageFree p size a) u).active (p.diskAddrToSegmentNum a) =
      u.active (p.diskAddrToSegmentNum a) - size

theorem losesExactly (p : SuperBlock) (size : Int) (a : DiskAddr) : LosesExactly p size a := by
  intro u ha hv hc hsize hblocks
  unfold setUsages segUsageFree
  rw [if_neg ha]
  have hset := SegUsage.setSegUsage_active (n := -size) hv hc (by omega) hblocks
  simp only [List.foldl_cons, List.foldl_nil]
  omega

/-- `f'` is `f` with the address of `b` set: other data blocks stay, unless found through `b` on the disk; `size`
    bytes are dead. -/
structure Updates (io : IndexIO) (b size : Int) (a : DiskAddr) (f f' : FileIndex) : Prop where
  set : f'.lookup io b = (.success, a)
  others : ∀ d, 0 ≤ d → Admitted d → d ≠ b → ¬ReadsFromDisk f d b → f'.lookup io d = f.lookup io d
  calls : f'.usageCalls = f.usageCalls ++ segUsageFree io.params size (f.addrOf io b)
  loses : LosesExactly io.params size (f.addrOf io b)
  panic : f'.panic = f.panic

theorem updates_setIndex (hio : AllRead io) (hflags : flags.dontBlock = false)
    (h : Admitted b) (hb : ¬Unreachable f b) (size : Int)
    (ha : ValidAddr io.params a) : (f.setIndex io flags b size a).1 = .success ∧
      Updates io b size a f (f.setIndex io flags b size a).2 := by
  obtain ⟨f', hl, hc, hacc⟩ := access_set hio hflags h hb size a
  unfold setIndex
  rw [if_neg (fun hbad => ha.elim hbad.1 hbad.2), hacc]
  -- the usage calls are no part of the map
  generalize hg : f'.callUsage (segUsageFree io.params size (f.addrOf io b)) = g
  have hlg : Loads io { f with usageCalls := g.usageCalls } g := by
    rw [← hg]
    exact ⟨hl.direct, hl.indirect, rfl, hl.panic, hl.lastByte, hl.cache⟩
  have hcalls : g.usageCalls = f.usageCalls ++ segUsageFree io.params size (f.addrOf io b) := by
    rw [← hg, ← hl.usageCalls]
    rfl
  have hbg : ¬Unreachable g b := fun hbad => hb ((hlg.unreachable b).mp hbad)
  have hstore := storeAddr_unreachable io hbg a
  refine ⟨rfl, ?_, fun d hd0 hd hne hdisk => ?_, ?_, losesExactly _ _ _, ?_⟩
  · rw [lookup_of_reachable hio h (fun hbad => hbg ((hstore b).mp hbad)),
      storeAddr_self h (fun hlast => hb (.inl hlast))]
  · by_cases hreach : Unreachable f d
    · have hgd : Unreachable g d := (hlg.unreachable d).mpr hreach
      rw [lookup_of_unreachable hreach, lookup_of_unreachable ((hstore d).mpr hgd)]
    · have hgd : ¬Unreachable g d := fun hbad => hreach ((hlg.unreachable d).mp hbad)
      rw [lookup_of_reachable hio hd hreach, lookup_of_reachable hio hd (fun hbad => hgd ((hstore d).mp hbad)),
        storeAddr_other h hd hne hgd (fun hbad => hdisk (hlg.readsFromDisk hbad)), hlg.addrOf]
      rfl
  · rw [← hcalls]
    unfold storeAddr
    split <;> rfl
  · have hpanic : g.panic = f.panic := hlg.panic
    rw [← hpanic]
    unfold storeAddr
    split <;> rfl

/-- `LfsFile_SetIndex` succeeds, and updates the map, for disk addresses and reachable blocks. -/
theorem setIndex_iff {io : IndexIO} (hio : AllRead io) {flags : CacheFlags} (hflags : flags.dontBlock = false)
    {f : FileIndex} {b : Int} (h : Admitted b) (size : Int) (a : DiskAddr) :
    ((f.setIndex io flags b size a).1 = .success ∧ Updates io b size a f (f.setIndex io flags b size a).2) ↔
      ValidAddr io.params a ∧ ¬Unreachable f b := by
  refine ⟨fun ⟨hs, _⟩ => ⟨?_, fun hb => ?_⟩, fun ⟨ha, hb⟩ => ?_⟩
  · by_contra ha
    unfold ValidAddr at ha
    rw [not_or] at ha
    unfold setIndex at hs
    rw [if_pos ha] at hs
    exact ReturnStatus.noConfusion hs
  · unfold setIndex at hs
    rw [access_unreachable (fun h => IndexOp.noConfusion h) hflags hb] at hs
    split at hs
    · exact ReturnStatus.noConfusion hs
    · exact ReturnStatus.noConfusion hs
  · exact updates_setIndex hio hflags h hb size ha

/-- Data blocks with the sizes that die and their addresses, the last one set first in the list. -/
def setIndexes (io : IndexIO) (flags : CacheFlags) (f : FileIndex) : List (Int × Int × DiskAddr) → Option FileIndex
  | [] => some f
  | w :: ws => (setIndexes io flags f ws).bind fun g =>
    let r := g.setIndex io flags w.1 w.2.1 w.2.2
    if r.1 = .success then some r.2 else none

theorem not_readsFromDisk {d : Int} (hd : Admitted d) (h0 : 0 ≤ b) : ¬ReadsFromDisk f d b := by
  have hneg : ∀ {q p j}, Admitted q → place q = .entry p j → p < 0 ∧ Admitted p := fun hq hp => by
    have hcases := parent_cases hq hp
    unfold Admitted numDirectBlocks numIndirectBlocks indicesPerBlock at *
    rcases hcases with rfl | rfl | ⟨k, hk, hk', rfl⟩ <;> omega
  rintro ⟨p, i, hp, -, rfl | ⟨j, hj, -⟩⟩
  · exact absurd (hneg hd hp).1 (by omega)
  · exact absurd (hneg (hneg hd hp).2 hj).1 (by omega)

/-- A file system of three segments, on which every index block is empty. -/
def emptyDisk : IndexIO where
  params := ⟨12, 0, 16384, 3, 1, 1, 341, 4096⟩
  readIndex := fun _ => .ok (fun _ => nilDiskAddr)
  readData := fun _ => .success
  room := fun _ => true

/-- A file without blocks. -/
def emptyFile : FileIndex where
  lastByte := -1
  isDirectory := false
  direct := fun _ => nilDiskAddr
  indirect := fun _ => nilDiskAddr
  indexDirty := false
  cache := fun _ => none
  data := fun _ => none
  usageCalls := []

/-- A block far out is set where there are no index blocks yet. -/
theorem setIndex_double : (emptyFile.setIndex emptyDisk { cantBlock := true } 2000 4096 7).2.lookup emptyDisk 2000 =
    (.success, 7) :=
  ((@setIndex_iff emptyDisk (fun _ _ => ⟨_, rfl⟩) { cantBlock := true } rfl emptyFile 2000
    (by unfold Admitted; decide) 4096 7).mpr
    ⟨by decide, fun h => h.elim (by decide) (fun ⟨i, hi, _⟩ => absurd (Place.entry.inj hi).1 (by decide))⟩).2.set

/-- The first block below the last index block. -/
theorem last_index_block : Admitted 1048586 ∧
    (emptyFile.setIndex emptyDisk { cantBlock := true } 1048586 4096 7).1 = .fsInvalidArg := by
  unfold Admitted
  decide

end FileIndex

end SpriteKernel.Lfs
