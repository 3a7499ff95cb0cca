import SpriteKernel.Lfs.IndexMap

/- Truncating the file index: `LfsFile_TruncIndex` deletes what is behind the new end, in the double indirect block,
   the indirect block and the descriptor. The entries from the new end on become nil, the others stay, and the usage
   array is told of so many bytes a segment. -/
namespace SpriteKernel.Lfs

open Function List

open SpriteKernel

namespace FileIndex

/-! ## Bytes in a segment -/

/-- What a block at `a` takes of the segment. -/
def space (p : SuperBlock) (seg size : Int) (a : DiskAddr) : Int :=
  if a ≠ nilDiskAddr ∧ p.diskAddrToSegmentNum a = seg then size else 0

/-- The bytes of the segment that the calls say are dead. -/
def freedIn (seg : Int) (calls : List UsageCall) : Int :=
  (calls.map (fun c => if c.segNumber = seg then -c.activeBytes else 0)).sum

/-- What the blocks in an array take, where the block of entry `i` has `size i` bytes. -/
def arraySpace (p : SuperBlock) (seg : Int) (size : Int → Int) (limit : Nat) (a : BlockArray) : Int :=
  (Finset.range limit).sum (fun i => space p seg (size i) (a i))

@[simp] theorem space_nil (p : SuperBlock) (seg size : Int) : space p seg size nilDiskAddr = 0 := by
  exact if_neg (fun h => h.1 rfl)

theorem freedIn_append (seg : Int) (l m : List UsageCall) : freedIn seg (l ++ m) = freedIn seg l + freedIn seg m := by
  unfold freedIn
  rw [map_append, sum_append]

theorem freedIn_free (p : SuperBlock) (seg size : Int) (a : DiskAddr) :
    freedIn seg (segUsageFree p size a) = space p seg size a := by
  unfold freedIn segUsageFree space
  by_cases ha : a = nilDiskAddr
  · rw [if_pos ha, if_neg (fun h => h.1 ha)]
    rfl
  · rw [if_neg ha]
    by_cases hseg : p.diskAddrToSegmentNum a = seg
    · rw [if_pos ⟨ha, hseg⟩]
      simp [hseg]
    · simp [hseg]

variable {p : SuperBlock} {limit : Nat} {i seg : Int}

theorem arraySpace_update {size : Int → Int} (hi : 0 ≤ i ∧ i < limit) (a : BlockArray) (x : DiskAddr) :
    arraySpace p seg size limit (update a i x) =
      arraySpace p seg size limit a + (space p seg (size i) x - space p seg (size i) (a i)) := by
  have hsum := Tally.sum_range_change (f := fun j => space p seg (size j) (a j))
    (g := fun j => space p seg (size j) (update a i x j)) hi
    (fun j hj => by rw [update_of_ne hj])
  simp only [update_self] at hsum
  exact hsum

theorem arraySpace_size (p : SuperBlock) (seg : Int) (size size' : Int → Int) (hi : 0 ≤ i ∧ i < limit) (h : ∀ j, j ≠ i → size' j = size j) (a : BlockArray) :
    arraySpace p seg size' limit a =
      arraySpace p seg size limit a + (space p seg (size' i) (a i) - space p seg (size i) (a i)) :=
  Tally.sum_range_change (f := fun j => space p seg (size j) (a j)) (g := fun j => space p seg (size' j) (a j)) hi
    (fun j hj => by rw [h j hj])

theorem arraySpace_congr {size size' : Int → Int} {a a' : BlockArray}
    (h : ∀ i : Int, 0 ≤ i → i < limit → size' i = size i ∧ a' i = a i) :
    arraySpace p seg size' limit a' = arraySpace p seg size limit a := by
  refine Finset.sum_congr rfl (fun i hi => ?_)
  obtain ⟨hs, ha⟩ := h i (by omega) (by have := Finset.mem_range.mp hi; omega)
  rw [hs, ha]

/-! ## Freeing entries -/

/-- The entries from `first` on are nil. -/
def cleared (first limit : Int) (a : BlockArray) : BlockArray :=
  fun i => if first ≤ i ∧ i < limit then nilDiskAddr else a i

variable {first : Int}

theorem cleared_of_le {limit : Int} (h : first ≤ i) (hi : i < limit) (a : BlockArray) :
    cleared first limit a i = nilDiskAddr := if_pos ⟨h, hi⟩

theorem cleared_of_lt {limit : Int} (h : i < first) (a : BlockArray) : cleared first limit a i = a i :=
  if_neg (fun hc => absurd hc.1 (by omega))

theorem cleared_update {limit : Int} (h : first ≤ i) (hi : i < limit) (a : BlockArray) :
    cleared first limit (update a i nilDiskAddr) = cleared first limit a := by
  funext j
  unfold cleared
  by_cases hj : j = i
  · rw [hj, if_pos ⟨h, hi⟩, if_pos ⟨h, hi⟩]
  · rw [update_of_ne hj]

theorem segUsageFreeBlocks_tail (p : SuperBlock) (size : Int) (len : Nat) (h0 : 0 ≤ first) (hlen : first + len = limit) (a : BlockArray) :
    ∃ calls, segUsageFreeBlocks p limit size len first a = .ok (cleared first limit a, calls) ∧
      ∀ seg, freedIn seg calls = arraySpace p seg (fun _ => size) limit a -
        arraySpace p seg (fun _ => size) limit (cleared first limit a) := by
  induction len generalizing first a with
  | zero =>
    have hnone : cleared first limit a = a := by
      funext i
      exact if_neg (fun h => absurd h.2 (by omega))
    refine ⟨[], ?_, fun seg => ?_⟩
    · rw [hnone]
      rfl
    · rw [hnone, sub_self]
      rfl
  | succ len ih =>
    have hfirst : 0 ≤ first ∧ first < limit := by
      omega
    obtain ⟨calls, hrest, hfreed⟩ := @ih (first + 1) (by omega) (by push_cast at hlen; omega)
      (update a first nilDiskAddr)
    have hcleared : cleared (first + 1) limit (update a first nilDiskAddr) = cleared first limit a := by
      funext i
      by_cases hi : i = first
      · rw [hi, cleared_of_lt (by omega), update_self, cleared_of_le (Int.le_refl _) hfirst.2]
      · unfold cleared
        rw [update_of_ne hi]
        by_cases hin : first ≤ i ∧ i < limit
        · rw [if_pos hin, if_pos ⟨by omega, hin.2⟩]
        · rw [if_neg hin, if_neg (fun h => hin ⟨by omega, h.2⟩)]
    rw [hcleared] at hrest hfreed
    refine ⟨segUsageFree p size (a first) ++ calls, ?_, fun seg => ?_⟩
    · unfold segUsageFreeBlocks
      rw [if_pos hfirst, hrest]
      rfl
    · rw [freedIn_append, freedIn_free, hfreed, arraySpace_update hfirst, space_nil]
      omega

theorem segUsageFreeBlocks_one {limit size : Int} (h : 0 ≤ i ∧ i < limit) (a : BlockArray) :
    segUsageFreeBlocks p limit size 1 i a = .ok (update a i nilDiskAddr, segUsageFree p size (a i)) := by
  unfold segUsageFreeBlocks segUsageFreeBlocks
  rw [if_pos h]
  change Except.ok (_, segUsageFree p size (a i) ++ []) = _
  rw [append_nil]

theorem segUsageFreeBlocks_outside {limit size i : Int} (h : ¬(0 ≤ i ∧ i < limit)) (len : Nat)
    (a : BlockArray) : segUsageFreeBlocks p limit size (len + 1) i a = .error .outOfBounds := by
  exact if_neg h

/-! ## An index block of data blocks -/

/-- What data block `b` takes on disk: the last one may be a fragment. -/
def sizeOf (p : SuperBlock) (lastByte lastByteBlock b : Int) : Int :=
  if b = lastByteBlock then roundToBlocks p (lastByte - lastByteBlock * fsBlockSize + 1) else fsBlockSize

/-- The last block of the file is one of those below an index block, and is deleted. -/
def Hits (startBlockNum lastBlockNum lastByteBlock : Int) : Prop :=
  lastByteBlock ≥ startBlockNum ∧ lastByteBlock < startBlockNum + indicesPerBlock ∧ lastByteBlock ≥ lastBlockNum

instance (s n b : Int) : Decidable (Hits s n b) := inferInstanceAs (Decidable (_ ∧ _ ∧ _))

/-- Where its entry is looked for: past it by the entry the cut is at. -/
def fragElement (startBlockNum lastBlockNum lastByteBlock : Int) : Int :=
  max (lastBlockNum - startBlockNum) 0 + (lastByteBlock - startBlockNum)

/-- What the usage array is told too much, where that is not its entry. -/
def misfreed (p : SuperBlock) (seg lastByte startBlockNum lastBlockNum lastByteBlock : Int) (a : DiskAddr) : Int :=
  if Hits startBlockNum lastBlockNum lastByteBlock ∧ startBlockNum < lastBlockNum then
    space p seg fsBlockSize a - space p seg (sizeOf p lastByte lastByteBlock lastByteBlock) a
  else 0

variable {start n last : Int}

theorem deleteEntries_outside {lastByte : Int} (hhit : Hits start n last)
    (hout : indicesPerBlock ≤ fragElement start n last) (a : BlockArray) :
    deleteEntries p lastByte start n last (max (n - start) 0) a = .error .outOfBounds := by
  unfold fragElement at hout
  have hout' := @segUsageFreeBlocks_outside p indicesPerBlock
    (roundToBlocks p (lastByte - last * fsBlockSize + 1)) (max (n - start) 0 + (last - start))
    (fun h => by omega) 0 a
  unfold Hits at hhit
  simp only [deleteEntries, if_pos hhit, hout', Except.bind, bind]

theorem deleteEntries_ok (p : SuperBlock) (lastByte : Int) (hn : n - start ≤ indicesPerBlock)
    (hin : Hits start n last → fragElement start n last < indicesPerBlock) (a : BlockArray) :
    ∃ calls, deleteEntries p lastByte start n last (max (n - start) 0) a =
        .ok (cleared (max (n - start) 0) indicesPerBlock a, calls) ∧
      ∀ seg, (Hits start n last → start < n → a (fragElement start n last) = nilDiskAddr) →
        freedIn seg calls = arraySpace p seg (fun i => sizeOf p lastByte last (start + i)) 1024 a -
          arraySpace p seg (fun i => sizeOf p lastByte last (start + i)) 1024
            (cleared (max (n - start) 0) indicesPerBlock a) +
          misfreed p seg lastByte start n last (a (last - start)) := by
  have hlimit : indicesPerBlock = ((1024 : Nat) : Int) := rfl
  have hs : (max (n - start) 0) + ((indicesPerBlock - max (n - start) 0).toNat : Int) = ((1024 : Nat) : Int) := by
    omega
  have hs0 : 0 ≤ max (n - start) 0 := by omega
  have hsn : max (n - start) 0 = 0 ∧ ¬start < n ∨ max (n - start) 0 = n - start ∧ start < n := by omega
  unfold fragElement at hin ⊢
  generalize max (n - start) 0 = s at hs hs0 hin hsn ⊢
  -- all blocks but the last have one size
  have hsize : ∀ i, start + i ≠ last → sizeOf p lastByte last (start + i) = fsBlockSize := fun i hi => if_neg hi
  have hwhole : ∀ seg b, (∀ i : Int, 0 ≤ i → i < 1024 → start + i = last → b i = nilDiskAddr) →
      arraySpace p seg (fun i => sizeOf p lastByte last (start + i)) 1024 b =
        arraySpace p seg (fun _ => fsBlockSize) 1024 b := by
    intro seg b hb
    refine Finset.sum_congr rfl (fun i hi => ?_)
    have hi' := Finset.mem_range.mp hi
    by_cases he : start + (i : Int) = last
    · rw [hb i (by omega) (by omega) he, space_nil, space_nil]
    · simp only [hsize _ he]
  by_cases hhit : Hits start n last
  · have he := hin hhit
    have hrange : 0 ≤ s + (last - start) ∧ s + (last - start) < indicesPerBlock := by
      obtain ⟨h1, -, -⟩ := hhit
      omega
    have hlast : 0 ≤ last - start ∧ last - start < ((1024 : Nat) : Int) := by
      obtain ⟨h1, h2, -⟩ := hhit
      omega
    obtain ⟨calls, hrest, hfreed⟩ := segUsageFreeBlocks_tail p fsBlockSize _ hs0 hs
      (update a (s + (last - start)) nilDiskAddr)
    have hclear := cleared_update (show s ≤ s + (last - start) by omega) hrange.2 a
    rw [← hlimit, hclear] at hrest
    rw [← hlimit, hclear] at hfreed
    refine ⟨segUsageFree p (roundToBlocks p (lastByte - last * fsBlockSize + 1)) (a (s + (last - start))) ++ calls,
      ?_, fun seg hend => ?_⟩
    · unfold Hits at hhit
      simp only [deleteEntries, if_pos hhit, segUsageFreeBlocks_one hrange, Except.bind, bind, hrest]
    · have hclearLast : cleared s indicesPerBlock a (last - start) = nilDiskAddr := by
        refine cleared_of_le ?_ (by rw [hlimit]; exact hlast.2) a
        obtain ⟨h1, -, h3⟩ := hhit
        omega
      have hafter := hwhole seg (cleared s indicesPerBlock a) (fun i _ _ hi => by
        rw [show i = last - start by omega]
        exact hclearLast)
      have hbefore := arraySpace_size p seg (fun _ => fsBlockSize)
        (fun i => sizeOf p lastByte last (start + i)) hlast (fun j hj => hsize j (by omega)) a
      rw [freedIn_append, freedIn_free, hfreed, hafter, hbefore, arraySpace_update (by rw [← hlimit]; exact hrange),
        space_nil, show start + (last - start) = last by omega]
      have hfrag : roundToBlocks p (lastByte - last * fsBlockSize + 1) = sizeOf p lastByte last last :=
        (if_pos rfl).symm
      rw [hfrag]
      unfold misfreed
      rcases hsn with ⟨rfl, hlt⟩ | ⟨-, hlt⟩
      · rw [if_neg (fun h => hlt h.2), Int.zero_add]
        omega
      · rw [if_pos ⟨hhit, hlt⟩, hend hhit hlt, space_nil, space_nil]
        omega
  · obtain ⟨calls, hrest, hfreed⟩ := segUsageFreeBlocks_tail p fsBlockSize _ hs0 hs a
    rw [← hlimit] at hrest hfreed
    refine ⟨[] ++ calls, ?_, fun seg _ => ?_⟩
    · unfold Hits at hhit
      simp only [deleteEntries, if_neg hhit, Except.bind, bind, hrest]
    · rw [nil_append, hfreed]
      unfold misfreed
      rw [if_neg (fun h => hhit h.1)]
      by_cases hlast : start ≤ last ∧ last < start + indicesPerBlock
      · have hn' : last < n := by
          by_contra hle
          exact hhit ⟨hlast.1, hlast.2, by omega⟩
        have hrange : 0 ≤ last - start ∧ last - start < ((1024 : Nat) : Int) := by
          omega
        have hb := arraySpace_size p seg (fun _ => fsBlockSize)
          (fun i => sizeOf p lastByte last (start + i)) hrange (fun j hj => hsize j (by omega))
        rw [hb a, hb (cleared s indicesPerBlock a), cleared_of_lt (by omega)]
        omega
      · have hno : ∀ b : BlockArray, ∀ i : Int, 0 ≤ i → i < 1024 → start + i = last → b i = nilDiskAddr := by
          intro b i h0 hi he
          exact absurd ⟨by omega, by rw [hlimit]; omega⟩ hlast
        rw [hwhole seg a (hno a), hwhole seg _ (hno _)]
        omega

variable {io : IndexIO}

theorem fetchIndex_eq (hio : AllRead io) (f : FileIndex) (v : Int) (a : DiskAddr) :
    f.fetchIndex io v a = .ok (f.contents io v a) := by
  unfold fetchIndex contents
  cases f.cache v with
  | some b => rfl
  | none =>
    by_cases ha : a = nilDiskAddr
    · simp only [if_pos ha]
    · obtain ⟨e, he⟩ := hio a ha
      simp only [if_neg ha, he]
      rfl

/-- What is behind the cut below an index block of data blocks is deleted; its address `a` is now `a'`. -/
structure LeafDone (io : IndexIO) (n last v start : Int) (a : DiskAddr) (f : FileIndex) (a' : DiskAddr)
    (f' : FileIndex) : Prop where
  direct : f'.direct = f.direct
  indirect : f'.indirect = f.indirect
  lastByte : f'.lastByte = f.lastByte
  cache : ∀ w, w ≠ v → f'.cache w = f.cache w
  entry : ∀ i, 0 ≤ i → i < indicesPerBlock → entryOf (f'.contents io v a') i =
    if n ≤ start + i then nilDiskAddr else entryOf (f.contents io v a) i
  cached : a' = nilDiskAddr ∨ f'.cache v ≠ none
  addr : a' = if f.contents io v a ≠ none ∧ n ≤ start then nilDiskAddr else a
  freed : ∀ seg, (Hits start n last → start < n →
      entryOf (f.contents io v a) (fragElement start n last) = nilDiskAddr) →
    freedIn seg f'.usageCalls = freedIn seg f.usageCalls +
      (space io.params seg fsBlockSize a - space io.params seg fsBlockSize a') +
      (arraySpace io.params seg (fun i => sizeOf io.params f.lastByte last (start + i)) 1024
          (entryOf (f.contents io v a)) -
        arraySpace io.params seg (fun i => sizeOf io.params f.lastByte last (start + i)) 1024
          (entryOf (f'.contents io v a'))) +
      misfreed io.params seg f.lastByte start n last (entryOf (f.contents io v a) (last - start))

variable {f : FileIndex} {a : DiskAddr}

theorem deleteLeaf_outside (hio : AllRead io) {v : Int} (hn : n - start ≤ indicesPerBlock) (hc : f.contents io v a ≠ none) (hhit : Hits start n last)
    (hout : indicesPerBlock ≤ fragElement start n last) :
    f.deleteIndirectBlock io n last 0 v a start = .error .outOfBounds := by
  obtain ⟨b, hb⟩ := Option.ne_none_iff_exists'.mp hc
  have hq : ¬(n - start).tdiv (indicesPerBlock ^ 0) > indicesPerBlock := by
    rw [Int.pow_zero, Int.tdiv_one]
    omega
  unfold deleteIndirectBlock
  simp only [fetchIndex_eq hio, hb, if_neg hq]
  rw [Int.pow_zero, Int.tdiv_one, deleteEntries_outside hhit hout]
  rfl

theorem deleteLeaf_ok {io : IndexIO} (hio : AllRead io) {n last v start : Int} {a : DiskAddr} {f : FileIndex}
    (hn : n - start ≤ indicesPerBlock)
    (hin : f.contents io v a ≠ none → Hits start n last → fragElement start n last < indicesPerBlock) :
    ∃ a' f', f.deleteIndirectBlock io n last 0 v a start = .ok (.success, a', f') ∧
      LeafDone io n last v start a f a' f' := by
  have hq : ¬(n - start).tdiv (indicesPerBlock ^ 0) > indicesPerBlock := by
    rw [Int.pow_zero, Int.tdiv_one]
    omega
  unfold deleteIndirectBlock
  simp only [fetchIndex_eq hio, if_neg hq]
  rw [Int.pow_zero, Int.tdiv_one]
  cases hb : f.contents io v a with
  | none =>
    -- there is no block to delete anything from
    have hnil : ∀ i, entryOf (f.contents io v a) i = nilDiskAddr := by
      intro i
      rw [hb]
      rfl
    refine ⟨a, f, rfl, rfl, rfl, rfl, fun _ _ => rfl, fun i _ _ => ?_, ?_, ?_, fun seg _ => ?_⟩
    · rw [hnil]
      split <;> rfl
    · by_contra hne
      rw [not_or, not_not] at hne
      obtain ⟨e, he⟩ := hio a hne.1
      rw [contents_of_read hne.2 hne.1 he] at hb
      exact absurd hb (by simp)
    · rw [if_neg (fun h => h.1 hb)]
    · have hmis : misfreed io.params seg f.lastByte start n last (entryOf (f.contents io v a) (last - start)) = 0 := by
        unfold misfreed
        rw [hnil, space_nil, space_nil]
        split <;> rfl
      omega
  | some b =>
    obtain ⟨calls, hdel, hfreed⟩ := deleteEntries_ok io.params f.lastByte hn
      (hin (by rw [hb]; simp)) b
    have hentry : ∀ i, 0 ≤ i → i < indicesPerBlock → cleared (max (n - start) 0) indicesPerBlock b i =
        if n ≤ start + i then nilDiskAddr else b i := by
      intro i h0 hi
      by_cases hcut : n ≤ start + i
      · rw [if_pos hcut, cleared_of_le (by omega) hi]
      · rw [if_neg hcut, cleared_of_lt (by omega)]
    by_cases hs : max (n - start) 0 = 0
    · have hall : ∀ i, 0 ≤ i → i < indicesPerBlock → cleared (max (n - start) 0) indicesPerBlock b i = nilDiskAddr :=
        fun i h0 hi => cleared_of_le (by omega) hi b
      have hafter : contents io (((f.callUsage calls).deleteIndex v).callUsage
          (segUsageFree io.params fsBlockSize a)) v nilDiskAddr = none := contents_of_nil (deleteIndex_cache_self v _)
      refine ⟨nilDiskAddr, ((f.callUsage calls).deleteIndex v).callUsage (segUsageFree io.params fsBlockSize a), ?_,
        rfl, rfl, rfl, fun w hw => deleteIndex_cache_of_ne hw _, fun i h0 hi => ?_, .inl rfl, ?_, fun seg hend => ?_⟩
      · simp only [hdel, Except.bind, bind, finishIndirect, if_pos hs]
      · rw [hafter, if_pos (by omega)]
        rfl
      · rw [if_pos ⟨by rw [hb]; simp, by omega⟩]
      · have hclear : arraySpace io.params seg (fun i => sizeOf io.params f.lastByte last (start + i)) 1024
            (cleared (max (n - start) 0) indicesPerBlock b) =
            arraySpace io.params seg (fun i => sizeOf io.params f.lastByte last (start + i)) 1024 (entryOf none) :=
          arraySpace_congr (fun i h0 hi => ⟨rfl, hall i h0 hi⟩)
        change freedIn seg ((f.usageCalls ++ calls) ++ _) = _
        rw [freedIn_append, freedIn_append, freedIn_free, hfreed seg (by rw [hb] at hend; exact hend), hclear, hafter,
          space_nil, hb]
        change _ = freedIn seg f.usageCalls + _ + (arraySpace io.params seg _ 1024 b - _) +
          misfreed io.params seg f.lastByte start n last (b (last - start))
        omega
    · refine ⟨a, (f.callUsage calls).putIndex v ⟨cleared (max (n - start) 0) indicesPerBlock b, true⟩, ?_, rfl, rfl,
        rfl, fun w hw => putIndex_cache_of_ne hw _ _, fun i h0 hi => ?_, .inr ?_, ?_, fun seg hend => ?_⟩
      · simp only [hdel, Except.bind, bind, finishIndirect, if_neg hs]
      · rw [contents_of_cached (putIndex_cache_self v _ _), hb]
        exact hentry i h0 hi
      · simp
      · rw [if_neg (fun h => hs (by omega))]
      · rw [contents_of_cached (putIndex_cache_self v _ _), hb]
        change freedIn seg (f.usageCalls ++ calls) = freedIn seg f.usageCalls + _ +
          (arraySpace io.params seg _ 1024 b - arraySpace io.params seg _ 1024 (cleared (max (n - start) 0) indicesPerBlock b)) +
          misfreed io.params seg f.lastByte start n last (b (last - start))
        rw [freedIn_append, hfreed seg (by rw [hb] at hend; exact hend)]
        omega

/-! ## The double indirect block -/

/-- The number of the index block below entry `k` of the double indirect block. -/
def childNum (k : Int) : Int := -(numIndirectBlocks + 1 + k)

/-- The first data block below it. -/
def childStart (k : Int) : Int := numDirectBlocks + indicesPerBlock + indicesPerBlock * k

/-- That index block, where `e` is the double indirect block. -/
def childContents (io : IndexIO) (f : FileIndex) (e : Option BlockArray) (k : Int) : Option BlockArray :=
  f.contents io (childNum k) (entryOf e k)

/-- What it and the blocks below it take of the segment. -/
def childSpace (io : IndexIO) (seg last : Int) (f : FileIndex) (e : Option BlockArray) (k : Int) : Int :=
  space io.params seg fsBlockSize (entryOf e k) +
    arraySpace io.params seg (fun i => sizeOf io.params f.lastByte last (childStart k + i)) 1024
      (entryOf (childContents io f e k))

/-- All of them, and what has been freed. -/
def childrenTotal (io : IndexIO) (seg last : Int) (f : FileIndex) (e : Option BlockArray) : Int :=
  freedIn seg f.usageCalls + (Finset.range 1024).sum (fun k => childSpace io seg last f e k)

/-- What is freed too much in the children from `lo` to `hi`. -/
def childrenMisfreed (io : IndexIO) (seg n last : Int) (f : FileIndex) (e : Option BlockArray) (lo hi : Int) : Int :=
  (Finset.range 1024).sum (fun k => if lo ≤ (k : Int) ∧ (k : Int) < hi then
    misfreed io.params seg f.lastByte (childStart k) n last (entryOf (childContents io f e k) (last - childStart k)) else 0)

variable {k : Int}

theorem childNum_inj {l : Int} (h : childNum k = childNum l) : k = l := by
  unfold childNum at h
  omega

/-- Past the end of the file there is nothing where the last block is looked for. -/
def EndsAt (io : IndexIO) (n last : Int) (f : FileIndex) (e : Option BlockArray) (k : Int) : Prop :=
  Hits (childStart k) n last → childStart k < n →
    entryOf (childContents io f e k) (fragElement (childStart k) n last) = nilDiskAddr

/-- The children `lo` to `hi` are deleted behind the cut: `f` and the double indirect block `e` are now `f'` and
    `e'`. -/
structure ChildrenDone (io : IndexIO) (n last lo hi : Int) (f : FileIndex) (e : Option BlockArray) (f' : FileIndex)
    (e' : Option BlockArray) : Prop where
  direct : f'.direct = f.direct
  indirect : f'.indirect = f.indirect
  lastByte : f'.lastByte = f.lastByte
  cache : ∀ w, (∀ k, lo ≤ k → k < hi → w ≠ childNum k) → f'.cache w = f.cache w
  isNone : e' = none ↔ e = none
  outside : ∀ k, ¬(lo ≤ k ∧ k < hi) → entryOf e' k = entryOf e k
  entry : ∀ k, lo ≤ k → k < hi → ∀ i, 0 ≤ i → i < indicesPerBlock → entryOf (childContents io f' e' k) i =
    if n ≤ childStart k + i then nilDiskAddr else entryOf (childContents io f e k) i
  cached : ∀ k, lo ≤ k → k < hi → entryOf e' k = nilDiskAddr ∨ f'.cache (childNum k) ≠ none
  addr : ∀ k, lo ≤ k → k < hi → entryOf e' k =
    if childContents io f e k ≠ none ∧ n ≤ childStart k then nilDiskAddr else entryOf e k
  freed : ∀ seg, (∀ k, lo ≤ k → k < hi → EndsAt io n last f e k) → childrenTotal io seg last f' e' =
    childrenTotal io seg last f e + childrenMisfreed io seg n last f e lo hi

/-- The last block's entry would be looked for past the end of a child. -/
def ChildOverruns (io : IndexIO) (n last : Int) (f : FileIndex) (e : Option BlockArray) (k : Int) : Prop :=
  childContents io f e k ≠ none ∧ Hits (childStart k) n last ∧ indicesPerBlock ≤ fragElement (childStart k) n last

variable {e : Option BlockArray} {f' : FileIndex}

theorem ChildrenDone.one (hk : 0 ≤ k) (hk' : k < indicesPerBlock) {a' : DiskAddr}
    (h : LeafDone io n last (childNum k) (childStart k) (entryOf e k) f a' f') :
    ChildrenDone io n last k (k + 1) f e f' (e.map (fun b => update b k a')) := by
  have hself : entryOf (e.map (fun b => update b k a')) k = a' := by
    cases e with
    | none =>
      have haddr := h.addr
      change a' = if _ then nilDiskAddr else nilDiskAddr at haddr
      rw [ite_self] at haddr
      exact haddr.symm
    | some b => exact update_self _ _ _
  have hother : ∀ l, l ≠ k → entryOf (e.map (fun b => update b k a')) l = entryOf e l := by
    intro l hl
    cases e with
    | none => rfl
    | some b => exact update_of_ne hl _ _
  generalize he : e.map (fun b => update b k a') = e' at hself hother ⊢
  have honly : ∀ l, k ≤ l → l < k + 1 → l = k := fun l h1 h2 => by omega
  have hself' : childContents io f' e' k = f'.contents io (childNum k) a' := by
    unfold childContents
    rw [hself]
  have hspace : ∀ seg l, l ≠ k → childSpace io seg last f' e' l = childSpace io seg last f e l := by
    intro seg l hl
    unfold childSpace childContents
    rw [hother l hl, contents_congr (h.cache _ (fun hn => hl (childNum_inj hn))), h.lastByte]
  refine ⟨h.direct, h.indirect, h.lastByte, fun w hw => h.cache w (hw k (Int.le_refl k) (by omega)), ?_, fun l hl => ?_,
    fun l h1 h2 i h0 hi => ?_, fun l h1 h2 => ?_, fun l h1 h2 => ?_, fun seg hend => ?_⟩
  · rw [← he]
    cases e <;> simp
  · exact hother l (fun hn => hl (by omega))
  · obtain rfl := honly l h1 h2
    rw [hself']
    exact h.entry i h0 hi
  · obtain rfl := honly l h1 h2
    rw [hself]
    exact h.cached
  · obtain rfl := honly l h1 h2
    rw [hself]
    exact h.addr
  · have hfreed := h.freed seg (hend k (Int.le_refl k) (by omega))
    have hsum := Tally.sum_range_change (n := 1024) (f := fun l => childSpace io seg last f e l)
      (g := fun l => childSpace io seg last f' e' l) (s := k) ⟨hk, hk'⟩ (hspace seg)
    have hmis := Tally.sum_range_change (n := 1024) (f := fun _ => 0)
      (g := fun l => if k ≤ l ∧ l < k + 1 then misfreed io.params seg f.lastByte (childStart l) n last
        (entryOf (childContents io f e l) (last - childStart l)) else 0) (s := k) ⟨hk, hk'⟩
      (fun l hl => if_neg (fun hc => hl (by omega)))
    rw [Finset.sum_const_zero, if_pos ⟨Int.le_refl k, by omega⟩] at hmis
    unfold childrenTotal childrenMisfreed
    rw [hsum, hmis, hfreed]
    unfold childSpace
    rw [hself', hself, h.lastByte]
    unfold childContents
    omega

variable {lo : Int} {f₁ : FileIndex} {b : BlockArray}

theorem ChildrenDone.refl (f : FileIndex) (e : Option BlockArray) : ChildrenDone io n last lo lo f e f e := by
  have hno : ∀ k, lo ≤ k → k < lo → False := fun k h1 h2 => by omega
  refine ⟨rfl, rfl, rfl, fun _ _ => rfl, Iff.rfl, fun _ _ => rfl, fun k h1 h2 => (hno k h1 h2).elim,
    fun k h1 h2 => (hno k h1 h2).elim, fun k h1 h2 => (hno k h1 h2).elim, fun seg _ => ?_⟩
  have hzero : childrenMisfreed io seg n last f e lo lo = 0 :=
    Finset.sum_eq_zero (fun k _ => if_neg (fun h => hno k h.1 h.2))
  rw [hzero, Int.add_zero]

theorem ChildrenDone.contents {hi : Int} {e' : Option BlockArray}
    (h : ChildrenDone io n last lo hi f e f' e') (hk : ¬(lo ≤ k ∧ k < hi)) :
    childContents io f' e' k = childContents io f e k := by
  unfold childContents
  rw [h.outside k hk, contents_congr (h.cache _ (fun l h1 h2 hn => hk (by rw [childNum_inj hn]; exact ⟨h1, h2⟩)))]

theorem ChildrenDone.append {mid hi : Int} {g h : FileIndex} {e' e'' : Option BlockArray}
    (h₁ : ChildrenDone io n last lo mid f e g e') (h₂ : ChildrenDone io n last mid hi g e' h e'') (hlo : lo ≤ mid)
    (hhi : mid ≤ hi) : ChildrenDone io n last lo hi f e h e'' := by
  have hleft : ∀ k, k < mid → ¬(mid ≤ k ∧ k < hi) := fun k hk hc => by omega
  have hright : ∀ k, mid ≤ k → ¬(lo ≤ k ∧ k < mid) := fun k hk hc => by omega
  refine ⟨h₂.direct.trans h₁.direct, h₂.indirect.trans h₁.indirect, h₂.lastByte.trans h₁.lastByte, fun w hw => ?_,
    h₂.isNone.trans h₁.isNone, fun k hk => ?_, fun k h1 h2 i h0 hi' => ?_, fun k h1 h2 => ?_, fun k h1 h2 => ?_,
    fun seg hend => ?_⟩
  · rw [h₂.cache w (fun k h1 h2 => hw k (by omega) h2), h₁.cache w (fun k h1 h2 => hw k h1 (by omega))]
  · rw [h₂.outside k (fun hc => hk (by omega)), h₁.outside k (fun hc => hk (by omega))]
  · by_cases hk : k < mid
    · rw [h₂.contents (hleft k hk)]
      exact h₁.entry k h1 hk i h0 hi'
    · rw [h₂.entry k (by omega) h2 i h0 hi', h₁.contents (hright k (by omega))]
  · by_cases hk : k < mid
    · rw [h₂.outside k (hleft k hk), h₂.cache _ (fun l h3 h4 hn => by have := childNum_inj hn; omega)]
      exact h₁.cached k h1 hk
    · exact h₂.cached k (by omega) h2
  · by_cases hk : k < mid
    · rw [h₂.outside k (hleft k hk)]
      exact h₁.addr k h1 hk
    · rw [h₂.addr k (by omega) h2, h₁.contents (hright k (by omega)), h₁.outside k (hright k (by omega))]
  · have hend₂ : ∀ k, mid ≤ k → k < hi → EndsAt io n last g e' k := by
      intro k h1 h2
      unfold EndsAt
      rw [h₁.contents (hright k h1)]
      exact hend k (by omega) h2
    have hsplit : childrenMisfreed io seg n last f e lo hi =
        childrenMisfreed io seg n last f e lo mid + childrenMisfreed io seg n last g e' mid hi := by
      unfold childrenMisfreed
      rw [← Finset.sum_add_distrib]
      refine Finset.sum_congr rfl (fun k _ => ?_)
      by_cases hk : (k : Int) < mid
      · rw [if_neg (hleft k hk), Int.add_zero]
        by_cases hkl : lo ≤ (k : Int)
        · rw [if_pos ⟨hkl, by omega⟩, if_pos ⟨hkl, hk⟩]
        · rw [if_neg (fun hc => hkl hc.1), if_neg (fun hc => hkl hc.1)]
      · rw [if_neg (hright k (by omega)), Int.zero_add, h₁.contents (hright k (by omega)), h₁.lastByte]
        by_cases hkh : (k : Int) < hi
        · rw [if_pos ⟨by omega, hkh⟩, if_pos ⟨by omega, hkh⟩]
        · rw [if_neg (fun hc => hkh hc.2), if_neg (fun hc => hkh hc.2)]
    rw [h₂.freed seg hend₂, h₁.freed seg (fun k h1 h2 => hend k h1 (by omega)), hsplit]
    omega

theorem deleteChildren_ok (hio : AllRead io) (count : Nat) (h0 : 0 ≤ i)
    (hcount : i + count = indicesPerBlock) (hcut : n ≤ childStart (i + 1)) (hin : ∀ k, i ≤ k → ¬ChildOverruns io n last f e k) :
    ∃ f' e', deleteChildren (fun child addr start f => deleteIndirectBlock io n last 0 child addr start f)
        (indicesPerBlock ^ (0 + 1)) count i (childStart i) e .success f = .ok (.success, e', f') ∧
      ChildrenDone io n last i indicesPerBlock f e f' e' := by
  induction count generalizing i f e with
  | zero =>
    refine ⟨f, e, rfl, ?_⟩
    rw [← hcount, Int.natCast_zero, Int.add_zero]
    exact ChildrenDone.refl f e
  | succ count ih =>
    have hi : i < indicesPerBlock := by
      omega
    have hwidth : childStart (i + 1) = childStart i + indicesPerBlock := by
      unfold childStart indicesPerBlock
      omega
    obtain ⟨a', f₁, hdel, hleaf⟩ := @deleteLeaf_ok io hio n last (childNum i) (childStart i) (entryOf e i) f (by omega)
      (fun hc hhit => Int.not_le.mp (fun hle => hin i (Int.le_refl i) ⟨hc, hhit, hle⟩))
    have hone := ChildrenDone.one h0 hi hleaf
    obtain ⟨f', e', hrest, hdone⟩ := ih (i := i + 1) (f := f₁) (e := e.map (fun b => update b i a'))
      (by omega) (by push_cast at hcount; omega)
      (by unfold childStart indicesPerBlock at *; omega)
      (fun k hk hover => hin k (by omega) (by
        unfold ChildOverruns at hover ⊢
        rwa [hone.contents (by omega)] at hover))
    refine ⟨f', e', ?_, hone.append hdone (by omega) (by omega)⟩
    unfold deleteChildren
    have hnum : -(numIndirectBlocks + 1 + i) = childNum i := rfl
    rw [hnum, hdel]
    rw [hwidth] at hrest
    exact hrest

theorem deleteChildren_outside (hio : AllRead io) (count : Nat) (h0 : 0 ≤ i) (hcount : i + count = indicesPerBlock) (hcut : n ≤ childStart (i + 1)) (hk : i ≤ k) (hk' : k < indicesPerBlock) (hover : ChildOverruns io n last f e k)
    (status : ReturnStatus) :
    deleteChildren (fun child addr start f => deleteIndirectBlock io n last 0 child addr start f)
      (indicesPerBlock ^ (0 + 1)) count i (childStart i) e status f = .error .outOfBounds := by
  induction count generalizing i f e status with
  | zero => omega
  | succ count ih =>
    have hi : i < indicesPerBlock := by omega
    have hwidth : childStart (i + 1) = childStart i + indicesPerBlock := by
      unfold childStart indicesPerBlock
      omega
    have hnum : -(numIndirectBlocks + 1 + i) = childNum i := rfl
    by_cases hfirst : ChildOverruns io n last f e i
    · unfold deleteChildren
      rw [hnum, deleteLeaf_outside hio (by omega) hfirst.1 hfirst.2.1 hfirst.2.2]
      rfl
    · have hne : k ≠ i := fun he => hfirst (he ▸ hover)
      obtain ⟨a', f₁, hdel, hleaf⟩ := @deleteLeaf_ok io hio n last (childNum i) (childStart i) (entryOf e i) f (by omega)
        (fun hc hhit => Int.not_le.mp (fun hle => hfirst ⟨hc, hhit, hle⟩))
      have hone := ChildrenDone.one h0 hi hleaf
      have hrest := ih (i := i + 1) (f := f₁) (e := e.map (fun b => update b i a')) (by omega)
        (by push_cast at hcount; omega) (by unfold childStart indicesPerBlock at *; omega) (by omega)
        (by unfold ChildOverruns at hover ⊢; rwa [hone.contents (by omega)]) .success
      unfold deleteChildren
      rw [hnum, hdel]
      rw [hwidth] at hrest
      exact hrest

/-- The first data block below the double indirect block. -/
def doubleStart : Int := numDirectBlocks + indicesPerBlock

/-- The entry of the double indirect block that the cut is in, or the first. -/
def cutElement (n : Int) : Int := max ((n - doubleStart).tdiv (indicesPerBlock ^ (0 + 1))) 0

theorem cutElement_spec (n : Int) :
    0 ≤ cutElement n ∧ n < childStart (cutElement n + 1) ∧ (0 < cutElement n → childStart (cutElement n) ≤ n) := by
  unfold cutElement childStart doubleStart numDirectBlocks indicesPerBlock
  rw [show (1024 : Int) ^ (0 + 1) = 1024 from rfl]
  by_cases hn : 0 ≤ n - (10 + 1024)
  · rw [Int.tdiv_eq_ediv_of_nonneg hn]
    omega
  · have hneg : (n - (10 + 1024)).tdiv 1024 ≤ (0 : Int).tdiv 1024 := Int.tdiv_le_tdiv (by decide) (by omega)
    rw [Int.zero_tdiv] at hneg
    omega

/-- A block that is dropped with a child that is still needed: its address is forgotten. -/
def forgotten (io : IndexIO) (seg n : Int) (e : Option BlockArray) : Int :=
  if e ≠ none ∧ doubleStart < n ∧ n < doubleStart + indicesPerBlock then
    space io.params seg fsBlockSize (entryOf e 0) else 0

/-- What the double indirect block and all below it take, and what has been freed. -/
def doubleTotal (io : IndexIO) (seg last : Int) (f : FileIndex) : Int :=
  space io.params seg fsBlockSize (f.indirect 1) + childrenTotal io seg last f (f.indexBlock io (-2))

theorem childContents_double (hk : 0 ≤ k) :
    childContents io f (f.indexBlock io (-2)) k = f.indexBlock io (childNum k) := by
  have hnum : childNum k = -4 - k := by
    unfold childNum numIndirectBlocks
    omega
  unfold childContents
  rw [hnum, ← @indexAddr_child k io f hk]
  rfl

structure DoubleDone (io : IndexIO) (n last : Int) (f f' : FileIndex) : Prop where
  direct : f'.direct = f.direct
  indirect : ∀ i, i ≠ 1 → f'.indirect i = f.indirect i
  lastByte : f'.lastByte = f.lastByte
  single : f'.cache (-1) = f.cache (-1)
  entry : ∀ k, 0 ≤ k → k < indicesPerBlock → ∀ i, 0 ≤ i → i < indicesPerBlock →
    entryOf (f'.indexBlock io (childNum k)) i =
      if n ≤ childStart k + i then nilDiskAddr else entryOf (f.indexBlock io (childNum k)) i
  freed : ∀ seg, (∀ k, 0 ≤ k → k < indicesPerBlock → EndsAt io n last f (f.indexBlock io (-2)) k) →
    doubleTotal io seg last f' + forgotten io seg n (f.indexBlock io (-2)) = doubleTotal io seg last f +
      childrenMisfreed io seg n last f (f.indexBlock io (-2)) (cutElement n) indicesPerBlock

theorem deleteIndirectBlock_succ (io : IndexIO) (n last : Int) (level : Nat) (v : Int) (a : DiskAddr) (start : Int)
    (f : FileIndex) : f.deleteIndirectBlock io n last (level + 1) v a start =
      match f.fetchIndex io v a with
      | .error status => .ok (status, a, f)
      | .ok blockArray =>
        let quotient := (n - start).tdiv (indicesPerBlock ^ (level + 1))
        if quotient > indicesPerBlock then .error .panic
        else
          (deleteChildren (fun child addr start f => deleteIndirectBlock io n last level child addr start f)
            (indicesPerBlock ^ (level + 1)) (indicesPerBlock - max quotient 0).toNat (max quotient 0)
            (start + max quotient 0 * indicesPerBlock ^ (level + 1)) blockArray .success f).bind (fun r =>
              .ok (r.1, r.2.2.finishIndirect io v a (max quotient 0) r.2.1)) := by
  rw [deleteIndirectBlock]
  cases f.fetchIndex io v a with
  | error status => rfl
  | ok blockArray =>
    simp only
    split
    · rfl
    · rfl

theorem truncDouble_eq (hio : AllRead io) (hn : n < doubleStart + indicesPerBlock * indicesPerBlock) (last : Int) (f : FileIndex) :
    f.truncIndirect io n last 1 1 doubleStart =
      (deleteChildren (fun child addr start f => deleteIndirectBlock io n last 0 child addr start f)
        (indicesPerBlock ^ (0 + 1)) (indicesPerBlock - cutElement n).toNat (cutElement n) (childStart (cutElement n))
        (f.indexBlock io (-2)) .success f).bind (fun r =>
          let d := r.2.2.finishIndirect io (-2) (f.indirect 1) (cutElement n) r.2.1
          .ok (r.1, d.2.putIndirect 1 d.1)) := by
  have hquot : ¬(n - doubleStart).tdiv (indicesPerBlock ^ (0 + 1)) > indicesPerBlock := by
    have hle : (n - doubleStart).tdiv (indicesPerBlock ^ (0 + 1)) ≤
        (indicesPerBlock * indicesPerBlock).tdiv (indicesPerBlock ^ (0 + 1)) :=
      Int.tdiv_le_tdiv (by decide) (by omega)
    rw [show (indicesPerBlock * indicesPerBlock).tdiv (indicesPerBlock ^ (0 + 1)) = indicesPerBlock from rfl] at hle
    omega
  have hstart : doubleStart + cutElement n * indicesPerBlock ^ (0 + 1) = childStart (cutElement n) := by
    unfold childStart doubleStart
    rw [show indicesPerBlock ^ (0 + 1) = indicesPerBlock from rfl, Int.mul_comm]
  have hfetch : f.fetchIndex io (-2) (f.indirect 1) = .ok (f.indexBlock io (-2)) := by
    rw [fetchIndex_eq hio, indexBlock_double]
  have hcut : max ((n - doubleStart).tdiv (indicesPerBlock ^ (0 + 1))) 0 = cutElement n := rfl
  unfold truncIndirect
  rw [show (-(1 + 1) : Int) = -2 from rfl, deleteIndirectBlock_succ, hfetch]
  simp only [if_neg hquot, hcut, hstart]
  generalize deleteChildren _ (indicesPerBlock ^ (0 + 1)) (indicesPerBlock - cutElement n).toNat (cutElement n)
    (childStart (cutElement n)) (f.indexBlock io (-2)) ReturnStatus.success f = r
  cases r with
  | error e => rfl
  | ok r => rfl

theorem cutElement_lt (hn : n < doubleStart + indicesPerBlock * indicesPerBlock) : cutElement n < indicesPerBlock := by
  obtain ⟨h0, -, hcut⟩ := cutElement_spec n
  by_cases hpos : 0 < cutElement n
  · unfold childStart doubleStart indicesPerBlock at *
    omega
  · unfold indicesPerBlock
    omega

theorem childNum_ne (hk : 0 ≤ k) : childNum k ≠ -2 ∧ childNum k ≠ -1 := by
  unfold childNum numIndirectBlocks
  omega

theorem entryOf_of_none (hio : AllRead io) (h : childContents io f e k = none) : entryOf e k = nilDiskAddr := by
  by_contra hne
  unfold childContents contents at h
  obtain ⟨b, hb⟩ := hio _ hne
  cases hc : f.cache (childNum k) with
  | some c => simp [hc] at h
  | none => simp [hc, hne, hb, Except.toOption] at h

theorem ChildrenDone.finish {io : IndexIO} {n last : Int} {f f₁ f' : FileIndex} {e₁ : Option BlockArray}
    (h : ChildrenDone io n last (cutElement n) indicesPerBlock f (f.indexBlock io (-2)) f₁ e₁)
    (hd : f'.direct = f₁.direct) (hi : ∀ i, i ≠ 1 → f'.indirect i = f₁.indirect i) (hb : f'.lastByte = f₁.lastByte)
    (hc : ∀ w, w ≠ -2 → f'.cache w = f₁.cache w)
    (he : ∀ k, 0 ≤ k → k < indicesPerBlock → childContents io f' (f'.indexBlock io (-2)) k = childContents io f₁ e₁ k)
    (hfreed : ∀ seg, doubleTotal io seg last f' + forgotten io seg n (f.indexBlock io (-2)) =
      space io.params seg fsBlockSize (f.indirect 1) + childrenTotal io seg last f₁ e₁) :
    DoubleDone io n last f f' := by
  obtain ⟨h0, -, hcut⟩ := cutElement_spec n
  refine ⟨hd.trans h.direct, fun i hi' => (hi i hi').trans (by rw [h.indirect]), hb.trans h.lastByte, ?_,
    fun k hk hk' i hi0 hi1 => ?_, fun seg hend => ?_⟩
  · rw [hc (-1) (by decide), h.cache (-1) (fun k hk _ => (childNum_ne (by omega)).2.symm)]
  · rw [← childContents_double hk, ← childContents_double hk, he k hk hk']
    by_cases hkc : cutElement n ≤ k
    · exact h.entry k hkc hk' i hi0 hi1
    · have hfront : childStart k + i < n := by
        unfold childStart indicesPerBlock at *
        omega
      rw [h.contents (fun hr => hkc hr.1), if_neg (by omega)]
  · rw [hfreed, h.freed seg (fun k h1 h2 => hend k (by omega) h2)]
    unfold doubleTotal
    omega

theorem ChildrenDone.dropped (hio : AllRead io)
    (h : ChildrenDone io n last (cutElement n) indicesPerBlock f (f.indexBlock io (-2)) f₁ (some b))
    (hcut : cutElement n = 0) (hsome : f.indexBlock io (-2) ≠ none) :
    DoubleDone io n last f (((f₁.deleteIndex (-2)).callUsage
      (segUsageFree io.params fsBlockSize (f.indirect 1))).putIndirect 1 nilDiskAddr) := by
  obtain ⟨-, hnext, -⟩ := cutElement_spec n
  have hnext : n < doubleStart + indicesPerBlock := by
    unfold childStart doubleStart indicesPerBlock at *
    omega
  obtain ⟨f', hf'⟩ : ∃ f', f' = ((f₁.deleteIndex (-2)).callUsage
    (segUsageFree io.params fsBlockSize (f.indirect 1))).putIndirect 1 nilDiskAddr := ⟨_, rfl⟩
  rw [← hf']
  have hcache : ∀ w, w ≠ -2 → f'.cache w = f₁.cache w := by
    intro w hw
    rw [hf']
    exact deleteIndex_cache_of_ne hw f₁
  have hnil : f'.indirect 1 = nilDiskAddr := by rw [hf', putIndirect_indirect_self]
  have hgone : f'.indexBlock io (-2) = none := by
    have hnone : f'.cache (-2) = none := by
      rw [hf']
      exact deleteIndex_cache_self (-2) f₁
    rw [indexBlock_double, hnil, contents_of_nil hnone]
  -- a child that is still needed is in the cache
  have hchild : ∀ k, 0 ≤ k → k < indicesPerBlock →
      childContents io f' (f'.indexBlock io (-2)) k = childContents io f₁ (some b) k := by
    intro k hk hk'
    rw [hgone]
    unfold childContents
    rw [contents_congr (hcache _ (childNum_ne hk).1)]
    rcases h.cached k (by omega) hk' with hk0 | hk0
    · rw [hk0]
      rfl
    · obtain ⟨c, hc⟩ := Option.ne_none_iff_exists'.mp hk0
      rw [contents_of_cached hc, contents_of_cached hc]
  have hcalls : f'.usageCalls = f₁.usageCalls ++ segUsageFree io.params fsBlockSize (f.indirect 1) := by rw [hf']; rfl
  have hbyte : f'.lastByte = f₁.lastByte := by rw [hf']; rfl
  refine h.finish (by rw [hf']; rfl) (fun i hi => ?_) hbyte hcache hchild (fun seg => ?_)
  · rw [hf', putIndirect_indirect_of_ne hi]
    rfl
  -- but its address is not: no other child has one left
  have hkeep : ∀ k : Int, 0 ≤ k → k < indicesPerBlock → ¬(k = 0 ∧ doubleStart < n) → b k = nilDiskAddr := by
    intro k hk hk' hne
    have haddr := h.addr k (by omega) hk'
    change b k = _ at haddr
    rw [haddr]
    split
    · rfl
    · next hcond =>
      refine entryOf_of_none hio (f := f) ?_
      by_contra hc
      refine hcond ⟨hc, ?_⟩
      unfold childStart doubleStart indicesPerBlock at *
      omega
  have hsum : (Finset.range 1024).sum (fun k => space io.params seg fsBlockSize (b k)) =
      forgotten io seg n (f.indexBlock io (-2)) := by
    have hzero : (Finset.range 1024).sum (fun k => space io.params seg fsBlockSize (b k)) =
        space io.params seg fsBlockSize (b 0) := by
      refine Finset.sum_eq_single 0 (fun k hk hk0 => ?_) (fun h => absurd (Finset.mem_range.mpr (by decide)) h)
      have hk' := Finset.mem_range.mp hk
      rw [hkeep k (by omega) (by unfold indicesPerBlock; omega) (fun h => hk0 (by omega)), space_nil]
    rw [hzero]
    unfold forgotten
    by_cases hpos : doubleStart < n
    · have haddr := h.addr 0 (by omega) (by decide)
      rw [if_neg (fun hc => by have hle := hc.2; unfold childStart doubleStart at *; omega)] at haddr
      change b 0 = _ at haddr
      rw [if_pos ⟨hsome, hpos, hnext⟩, haddr]
    · rw [if_neg (fun h => hpos h.2.1), hkeep 0 (by decide) (by decide) (fun h => hpos h.2), space_nil]
  have hspaces : (Finset.range 1024).sum (fun k => childSpace io seg last f₁ (some b) k) =
      (Finset.range 1024).sum (fun k => childSpace io seg last f' none k) +
        (Finset.range 1024).sum (fun k => space io.params seg fsBlockSize (b k)) := by
    rw [← Finset.sum_add_distrib]
    refine Finset.sum_congr rfl (fun k hk => ?_)
    have hk' := Finset.mem_range.mp hk
    have hck := hchild k (by omega) (by unfold indicesPerBlock; omega)
    rw [hgone] at hck
    unfold childSpace
    rw [hck, hbyte]
    change space io.params seg fsBlockSize (b k) + _ = space io.params seg fsBlockSize nilDiskAddr + _ + _
    rw [space_nil]
    omega
  unfold doubleTotal childrenTotal
  rw [hgone, hnil, space_nil, hcalls, freedIn_append, freedIn_free, hspaces, hsum]
  omega

theorem ChildrenDone.kept (h : ChildrenDone io n last (cutElement n) indicesPerBlock f (f.indexBlock io (-2)) f₁ (some b))
    (hpos : 0 < cutElement n) : DoubleDone io n last f (f₁.putIndex (-2) ⟨b, true⟩) := by
  obtain ⟨-, -, hcut⟩ := cutElement_spec n
  have hblock : (f₁.putIndex (-2) ⟨b, true⟩).indexBlock io (-2) = some b :=
    contents_of_cached (putIndex_cache_self _ _ _) _
  have hchild : ∀ k, 0 ≤ k → childContents io (f₁.putIndex (-2) ⟨b, true⟩) (some b) k =
      childContents io f₁ (some b) k := by
    intro k hk
    unfold childContents
    rw [contents_congr (putIndex_cache_of_ne (childNum_ne hk).1 _ _)]
  refine @ChildrenDone.finish io n last f f₁ (f₁.putIndex (-2) ⟨b, true⟩) (some b) h rfl (fun _ _ => rfl) rfl
    (fun w hw => putIndex_cache_of_ne hw _ _) (fun k hk _ => ?_) (fun seg => ?_)
  · rw [hblock, hchild k hk]
  · have hforgot : forgotten io seg n (f.indexBlock io (-2)) = 0 := by
      refine if_neg (fun hf => ?_)
      unfold childStart doubleStart indicesPerBlock at *
      omega
    have hspaces : childrenTotal io seg last (f₁.putIndex (-2) ⟨b, true⟩) (some b) =
        childrenTotal io seg last f₁ (some b) := by
      have hbyte : (f₁.putIndex (-2) ⟨b, true⟩).lastByte = f₁.lastByte := rfl
      have hcalls : (f₁.putIndex (-2) ⟨b, true⟩).usageCalls = f₁.usageCalls := rfl
      unfold childrenTotal
      rw [hcalls, Finset.sum_congr rfl (fun k _ => ?_)]
      unfold childSpace
      rw [hchild k (by omega), hbyte]
    unfold doubleTotal
    rw [hforgot, hblock, hspaces, Int.add_zero]
    change space io.params seg fsBlockSize (f₁.indirect 1) + _ = _
    rw [h.indirect]

theorem truncDouble_ok (hio : AllRead io) (hn : n < doubleStart + indicesPerBlock * indicesPerBlock) (hin : ∀ k, cutElement n ≤ k → ¬ChildOverruns io n last f (f.indexBlock io (-2)) k) :
    ∃ f', f.truncIndirect io n last 1 1 doubleStart = .ok (.success, f') ∧ DoubleDone io n last f f' := by
  obtain ⟨h0, hnext, hcut⟩ := cutElement_spec n
  have hlt := cutElement_lt hn
  obtain ⟨f₁, e₁, hdel, hdone⟩ := deleteChildren_ok hio (indicesPerBlock - cutElement n).toNat h0 (by omega)
    (Int.le_of_lt hnext) hin
  have haddr : f₁.indirect 1 = f.indirect 1 := by rw [hdone.indirect]
  have hdouble : f₁.cache (-2) = f.cache (-2) :=
    hdone.cache (-2) (fun k hk _ => (childNum_ne (by omega)).1.symm)
  rw [truncDouble_eq hio hn, hdel]
  refine ⟨_, rfl, ?_⟩
  cases he : e₁ with
  | none =>
    -- there is no double indirect block
    rw [he] at hdone
    have hnone : f.indexBlock io (-2) = none := hdone.isNone.mp rfl
    have hblock : f₁.indexBlock io (-2) = none := by
      rw [← hnone, indexBlock_double, indexBlock_double, haddr, contents_congr hdouble]
    change DoubleDone io n last f (f₁.putIndirect 1 (f.indirect 1))
    rw [putIndirect_self haddr]
    refine hdone.finish rfl (fun _ _ => rfl) rfl (fun _ _ => rfl) (fun k _ _ => by rw [hblock]) (fun seg => ?_)
    have hforgot : forgotten io seg n (f.indexBlock io (-2)) = 0 := if_neg (fun h => h.1 hnone)
    unfold doubleTotal
    rw [hforgot, hblock, haddr, Int.add_zero]
  | some b =>
    rw [he] at hdone
    have hsome : f.indexBlock io (-2) ≠ none := fun h => absurd (hdone.isNone.mpr h) (by simp)
    by_cases hcut0 : cutElement n = 0
    · have hfin : finishIndirect io (-2) (f.indirect 1) (cutElement n) (some b) f₁ = (nilDiskAddr,
          (f₁.deleteIndex (-2)).callUsage (segUsageFree io.params fsBlockSize (f.indirect 1))) := if_pos hcut0
      simp only [hfin]
      exact hdone.dropped hio hcut0 hsome
    · have hfin : finishIndirect io (-2) (f.indirect 1) (cutElement n) (some b) f₁ =
          (f.indirect 1, f₁.putIndex (-2) ⟨b, true⟩) := if_neg hcut0
      simp only [hfin]
      rw [putIndirect_self (f := f₁.putIndex (-2) ⟨b, true⟩) haddr]
      exact hdone.kept (by omega)

theorem truncDouble_outside (hio : AllRead io) (hn : n < doubleStart + indicesPerBlock * indicesPerBlock) (hk : 0 ≤ k) (hk' : k < indicesPerBlock)
    (hover : ChildOverruns io n last f (f.indexBlock io (-2)) k) :
    f.truncIndirect io n last 1 1 doubleStart = .error .outOfBounds := by
  obtain ⟨h0, hnext, hcut⟩ := cutElement_spec n
  have hkc : cutElement n ≤ k := by
    obtain ⟨-, ⟨-, h2, h3⟩, -⟩ := hover
    unfold childStart indicesPerBlock at *
    omega
  rw [truncDouble_eq hio hn, deleteChildren_outside hio (indicesPerBlock - cutElement n).toNat h0 (by omega)
    (Int.le_of_lt hnext) hkc hk' hover]
  rfl

/-! ## The indirect block -/

/-- What the indirect block and all below it take, and what has been freed. -/
def singleTotal (io : IndexIO) (seg last : Int) (f : FileIndex) : Int :=
  freedIn seg f.usageCalls + space io.params seg fsBlockSize (f.indirect 0) +
    arraySpace io.params seg (fun i => sizeOf io.params f.lastByte last (numDirectBlocks + i)) 1024
      (entryOf (f.indexBlock io (-1)))

theorem indexBlock_single (io : IndexIO) (f : FileIndex) :
    f.indexBlock io (-1) = f.contents io (-1) (f.indirect 0) := by
  rfl

structure SingleDone (io : IndexIO) (n last : Int) (f f' : FileIndex) : Prop where
  direct : f'.direct = f.direct
  indirect : ∀ i, i ≠ 0 → f'.indirect i = f.indirect i
  lastByte : f'.lastByte = f.lastByte
  cache : ∀ w, w ≠ -1 → f'.cache w = f.cache w
  entry : ∀ i, 0 ≤ i → i < indicesPerBlock → entryOf (f'.indexBlock io (-1)) i =
    if n ≤ numDirectBlocks + i then nilDiskAddr else entryOf (f.indexBlock io (-1)) i
  freed : ∀ seg, (Hits numDirectBlocks n last → numDirectBlocks < n →
      entryOf (f.indexBlock io (-1)) (fragElement numDirectBlocks n last) = nilDiskAddr) →
    singleTotal io seg last f' = singleTotal io seg last f + misfreed io.params seg f.lastByte numDirectBlocks n last
      (entryOf (f.indexBlock io (-1)) (last - numDirectBlocks))

theorem truncSingle_ok (hio : AllRead io) (hn : n - numDirectBlocks ≤ indicesPerBlock)
    (hin : f.indexBlock io (-1) ≠ none → Hits numDirectBlocks n last →
      fragElement numDirectBlocks n last < indicesPerBlock) :
    ∃ f', f.truncIndirect io n last 0 0 numDirectBlocks = .ok (.success, f') ∧ SingleDone io n last f f' := by
  rw [indexBlock_single] at hin
  obtain ⟨a', f', hdel, hleaf⟩ := deleteLeaf_ok hio (v := -1) hn hin
  have hblock : (f'.putIndirect 0 a').indexBlock io (-1) = f'.contents io (-1) a' := by
    rfl
  refine ⟨f'.putIndirect 0 a', ?_, hleaf.direct, fun i hi => ?_, hleaf.lastByte, hleaf.cache, fun i h0 hi => ?_,
    fun seg hend => ?_⟩
  · unfold truncIndirect
    rw [show (-(0 + 1) : Int) = -1 from rfl, hdel]
    rfl
  · rw [putIndirect_indirect_of_ne hi, hleaf.indirect]
  · rw [hblock, hleaf.entry i h0 hi, indexBlock_single]
  · have hfreed := hleaf.freed seg hend
    have hcalls : (f'.putIndirect 0 a').usageCalls = f'.usageCalls := rfl
    have hbyte : (f'.putIndirect 0 a').lastByte = f.lastByte := hleaf.lastByte
    unfold singleTotal
    rw [hblock, hcalls, hbyte, hfreed, putIndirect_indirect_self, indexBlock_single]
    omega

theorem truncSingle_outside (hio : AllRead io) (hc : f.indexBlock io (-1) ≠ none) (hhit : Hits numDirectBlocks n last)
    (hout : indicesPerBlock ≤ fragElement numDirectBlocks n last) :
    f.truncIndirect io n last 0 0 numDirectBlocks = .error .outOfBounds := by
  rw [indexBlock_single] at hc
  have hn : n - numDirectBlocks ≤ indicesPerBlock := by
    obtain ⟨-, h2, h3⟩ := hhit
    omega
  unfold truncIndirect
  rw [show (-(0 + 1) : Int) = -1 from rfl, deleteLeaf_outside hio hn hc hhit hout]
  rfl

/-! ## The direct blocks -/

theorem truncDirect_ok (io : IndexIO) (hn : 0 ≤ n) (hn' : n < numDirectBlocks) (hlast : 0 ≤ last)
    (f : FileIndex) :
    ∃ calls, f.truncDirect io n last = .ok { f with
        direct := cleared n numDirectBlocks f.direct, usageCalls := f.usageCalls ++ calls } ∧
      ∀ seg, (f.lastByte < 0 → f.direct last = nilDiskAddr) →
        freedIn seg calls = arraySpace io.params seg (fun i => sizeOf io.params f.lastByte last i) 10 f.direct -
          arraySpace io.params seg (fun i => sizeOf io.params f.lastByte last i) 10
            (cleared n numDirectBlocks f.direct) := by
  have hlimit : numDirectBlocks = ((10 : Nat) : Int) := rfl
  have hlen : n + ((numDirectBlocks - n).toNat : Int) = ((10 : Nat) : Int) := by
    rw [← hlimit]
    omega
  have hsize : ∀ i, i ≠ last → sizeOf io.params f.lastByte last i = fsBlockSize := fun i hi => if_neg hi
  have hfrag : roundToBlocks io.params (f.lastByte - last * fsBlockSize + 1) = sizeOf io.params f.lastByte last last :=
    (if_pos rfl).symm
  by_cases hcond : f.lastByte ≥ 0 ∧ last < numDirectBlocks ∧ last ≥ n
  · obtain ⟨hb, hlast', hle⟩ := hcond
    obtain ⟨calls, hrest, hfreed⟩ := segUsageFreeBlocks_tail io.params fsBlockSize _ hn hlen
      (update f.direct last nilDiskAddr)
    have hclear := cleared_update hle hlast' f.direct
    rw [← hlimit, hclear] at hrest hfreed
    refine ⟨segUsageFree io.params (roundToBlocks io.params (f.lastByte - last * fsBlockSize + 1)) (f.direct last) ++ calls,
      ?_, fun seg _ => ?_⟩
    · simp only [truncDirect, if_pos (And.intro hb (And.intro hlast' hle)), segUsageFreeBlocks_one ⟨hlast, hlast'⟩,
        Except.bind, bind, hrest]
    · have hrange : 0 ≤ last ∧ last < ((10 : Nat) : Int) := ⟨hlast, hlast'⟩
      have hb := fun b : BlockArray => arraySpace_size io.params seg (fun _ => fsBlockSize)
        (fun i => sizeOf io.params f.lastByte last i) hrange (fun j hj => hsize j hj) b
      rw [freedIn_append, freedIn_free, hfreed, hfrag, hb, hb, arraySpace_update hrange, space_nil,
        cleared_of_le hle hlast', space_nil, space_nil]
      omega
  · obtain ⟨calls, hrest, hfreed⟩ := segUsageFreeBlocks_tail io.params fsBlockSize _ hn hlen f.direct
    rw [← hlimit] at hrest hfreed
    refine ⟨[] ++ calls, ?_, fun seg hempty => ?_⟩
    · simp only [truncDirect, if_neg hcond, Except.bind, bind, hrest]
    · rw [nil_append, hfreed]
      by_cases hlast' : last < numDirectBlocks
      · have hrange : 0 ≤ last ∧ last < ((10 : Nat) : Int) := ⟨hlast, hlast'⟩
        have hb := fun b : BlockArray => arraySpace_size io.params seg (fun _ => fsBlockSize)
          (fun i => sizeOf io.params f.lastByte last i) hrange (fun j hj => hsize j hj) b
        rw [hb, hb]
        by_cases hle : last < n
        · rw [cleared_of_lt hle]
          omega
        · rw [hempty (Int.not_le.mp (fun hpos => hcond ⟨hpos, hlast', by omega⟩)), cleared_of_le (by omega) hlast',
            space_nil, space_nil]
          omega
      · have hsame : ∀ b, arraySpace io.params seg (fun i => sizeOf io.params f.lastByte last i) 10 b =
            arraySpace io.params seg (fun _ => fsBlockSize) 10 b :=
          fun b => arraySpace_congr (fun i _ hi => ⟨hsize i (by omega), rfl⟩)
        rw [hsame, hsame]

theorem truncDirect_outside (hn : n < 0) (f : FileIndex) : ∃ e, f.truncDirect io n last = .error e := by
  obtain ⟨m, hm⟩ : ∃ m, (numDirectBlocks - n).toNat = m + 1 :=
    ⟨(numDirectBlocks - n).toNat - 1, by unfold numDirectBlocks; omega⟩
  have hout : ∀ b, segUsageFreeBlocks io.params numDirectBlocks fsBlockSize (numDirectBlocks - n).toNat n b =
      .error .outOfBounds := by
    intro b
    rw [hm]
    exact segUsageFreeBlocks_outside (fun h => by omega) m b
  simp only [truncDirect, bind]
  generalize (if f.lastByte ≥ 0 ∧ last < numDirectBlocks ∧ last ≥ n then _ else _ : Except Fault (BlockArray × List UsageCall)) = r
  cases r with
  | error e => exact ⟨e, rfl⟩
  | ok r =>
    refine ⟨.outOfBounds, ?_⟩
    simp only [Except.bind, hout]

end FileIndex

end SpriteKernel.Lfs
