import Mathlib.Algebra.Order.BigOperators.Group.Finset
import SpriteKernel.Lfs.FreedSpace

/- Growing the last fragment of a file (`LfsFile_GrowBlock`): the bytes the block will take more are counted in its
   segment at once, so a later free of its new size leaves nothing behind. `AccessBlock` forgets the status of
   `GrowBlock` when it has read the index block above, but all failures there are panics. -/
namespace SpriteKernel.Lfs

open Function List

open SpriteKernel

namespace FileIndex

/-! ## The routine -/

/-- How many blocks the last fragment grows by when the file ends with `newLastByte`. -/
def blocksToGrow (p : SuperBlock) (lastByte newLastByte : Int) : Int :=
  let lastFragSize := (lastByte + 1).tmod fsBlockSize
  if newLastByte > lastByte ∧ lastFragSize > 0 then
    p.bytesToBlocks (min (lastFragSize + (newLastByte - lastByte)) fsBlockSize) - p.bytesToBlocks lastFragSize
  else 0

/-- `LfsFile_GrowBlock`. `alloc` is `LfsSegUsageAllocateBytes`. -/
def fileGrowBlock (io : IndexIO) (alloc : Int → ReturnStatus) (offset numBytes : Int) (f : FileIndex) :
    ReturnStatus × FileIndex :=
  let oldSize := f.lastByte + 1
  let newLastByte := offset + numBytes - 1
  let blockNum := offset.tdiv fsBlockSize
  let oldLastBlock := oldSize.tdiv fsBlockSize
  if offset.tmod fsBlockSize = 0 ∧ offset = oldSize then (alloc numBytes, f)
  else if newLastByte > f.lastByte then
    if blocksToGrow io.params f.lastByte newLastByte > 0 then
      let bytesToGrow := io.params.blocksToBytes (blocksToGrow io.params f.lastByte newLastByte)
      let extraBytes := if oldLastBlock = blockNum then 0 else numBytes
      if alloc (bytesToGrow + extraBytes) = .success then
        let r := f.accessBlock io 2 .growAddr {} oldLastBlock bytesToGrow 0
        (r.1, r.2.2)
      else (alloc (bytesToGrow + extraBytes), f)
    else if oldLastBlock ≠ blockNum then (alloc numBytes, f)
    else (.success, f)
  else if alloc numBytes = .success then (.success, f)
  else
    let r := f.accessBlock io 2 .getAddr {} blockNum fsBlockSize 0
    (if r.1 ≠ .success ∨ r.2.1 = nilDiskAddr then .fsNoDiskSpace else .success, r.2.2)

/-- What a block takes on disk when the file ends with `lastByte`. -/
def diskSize (p : SuperBlock) (lastByte b : Int) : Int := sizeOf p lastByte (lastByte.tdiv fsBlockSize) b

/-- The data blocks are written back to new addresses, each with its size. -/
def writeBack (io : IndexIO) (lastByte : Int) (ws : List (Int × DiskAddr)) (f : FileIndex) : FileIndex :=
  ws.foldl (fun f w => (f.setIndex io { cantBlock := true } w.1 (diskSize io.params lastByte w.1) w.2).2) f

/-! ## Sizes -/

variable {p : SuperBlock} {lastByte newLastByte : Int}

theorem roundToBlocks_eq (p : SuperBlock) (n : Int) : roundToBlocks p n = p.bytesToBlocks n * p.blockSize :=
  blocksToBytes_eq p _

theorem bytesToBlocks_mono {m n : Int} (h : m ≤ n) : p.bytesToBlocks m ≤ p.bytesToBlocks n := by
  unfold SuperBlock.bytesToBlocks
  rw [Int.shiftRight_eq_div_pow, Int.shiftRight_eq_div_pow]
  exact Int.ediv_le_ediv (Int.natCast_pos.2 (Nat.two_pow_pos _)) (by omega)

theorem roundToBlocks_whole (hshift : p.blockSizeShift ≤ 12) : roundToBlocks p fsBlockSize = fsBlockSize := by
  have hpow : fsBlockSize = 2 ^ (12 - p.blockSizeShift) * p.blockSize := by
    unfold SuperBlock.blockSize
    rw [← Int.pow_add, Nat.sub_add_cancel hshift]
    rfl
  rw [roundToBlocks_eq, hpow, bytesToBlocks_mul]

theorem blocksToGrow_nonneg (p : SuperBlock) (lastByte newLastByte : Int) : 0 ≤ blocksToGrow p lastByte newLastByte := by
  unfold blocksToGrow
  dsimp only
  split
  next h =>
    have hmono : p.bytesToBlocks ((lastByte + 1).tmod fsBlockSize) ≤
        p.bytesToBlocks (min ((lastByte + 1).tmod fsBlockSize + (newLastByte - lastByte)) fsBlockSize) := by
      refine bytesToBlocks_mono (le_min (by omega) ?_)
      exact (Int.tmod_lt_of_pos _ (by decide)).le
    omega
  next => exact Int.le_refl 0

theorem diskSize_nonneg (h : -1 ≤ lastByte) (b : Int) : 0 ≤ diskSize p lastByte b := by
  unfold diskSize sizeOf
  split
  · obtain hneg | hpos := Int.lt_or_le lastByte 0
    · obtain rfl : lastByte = -1 := by omega
      change 0 ≤ p.blocksToBytes (p.bytesToBlocks 0)
      rw [p.bytesToBlocks_zero, blocksToBytes_eq, Int.zero_mul]
    · rw [Int.tdiv_eq_ediv_of_nonneg hpos]
      exact (roundToBlocks_pos (by unfold fsBlockSize; omega)).le
  · decide

theorem diskSize_grown (hshift : p.blockSizeShift ≤ 12) (hbyte : -1 ≤ lastByte) {b : Int} (h0 : 0 ≤ b)
    (hb : b * fsBlockSize ≤ lastByte) :
    diskSize p (max lastByte newLastByte) b = diskSize p lastByte b +
      if b = (lastByte + 1).tdiv fsBlockSize then p.blocksToBytes (blocksToGrow p lastByte newLastByte) else 0 := by
  have hpos : 0 ≤ lastByte := by
    unfold fsBlockSize at hb
    omega
  have hwhole := roundToBlocks_whole hshift
  obtain hlt | hle := Int.lt_or_le lastByte newLastByte
  swap
  · have hnone : blocksToGrow p lastByte newLastByte = 0 := if_neg (by omega)
    rw [max_eq_left hle, hnone, blocksToBytes_eq, Int.zero_mul, ite_self, Int.add_zero]
  rw [max_eq_right hlt.le]
  unfold diskSize sizeOf
  rw [Int.tdiv_eq_ediv_of_nonneg hpos, Int.tdiv_eq_ediv_of_nonneg (by omega), Int.tdiv_eq_ediv_of_nonneg (by omega)]
  unfold blocksToGrow
  rw [Int.tmod_eq_emod_of_nonneg (by omega), blocksToBytes_eq]
  rw [roundToBlocks_eq] at hwhole
  unfold fsBlockSize at *
  obtain hinner | hlast : b < lastByte / 4096 ∨ b = lastByte / 4096 := by omega
  · rw [if_neg (by omega), if_neg (by omega), if_neg (by omega)]
    rfl
  by_cases hfrag : (lastByte + 1) % 4096 = 0
  · -- the last block is no fragment
    have hsize : lastByte - lastByte / 4096 * 4096 + 1 = 4096 := by omega
    rw [if_neg (by omega), if_pos hlast, if_neg (by omega), hsize, roundToBlocks_eq, hwhole]
    rfl
  have hold : lastByte - lastByte / 4096 * 4096 + 1 = (lastByte + 1) % 4096 := by omega
  have hgrows : newLastByte > lastByte ∧ (lastByte + 1) % 4096 > 0 := ⟨hlt, by omega⟩
  rw [if_pos hlast, if_pos (by omega : b = (lastByte + 1) / 4096), if_pos hgrows, hold, roundToBlocks_eq, roundToBlocks_eq,
    Int.sub_mul]
  by_cases hsame : b = newLastByte / 4096
  · have hmin : min ((lastByte + 1) % 4096 + (newLastByte - lastByte)) 4096 = newLastByte - newLastByte / 4096 * 4096 + 1 := by
      omega
    rw [if_pos hsame, hmin]
    omega
  · have hmin : min ((lastByte + 1) % 4096 + (newLastByte - lastByte)) 4096 = 4096 := by
      omega
    rw [if_neg hsame, hmin, hwhole]
    omega

/-! ## Reading -/

variable {io : IndexIO} {f g : FileIndex} {b v : Int} {op : IndexOp}

/-- `g` is `f` with index blocks perhaps read into the cache. -/
structure Reads (io : IndexIO) (f g : FileIndex) : Prop where
  addrOf : ∀ d, g.addrOf io d = f.addrOf io d
  usageCalls : g.usageCalls = f.usageCalls

theorem addrOf_putIndex {e : BlockArray} (h : f.indexBlock io v = some e) (dirty : Bool) (d : Int) :
    (f.putIndex v ⟨e, dirty⟩).addrOf io d = f.addrOf io d := by
  have hother : ∀ w, w ≠ v → ∀ a, (f.putIndex v ⟨e, dirty⟩).contents io w a = f.contents io w a :=
    fun w hw => contents_congr (putIndex_cache_of_ne hw _ _)
  have hself : ∀ a, (f.putIndex v ⟨e, dirty⟩).contents io v a = some e := fun a => contents_of_cached (putIndex_cache_self _ _ _) a
  have hdouble : (f.putIndex v ⟨e, dirty⟩).contents io (-2) (f.indirect 1) = f.contents io (-2) (f.indirect 1) := by
    by_cases hv : -2 = v
    · subst hv
      rw [hself, ← indexBlock_double, h]
    · exact hother _ hv _
  have hblock : ∀ w, (f.putIndex v ⟨e, dirty⟩).indexBlock io w = f.indexBlock io w := by
    intro w
    by_cases hw : w = v
    · rw [hw, h]
      exact hself _
    · unfold FileIndex.indexBlock
      rw [hother w hw]
      unfold indexAddr
      rw [show (f.putIndex v ⟨e, dirty⟩).indirect = f.indirect from rfl, hdouble]
  unfold FileIndex.addrOf
  split
  · rfl
  · rfl
  · rw [hblock]
  · rfl

theorem place_data (h0 : 0 ≤ b) (hb : b < 524288) : place b = .direct b ∨ ∃ p i, place b = .entry p i := by
  rcases place_cases (admitted_data h0 hb) with ⟨-, h⟩ | ⟨hneg, -⟩ | rfl | ⟨k, -, -, -, h⟩ | ⟨i, -, -, -, h⟩ | ⟨k, i, -, -, -, -, -, h⟩
  · exact .inl h
  · omega
  · exact absurd h0 (by decide)
  · exact .inr ⟨_, _, h⟩
  · exact .inr ⟨_, _, h⟩
  · exact .inr ⟨_, _, h⟩

/-- What a lookup or a growth leaves, where the address is known. -/
def reached (io : IndexIO) (op : IndexOp) (b n : Int) (a : DiskAddr) (f : FileIndex) : FileIndex :=
  if op = .growAddr then (f.growBlock io b n a {}).2 else f

theorem accessEntry_data (io : IndexIO) (f : FileIndex) (b : Int) (hop : op ≠ .setAddr) (n p i a : Int) (c : CachedIndex) :
    ∃ s x, f.accessEntry io op {} b n p i a c = (s, x, reached io op b n (c.entry i) (f.putIndex p c)) := by
  cases op with
  | getAddr => exact ⟨_, _, rfl⟩
  | setAddr => exact absurd rfl hop
  | growAddr => exact ⟨_, _, rfl⟩

/-- A block is looked up or grown: the index blocks above are read, and its address is passed on. -/
theorem access_data (hio : AllRead io) (h0 : 0 ≤ b) (hb : b < 524288) (hop : op ≠ .setAddr) (n a : Int) :
    ∃ g s x, Reads io f g ∧ f.accessBlock io 2 op {} b n a = (s, x, reached io op b n (f.addrOf io b) g) := by
  have hself : Reads io f f := ⟨fun _ => rfl, rfl⟩
  have hadm := admitted_data h0 hb
  unfold FileIndex.accessBlock FileIndex.addrOf
  rw [if_neg (by omega)]
  obtain hp | ⟨p, i, hp⟩ := place_data h0 hb
  · rw [hp]
    cases op with
    | getAddr => exact ⟨f, _, _, hself, rfl⟩
    | setAddr => exact absurd rfl hop
    | growAddr => exact ⟨f, _, _, hself, rfl⟩
  rw [hp]
  simp only [not_busy (show CacheFlags.dontBlock {} = false from rfl), Bool.false_eq_true, if_false]
  cases hc : f.cache p with
  | some c =>
    obtain ⟨s, x, hacc⟩ := accessEntry_data io f b hop n p i a c
    rw [putIndex_self hc] at hacc
    refine ⟨f, s, x, hself, ?_⟩
    unfold indexBlock
    rw [contents_of_cached hc]
    exact hacc
  | none =>
    obtain ⟨f', hl, -, hacc⟩ :=
      access_parent (f := f) hio (show CacheFlags.dontBlock {} = false from rfl) (reachable_parent hadm (reachable_data f h0 hb) hp hc) 0
    simp only [hacc, ne_eq, not_true_eq_false, if_false]
    by_cases hnil : f.indexAddr io p = nilDiskAddr
    · refine ⟨f', ?_⟩
      unfold indexBlock
      rw [if_pos hnil, hnil, contents_of_nil hc]
      cases op with
      | getAddr => exact ⟨_, _, ⟨hl.addrOf, hl.usageCalls⟩, rfl⟩
      | setAddr => exact absurd rfl hop
      | growAddr => exact ⟨_, _, ⟨hl.addrOf, hl.usageCalls⟩, rfl⟩
    · obtain ⟨e, he⟩ := hio _ hnil
      have hsome : f.indexBlock io p = some e := contents_of_read hc hnil he
      obtain ⟨s, x, hentry⟩ := accessEntry_data io f' b hop n p i a ⟨e, false⟩
      refine ⟨f'.putIndex p ⟨e, false⟩, .success, x, ⟨fun d => ?_, hl.usageCalls⟩, ?_⟩
      · exact (addrOf_putIndex ((hl.indexBlock p).trans hsome) _ d).trans (hl.addrOf d)
      · rw [if_neg hnil, hsome]
        simp only [he, hentry]
        rfl

/-! ## Growing -/

theorem growBlock_addrOf (io : IndexIO) (b n : Int) (a : DiskAddr) (g : FileIndex) (d : Int) :
    (g.growBlock io b n a {}).2.addrOf io d = g.addrOf io d := by
  unfold growBlock
  dsimp only
  split_ifs <;> rfl

variable {n : Int} {a : DiskAddr}

/-- The growth is counted in the segment of the block, or the kernel panics. -/
theorem growBlock_calls (hok : (g.growBlock io b n a {}).2.panic = false) :
    (g.growBlock io b n a {}).2.usageCalls = g.usageCalls ++ segUsageFree io.params (-n) a := by
  unfold growBlock at hok ⊢
  unfold segUsageFree
  rw [not_busy (show CacheFlags.dontBlock {} = false from rfl)] at hok ⊢
  by_cases hnil : a = nilDiskAddr
  · rw [if_pos hnil, if_pos hnil, append_nil]
  rw [if_neg hnil, Int.neg_neg]
  simp only [Bool.false_eq_true, if_false] at hok ⊢
  split_ifs at hok ⊢ <;> rfl

theorem fileGrowBlock_spec (hio : AllRead io) (hbyte : -1 ≤ f.lastByte) {alloc : Int → ReturnStatus} {offset numBytes : Int}
    (hoff : 0 ≤ offset) (hnum : 0 < numBytes) (hfits : offset + numBytes ≤ 2147483648)
    (hrun : f.fileGrowBlock io alloc offset numBytes = (.success, g)) :
    ∃ g₀, Reads io f g₀ ∧ g = if blocksToGrow io.params f.lastByte (offset + numBytes - 1) > 0 then
      (g₀.growBlock io ((f.lastByte + 1).tdiv fsBlockSize)
        (io.params.blocksToBytes (blocksToGrow io.params f.lastByte (offset + numBytes - 1)))
        (f.addrOf io ((f.lastByte + 1).tdiv fsBlockSize)) {}).2 else g₀ := by
  have hself : Reads io f f := ⟨fun _ => rfl, rfl⟩
  unfold fileGrowBlock at hrun
  dsimp only at hrun
  split at hrun
  next hstart =>
    have hnone : ¬blocksToGrow io.params f.lastByte (offset + numBytes - 1) > 0 := by
      unfold blocksToGrow
      rw [← hstart.2, hstart.1, if_neg (by omega)]
      decide
    obtain ⟨-, rfl⟩ := Prod.mk.inj hrun
    exact ⟨f, hself, (if_neg hnone).symm⟩
  split at hrun
  next hend =>
    split at hrun
    next hgrow =>
      generalize (if (f.lastByte + 1).tdiv fsBlockSize = offset.tdiv fsBlockSize then 0 else numBytes) = extraBytes at hrun
      split at hrun
      swap
      · next hfail => exact absurd (Prod.mk.inj hrun).1 hfail
      obtain ⟨g₀, s, x, hg₀, hacc⟩ := access_data (f := f) (b := (f.lastByte + 1).tdiv fsBlockSize) hio
        (Int.tdiv_nonneg (by omega) (by decide))
        (by rw [Int.tdiv_eq_ediv_of_nonneg (by omega)]; unfold fsBlockSize; omega) (show IndexOp.growAddr ≠ .setAddr from nofun)
        (io.params.blocksToBytes (blocksToGrow io.params f.lastByte (offset + numBytes - 1))) 0
      rw [hacc] at hrun
      exact ⟨g₀, hg₀, (Prod.mk.inj hrun).2.symm.trans (if_pos hgrow).symm⟩
    next hnone =>
      split at hrun <;> obtain ⟨-, rfl⟩ := Prod.mk.inj hrun <;> exact ⟨f, hself, (if_neg hnone).symm⟩
  next hinside =>
    have hnone : ¬blocksToGrow io.params f.lastByte (offset + numBytes - 1) > 0 := by
      unfold blocksToGrow
      rw [if_neg (fun h => hinside h.1)]
      decide
    split at hrun
    · obtain ⟨-, rfl⟩ := Prod.mk.inj hrun
      exact ⟨f, hself, (if_neg hnone).symm⟩
    · obtain ⟨g₀, s, x, hg₀, hacc⟩ := access_data (f := f) (b := offset.tdiv fsBlockSize) hio
        (Int.tdiv_nonneg hoff (by decide))
        (by rw [Int.tdiv_eq_ediv_of_nonneg hoff]; unfold fsBlockSize; omega) (show IndexOp.getAddr ≠ .setAddr from nofun) fsBlockSize 0
      rw [hacc] at hrun
      exact ⟨g₀, hg₀, (Prod.mk.inj hrun).2.symm.trans (if_neg hnone).symm⟩

/-! ## Writing back -/

/-- What the data blocks of the file take of a segment. -/
def diskSpace (io : IndexIO) (seg lastByte : Int) (f : FileIndex) : Int :=
  arraySpace io.params seg (diskSize io.params lastByte) 524288 (f.addrOf io)

/-- What the blocks take of the segment where they are written. -/
def placed (io : IndexIO) (seg lastByte : Int) (ws : List (Int × DiskAddr)) : Int :=
  (ws.map fun w => space io.params seg (diskSize io.params lastByte w.1) w.2).sum

/-- Each data block is written once, to a segment of the log. -/
structure WritesBack (io : IndexIO) (ws : List (Int × DiskAddr)) : Prop where
  once : (ws.map Prod.fst).Nodup
  data : ∀ w ∈ ws, 0 ≤ w.1 ∧ w.1 < 524288
  valid : ∀ w ∈ ws, ValidAddr io.params w.2

variable {seg : Int} {ws : List (Int × DiskAddr)}

theorem space_add (p : SuperBlock) (seg m n : Int) (a : DiskAddr) : space p seg (m + n) a = space p seg m a + space p seg n a := by
  unfold space
  split <;> omega

theorem space_zero (p : SuperBlock) (seg : Int) (a : DiskAddr) : space p seg 0 a = 0 := ite_self 0

theorem space_nonneg (h : 0 ≤ n) (seg : Int) (a : DiskAddr) : 0 ≤ space p seg n a := by
  unfold space
  split <;> omega

theorem eq_nil_or_of_prefix {cs calls : List UsageCall} (h : cs <+: segUsageFree p n a ++ calls) :
    cs = [] ∨ ∃ t, t <+: calls ∧ cs = segUsageFree p n a ++ t := by
  unfold segUsageFree at *
  by_cases ha : a = nilDiskAddr
  · rw [if_pos ha] at *
    exact .inr ⟨cs, h, rfl⟩
  · rw [if_neg ha] at *
    obtain rfl | ⟨t, rfl, ht⟩ := prefix_cons_iff.1 h
    · exact .inl rfl
    · exact .inr ⟨t, ht, rfl⟩

theorem addrOf_setIndex (hio : AllRead io) (h0 : 0 ≤ b) (hb : b < 524288) (ha : ValidAddr io.params a) {d : Int} (hd : 0 ≤ d) (hd' : d < 524288) :
    (f.setIndex io { cantBlock := true } b n a).2.addrOf io d = update (f.addrOf io) b a d := by
  have hup := (updates_setIndex hio (show CacheFlags.dontBlock { cantBlock := true } = false from rfl) (admitted_data h0 hb) (reachable_data f h0 hb) n ha).2
  obtain rfl | hne := eq_or_ne d b
  · have hset := hup.set
    rw [lookup_data hio _ h0 hb] at hset
    rw [update_self]
    exact (Prod.mk.inj hset).2
  · have hother := hup.others d hd (admitted_data hd hd') hne ?_
    · rw [lookup_data hio _ hd hd', lookup_data hio _ hd hd'] at hother
      rw [update_of_ne hne]
      exact (Prod.mk.inj hother).2
    · -- no index block is a data block
      rintro ⟨p, i, hp, -, hpb⟩
      have hparent : p < 0 ∧ Admitted p := by
        unfold Admitted numIndirectBlocks numDirectBlocks indicesPerBlock
        rcases parent_cases (admitted_data hd hd') hp with rfl | rfl | ⟨k, hk, hk', rfl⟩
        · decide
        · decide
        · unfold indicesPerBlock at hk'
          omega
      obtain rfl | ⟨j, hj, -⟩ := hpb
      · omega
      · rcases parent_cases hparent.2 hj with rfl | rfl | ⟨k, hk, hk', rfl⟩ <;> omega

theorem writeBack_calls (hio : AllRead io) (hbyte : -1 ≤ lastByte) (hws : WritesBack io ws) :
    ∃ calls, (f.writeBack io lastByte ws).usageCalls = f.usageCalls ++ calls ∧
      (∀ seg, diskSpace io seg lastByte (f.writeBack io lastByte ws) =
        diskSpace io seg lastByte f + (placed io seg lastByte ws - freedIn seg calls)) ∧
      ∀ a : BlockArray, (∀ w ∈ ws, a w.1 = f.addrOf io w.1) → ∀ seg cs, cs <+: calls →
        freedIn seg cs ≤ arraySpace io.params seg (diskSize io.params lastByte) 524288 a := by
  induction ws generalizing f with
  | nil =>
    refine ⟨[], (append_nil _).symm, fun seg => (Int.add_zero _).symm, fun a _ seg cs hcs => ?_⟩
    rw [prefix_nil.1 hcs]
    exact Finset.sum_nonneg fun j _ => space_nonneg (diskSize_nonneg hbyte _) _ _
  | cons w ws ih =>
    obtain ⟨b, x⟩ := w
    obtain ⟨hb, hb'⟩ := hws.data _ mem_cons_self
    have hvalid := hws.valid _ mem_cons_self
    obtain ⟨hnotin, honce⟩ := nodup_cons.1 hws.once
    obtain ⟨calls, hcalls, hspace, hpre⟩ := ih (f := (f.setIndex io { cantBlock := true } b (diskSize io.params lastByte b) x).2)
      ⟨honce, fun w hw => hws.data w (mem_cons_of_mem _ hw), fun w hw => hws.valid w (mem_cons_of_mem _ hw)⟩
    have hset := fun d => addrOf_setIndex (f := f) (n := diskSize io.params lastByte b) hio hb hb' hvalid (d := d)
    have hnow := (updates_setIndex hio (show CacheFlags.dontBlock { cantBlock := true } = false from rfl) (admitted_data hb hb') (reachable_data f hb hb')
      (diskSize io.params lastByte b) hvalid).2.calls
    refine ⟨segUsageFree io.params (diskSize io.params lastByte b) (f.addrOf io b) ++ calls, ?_, fun seg => ?_, fun a ha seg cs hcs => ?_⟩
    · rw [← append_assoc, ← hnow]
      exact hcalls
    · have hstep : diskSpace io seg lastByte (f.setIndex io { cantBlock := true } b (diskSize io.params lastByte b) x).2 =
          diskSpace io seg lastByte f + (space io.params seg (diskSize io.params lastByte b) x -
            space io.params seg (diskSize io.params lastByte b) (f.addrOf io b)) := by
        unfold diskSpace
        rw [← arraySpace_update ⟨hb, hb'⟩]
        exact arraySpace_congr fun d h0 h => ⟨rfl, hset d h0 h⟩
      have hrest := hspace seg
      rw [freedIn_append, freedIn_free]
      unfold placed at *
      rw [map_cons, sum_cons]
      change diskSpace io seg lastByte (writeBack io lastByte ws (f.setIndex io { cantBlock := true } b (diskSize io.params lastByte b) x).2) =
        _ + (space io.params seg (diskSize io.params lastByte b) x + _ - _)
      omega
    · have hself : a b = f.addrOf io b := ha _ mem_cons_self
      have hcleared : arraySpace io.params seg (diskSize io.params lastByte) 524288 (update a b nilDiskAddr) =
          arraySpace io.params seg (diskSize io.params lastByte) 524288 a -
            space io.params seg (diskSize io.params lastByte b) (f.addrOf io b) := by
        rw [arraySpace_update ⟨hb, hb'⟩, space_nil, hself, Int.zero_sub]
        rfl
      have hlater := hpre (update a b nilDiskAddr) (fun w hw => ?_) seg
      · have hnonneg := space_nonneg (p := io.params) (diskSize_nonneg (p := io.params) hbyte b) seg (f.addrOf io b)
        obtain rfl | ⟨t, ht, rfl⟩ := eq_nil_or_of_prefix hcs
        · have hle := hlater [] nil_prefix
          omega
        · have hle := hlater t ht
          rw [freedIn_append, freedIn_free]
          omega
      · have hne : w.1 ≠ b := fun he => hnotin (mem_map.2 ⟨w, hw, he⟩)
        obtain ⟨h0, h⟩ := hws.data w (mem_cons_of_mem _ hw)
        rw [update_of_ne hne, ha w (mem_cons_of_mem _ hw), hset _ h0 h, update_of_ne hne]

/-! ## The space -/

/-- The bytes counted follow the blocks' space, and no segment's count of the file gets below zero. -/
structure Exact (io : IndexIO) (lastByte : Int) (ws : List (Int × DiskAddr)) (f f' : FileIndex) : Prop where
  net : ∀ seg, placed io seg lastByte ws - (freedIn seg f'.usageCalls - freedIn seg f.usageCalls) =
    diskSpace io seg lastByte f' - diskSpace io seg f.lastByte f
  unclamped : ∀ seg cs, f.usageCalls ++ cs <+: f'.usageCalls → freedIn seg cs ≤ diskSpace io seg f.lastByte f

theorem diskSpace_grown (hshift : io.params.blockSizeShift ≤ 12) (hbyte : -1 ≤ f.lastByte) (hend : NothingBehind io f)
    (hnew : newLastByte < 2147483648) (seg : Int) : diskSpace io seg (max f.lastByte newLastByte) f =
      diskSpace io seg f.lastByte f + space io.params seg (io.params.blocksToBytes (blocksToGrow io.params f.lastByte newLastByte))
        (f.addrOf io ((f.lastByte + 1).tdiv fsBlockSize)) := by
  have hgrown : diskSpace io seg (max f.lastByte newLastByte) f = arraySpace io.params seg
      (fun j => diskSize io.params f.lastByte j + if j = (f.lastByte + 1).tdiv fsBlockSize then
        io.params.blocksToBytes (blocksToGrow io.params f.lastByte newLastByte) else 0) 524288 (f.addrOf io) := by
    unfold diskSpace arraySpace
    refine Finset.sum_congr rfl fun j hj => ?_
    have hlt := Finset.mem_range.1 hj
    by_cases hin : (j : Int) * fsBlockSize ≤ f.lastByte
    · rw [diskSize_grown hshift hbyte (by omega) hin]
    · rw [hend j (by omega) (by omega) (by unfold doubleStart numDirectBlocks indicesPerBlock; omega), space_nil, space_nil]
  rw [hgrown]
  by_cases hgrow : blocksToGrow io.params f.lastByte newLastByte = 0
  · simp [hgrow, blocksToBytes_eq, space, diskSpace, arraySpace]
  · have hmore : newLastByte > f.lastByte := by
      by_contra hle
      exact hgrow (if_neg fun h => hle h.1)
    have hlast : 0 ≤ (f.lastByte + 1).tdiv fsBlockSize ∧ (f.lastByte + 1).tdiv fsBlockSize < (524288 : Nat) := by
      rw [Int.tdiv_eq_ediv_of_nonneg (by omega)]
      unfold fsBlockSize
      omega
    rw [arraySpace_size io.params seg (diskSize io.params f.lastByte) _ hlast (fun j hj => by rw [if_neg hj, Int.add_zero]), if_pos rfl,
      space_add, add_sub_cancel_left]
    rfl

theorem exact_of_calls (hio : AllRead io) (hbyte : -1 ≤ f.lastByte) (hlast : f.lastByte ≤ lastByte)
    (haddr : ∀ d, g.addrOf io d = f.addrOf io d) {x : DiskAddr}
    (hcalls : g.usageCalls = f.usageCalls ++ segUsageFree io.params n x)
    (hspace : ∀ seg, diskSpace io seg lastByte f + space io.params seg n x = diskSpace io seg f.lastByte f)
    (hws : WritesBack io ws) : Exact io lastByte ws f (g.writeBack io lastByte ws) := by
  obtain ⟨calls, hc, hmoved, hpre⟩ := writeBack_calls (f := g) hio (hbyte.trans hlast) hws
  have hsame : ∀ seg, diskSpace io seg lastByte g = diskSpace io seg lastByte f :=
    fun seg => arraySpace_congr fun d _ _ => ⟨rfl, haddr d⟩
  rw [hcalls, append_assoc] at hc
  refine ⟨fun seg => ?_, fun seg cs hcs => ?_⟩
  · have hseg := hspace seg
    rw [hc, freedIn_append, freedIn_append, freedIn_free, hmoved, hsame]
    omega
  · rw [hc, prefix_append_right_inj] at hcs
    obtain rfl | ⟨t, ht, rfl⟩ := eq_nil_or_of_prefix hcs
    · unfold diskSpace arraySpace
      exact Finset.sum_nonneg fun j _ => space_nonneg (diskSize_nonneg hbyte _) _ _
    · have hle : freedIn seg t ≤ diskSpace io seg lastByte g := hpre (g.addrOf io) (fun _ _ => rfl) seg t ht
      rw [hsame] at hle
      rw [freedIn_append, freedIn_free, ← hspace seg]
      omega

/-- A write that `LfsFile_GrowBlock` accepts, and any write-back after it, are exact. -/
theorem growBlock_exact (hio : AllRead io) (hshift : io.params.blockSizeShift ≤ 12) (hbyte : -1 ≤ f.lastByte)
    (hend : NothingBehind io f) {alloc : Int → ReturnStatus} {offset numBytes : Int} (hoff : 0 ≤ offset) (hnum : 0 < numBytes)
    (hfits : offset + numBytes ≤ 2147483648) (hrun : f.fileGrowBlock io alloc offset numBytes = (.success, g))
    (hok : g.panic = false) {ws : List (Int × DiskAddr)} (hws : WritesBack io ws) :
    Exact io (max f.lastByte (offset + numBytes - 1)) ws f (g.writeBack io (max f.lastByte (offset + numBytes - 1)) ws) := by
  obtain ⟨g₀, hg₀, rfl⟩ := fileGrowBlock_spec hio hbyte hoff hnum hfits hrun
  have hspace := diskSpace_grown hshift hbyte hend (show offset + numBytes - 1 < 2147483648 by omega)
  by_cases hgrow : blocksToGrow io.params f.lastByte (offset + numBytes - 1) > 0
  · rw [if_pos hgrow] at hok ⊢
    refine exact_of_calls hio hbyte (le_max_left _ _) (fun d => (growBlock_addrOf ..).trans (hg₀.addrOf d))
      ((growBlock_calls hok).trans (by rw [hg₀.usageCalls])) (fun seg => ?_) hws
    rw [hspace, Int.add_assoc, ← space_add, Int.add_right_neg, space_zero, Int.add_zero]
  · have hnonneg := blocksToGrow_nonneg io.params f.lastByte (offset + numBytes - 1)
    have hzero : blocksToGrow io.params f.lastByte (offset + numBytes - 1) = 0 := by omega
    rw [if_neg hgrow]
    refine exact_of_calls (n := 0) (x := nilDiskAddr) hio hbyte (le_max_left _ _) hg₀.addrOf
      (hg₀.usageCalls.trans (append_nil _).symm) (fun seg => ?_) hws
    rw [hspace, hzero, blocksToBytes_eq, Int.zero_mul, space_nil, space_zero, Int.add_zero, Int.add_zero]

/-- Block 10 of a file, of 100 bytes, grows by 1000. -/
theorem growBlock_exact_short : ∃ g, (fileOf 41059 11).fileGrowBlock smallBlocks (fun _ => .success) 41060 1000 = (.success, g) ∧
    Exact smallBlocks (max 41059 (41060 + 1000 - 1)) [(10, 20)] (fileOf 41059 11)
      (g.writeBack smallBlocks (max 41059 (41060 + 1000 - 1)) [(10, 20)]) := by
  refine ⟨_, rfl, @growBlock_exact smallBlocks (fileOf 41059 11) _ (fun _ _ => ⟨_, rfl⟩) (by decide) (by decide)
    (nothingBehind_fileOf fun d hd => by unfold fsBlockSize at hd; omega) (fun _ => .success) 41060 1000 (by decide) (by decide)
    (by decide) rfl rfl [(10, 20)] ⟨by decide, fun w hw => ?_, fun w hw => ?_⟩⟩
  · obtain rfl := mem_singleton.1 hw
    decide
  · obtain rfl := mem_singleton.1 hw
    decide

end FileIndex

end SpriteKernel.Lfs
