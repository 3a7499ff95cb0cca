import SpriteKernel.Ofs.Effect

/- Whether the free space that is counted is the free space of the bitmap. -/
namespace SpriteKernel.Ofs

open Function
open Finset

namespace Domain
variable {g : Header} {s s' : Domain} {n : Nat} {p : Frag}

/-! The routines that free. -/

theorem Gave.of_clears (h : Counted g s) (hfits : p.Fits) (hn : p.block < g.total)
    (hset : ∀ f < 4, p.Has p.block f → s.bit g p.block f = true) (hclears : Clears g p s s')
    (hkbytes : s'.numFreeKbytes = s.numFreeKbytes + p.size) (hfloor : s'.minKFree = s.minKFree)
    (hlists : ∀ i, ∀ b ∈ s'.fragLists i, b < g.total)
    (hcyl : s'.cylinders = if s'.BlockFree g p.block then
      update s.cylinders (p.block / g.blocksPerCylinder) (s.cylinders (p.block / g.blocksPerCylinder) + 1) else s.cylinders) :
    Gave g p s s' := by
  refine ⟨hfits, hn, hset, hclears, hkbytes, hfloor, h.change hclears.off hlists (fun c hc => ?_) ?_⟩
  · rw [hcyl]
    split
    · exact update_of_ne hc _ _
    · rfl
  · rw [if_neg (not_free_of_set hfits hset), hcyl]
    split
    · rw [update_self, Int.add_zero]
    · rfl

theorem ofsFragFree_gave (h : Counted g s) (hfits : p.Fits) (hn : p.block < g.total)
    (hset : ∀ f < 4, p.Has p.block f → s.bit g p.block f = true) : Gave g p s (s.ofsFragFree g p) := by
  have hall := (and_bits_self hfits).2 hset
  obtain ⟨s₁, hs₁⟩ : ∃ s₁, s₁ = { s with numFreeKbytes := s.numFreeKbytes + p.size }.setByte (g.getBitmapPtr p.block)
      (s.bitmap (g.getBitmapPtr p.block) &&& ~~~ p.bits g) := ⟨_, rfl⟩
  have hclears : Clears g p s s₁ := by
    apply clears_and hfits
    rw [hs₁]
    rfl
  have hbyte : s.bitmap (g.getBitmapPtr p.block) &&& ~~~ p.bits g = s₁.bitmap (g.getBitmapPtr p.block) := by
    rw [hs₁, setByte_same]
  have heq : s.ofsFragFree g p =
      if s₁.BlockFree g p.block then
        { s₁ with cylinders := update s₁.cylinders (p.block / g.blocksPerCylinder) (s₁.cylinders (p.block / g.blocksPerCylinder) + 1) }
      else s₁.putOnLists p.block (g.fragMask p.block (s.bitmap (g.getBitmapPtr p.block)))
        (g.fragMask p.block (s₁.bitmap (g.getBitmapPtr p.block))) := by
    have hmask : fragBits (g.byteOffset p.block p.offset) p.size = p.bits g := rfl
    simp only [ofsFragFree, hmask, ← hs₁]
    rw [if_neg (not_not.2 hall), hbyte, if_congr fragMask_zero rfl rfl]
  have hcyl : s₁.cylinders = s.cylinders := by
    rw [hs₁]
    rfl
  have hk : s₁.numFreeKbytes = s.numFreeKbytes + p.size := by
    rw [hs₁]
    rfl
  have hmin : s₁.minKFree = s.minKFree := by
    rw [hs₁]
    rfl
  have hlists : s₁.fragLists = s.fragLists := by
    rw [hs₁]
    rfl
  have hhints : ∀ i, ∀ b ∈ s₁.fragLists i, b < g.total := by
    rw [hlists]
    exact h.hints
  rw [heq]
  by_cases hfree : s₁.BlockFree g p.block
  · rw [if_pos hfree]
    refine .of_clears h hfits hn hset ⟨hclears.bits, hclears.bytes⟩ hk hmin hhints ?_
    rw [if_pos, ← hcyl]
    exact hfree
  · rw [if_neg hfree]
    refine .of_clears h hfits hn hset ⟨hclears.bits, hclears.bytes⟩ hk hmin (hints_putOnLists hhints hn) ?_
    rw [if_neg, ← hcyl]
    · rfl
    · exact hfree

/-! The free space and the set bits together do not change. -/

structure Balanced (g : Header) (s s' : Domain) : Prop where
  kbytes : s'.numFreeKbytes + s'.setCount g = s.numFreeKbytes + s.setCount g
  counted : Counted g s'

theorem Took.balanced (h : Took g p s s') : Balanced g s s' := by
  have hall := h.sets.off.setCount h.block
  have hblock := h.sets.blockCount h.fits h.clear
  have hk := h.kbytes
  exact ⟨by omega, h.counted⟩

theorem Gave.balanced (h : Gave g p s s') : Balanced g s s' := by
  have hall := h.clears.off.setCount h.block
  have hblock := h.clears.blockCount h.fits h.set
  have hk := h.kbytes
  exact ⟨by omega, h.counted⟩

theorem setCount_of_bits (h : ∀ n, ∀ f < 4, s'.bit g n f = s.bit g n f) : s'.setCount g = s.setCount g := by
  apply sum_congr rfl
  intro n _
  apply sum_congr rfl
  intro f hf
  rw [h n f (mem_range.1 hf)]

theorem setCount_congr (h : s'.bitmap = s.bitmap) : s'.setCount g = s.setCount g := setCount_of_bits fun n f _ => bit_congr h n f

theorem Kept.balanced (h : Kept g s s') : Balanced g s s' :=
  ⟨by rw [h.kbytes, setCount_congr h.bitmap], h.counted⟩

theorem Balanced.trans {s'' : Domain} (h : Balanced g s s') (h' : Balanced g s' s'') : Balanced g s s'' :=
  ⟨h'.kbytes.trans h.kbytes, h'.counted⟩

theorem onlyFrag_balanced (h : Counted g s) (hfits : p.Fits) (hn : p.block < g.total) : Balanced g s (s.onlyFrag g p).2 := by
  have hmask : fragBits (g.byteOffset p.block p.offset) p.size = p.bits g := rfl
  simp only [onlyFrag, hmask, ← Frag.full_bits]
  split
  · exact Kept.balanced (.refl h)
  · rename_i hset
    split
    · exact Kept.balanced (.refl h)
    · rename_i honly
      rw [not_not, and_bits_self hfits] at hset
      obtain ⟨s', hs'⟩ : ∃ s', s' =
          { s.setByte (g.getBitmapPtr p.block) (s.bitmap (g.getBitmapPtr p.block) ||| (Frag.full p.block).bits g) with
            numFreeKbytes := s.numFreeKbytes - (4 - p.size) } := ⟨_, rfl⟩
      have hsets : Sets g (.full p.block) s s' := by
        apply sets_or (Frag.full_fits p.block)
        rw [hs']
        rfl
      have hoff : Off g p.block s s' := hsets.off
      -- of the block the fragment alone was in use, and now all is
      have hwas : ∀ f < 4, s.bit g p.block f = decide (p.Has p.block f) := by
        intro f hf
        by_cases hhas : p.Has p.block f
        · rw [hset f hf hhas, decide_eq_true hhas]
        · rw [decide_eq_false hhas]
          have hfull : ((Frag.full p.block).bits g).getMsbD (g.byteOffset p.block f) = true := by
            rw [Frag.bits_has (m := p.block) (Frag.full_fits p.block) rfl hf]
            exact decide_eq_true (Frag.full_has hf)
          have hclear := (and_eq_zero_iff _ _).1 (not_not.1 honly) (g.byteOffset p.block f) (g.byteOffset_lt hf _)
          rw [BitVec.getMsbD_and, BitVec.getMsbD_not, Frag.bits_has hfits rfl hf, hfull, decide_eq_false hhas,
            decide_eq_true (g.byteOffset_lt hf _)] at hclear
          rw [bit]
          simpa using hclear
      have hblock : s.blockCount g p.block = p.size := by
        rw [← Frag.count hfits]
        apply sum_congr rfl
        intro f hf
        rw [hwas f (mem_range.1 hf)]
        exact if_congr decide_eq_true_iff rfl rfl
      have hblock' : s'.blockCount g p.block = 4 := by
        rw [show 4 = ∑ f ∈ range 4, 1 from rfl]
        apply sum_congr rfl
        intro f hf
        rw [hsets.bits _ f (mem_range.1 hf), decide_eq_true (Frag.full_has (mem_range.1 hf)), Bool.or_true, if_pos rfl]
      have hall := hoff.setCount hn
      have hk : s'.numFreeKbytes = s.numFreeKbytes - (4 - p.size) := by rw [hs']
      have hcyl : s'.cylinders = s.cylinders := by
        rw [hs']
        rfl
      have hnot : ¬ s'.BlockFree g p.block := hsets.not_free (Frag.full_fits p.block)
      rw [← hs']
      show Balanced g s s'
      refine ⟨by omega, h.change hoff ?_ (fun c _ => by rw [hcyl]) ?_⟩
      · rw [hs']
        exact h.hints
      · rw [if_neg (not_free_of_set hfits hset), if_neg hnot, hcyl]

/-! What `OfsBlockAllocInit` counts. -/

/-- Of cylinder `i` the first `k` blocks have been counted. -/
structure Initing (g : Header) (i k : Nat) (s s' : Domain) : Prop where
  bitmap : s'.bitmap = s.bitmap
  kbytes : s'.numFreeKbytes = s.numFreeKbytes
  floor : s'.minKFree = s.minKFree
  others : ∀ c, c ≠ i → s'.cylinders c = s.cylinders c
  count : s'.cylinders i = (∑ r ∈ range k, if s.BlockFree g (i * g.blocksPerCylinder + r) then 1 else 0 : Nat)
  hints : ∀ j, ∀ b ∈ s'.fragLists j, b < g.total

section init
variable {i k : Nat}

theorem Initing.initBlock (h : Initing g i k s s') (hi : i < g.dataCylinders) (hk : k < g.blocksPerCylinder) {m : Nat}
    (hmask : m = 0 ↔ s.BlockFree g (i * g.blocksPerCylinder + k)) :
    Initing g i (k + 1) s (s'.initBlock i (i * g.blocksPerCylinder + k) m) := by
  rw [Domain.initBlock]
  split
  · rename_i hfree
    refine ⟨h.bitmap, h.kbytes, h.floor, fun c hc => ?_, ?_, h.hints⟩
    · rw [← h.others c hc]
      exact update_of_ne hc _ _
    · rw [sum_range_succ, if_pos (hmask.1 hfree)]
      have hcount := h.count
      show update s'.cylinders i (s'.cylinders i + 1) i = _
      rw [update_self]
      omega
  · rename_i hused
    refine ⟨h.bitmap, h.kbytes, h.floor, h.others, ?_, fun j b hb => ?_⟩
    · rw [sum_range_succ, if_neg (mt hmask.2 hused), Nat.add_zero]
      exact h.count
    · dsimp only at hb
      split at hb
      · rcases List.mem_append.1 hb with hb | hb
        · exact h.hints j b hb
        · rw [List.mem_singleton.1 hb]
          exact g.block_lt hi hk
      · exact h.hints j b hb

theorem Initing.initByte {j : Nat} (h : Initing g i (2 * j) s s') (hi : i < g.dataCylinders) (hj : j < g.bytesPerCylinder) :
    Initing g i (min (2 * (j + 1)) g.blocksPerCylinder) s (s'.initByte g i j) := by
  rw [Header.bytesPerCylinder] at hj
  have hlt : 2 * j < g.blocksPerCylinder := by omega
  have hupper := (h.initBlock hi hlt (m := getUpperFragMask (s.bitmap (i * g.bytesPerCylinder + j : Nat))) (by
    rw [upperMask_zero, ← upperBlockFree_iff]
    have hfree := freeAt_upper (s := s) (c := i) hlt (by omega)
    rw [Nat.mul_div_cancel_left j (by decide)] at hfree
    rw [hfree]
    exact ⟨fun hat => hat.2, fun hat => ⟨hlt, hat⟩⟩))
  rw [Domain.initByte, h.bitmap, Nat.mul_comm j 2]
  split
  · have hmin : min (2 * (j + 1)) g.blocksPerCylinder = 2 * j + 1 := by
      rename_i hlast
      rw [Header.bytesPerCylinder] at hlast
      omega
    rw [hmin]
    exact hupper
  · have hlt' : 2 * j + 1 < g.blocksPerCylinder := by
      rename_i hlast
      rw [Header.bytesPerCylinder] at hlast
      omega
    have hmin : min (2 * (j + 1)) g.blocksPerCylinder = 2 * j + 1 + 1 := by omega
    rw [hmin]
    refine hupper.initBlock hi hlt' ?_
    rw [lowerMask_zero, ← lowerBlockFree_iff]
    have hfree := freeAt_lower (s := s) (c := i) hlt' (by omega)
    rw [show (2 * j + 1) / 2 = j by omega] at hfree
    rw [hfree]
    exact ⟨fun hat => hat.2, fun hat => ⟨hlt', hat⟩⟩

theorem initBytes (h : Initing g i 0 s s') (hi : i < g.dataCylinders) {m : Nat} (hm : m ≤ g.bytesPerCylinder) :
    Initing g i (min (2 * m) g.blocksPerCylinder) s ((List.range m).foldl (fun s j => s.initByte g i j) s') := by
  induction m with
  | zero => simpa using h
  | succ m ih =>
    have hbefore := ih (by omega)
    have hmin : min (2 * m) g.blocksPerCylinder = 2 * m := by
      rw [Header.bytesPerCylinder] at hm
      omega
    rw [hmin] at hbefore
    rw [List.range_succ, List.foldl_append]
    exact hbefore.initByte hi hm

theorem initCylinder_counts (hi : i < g.dataCylinders) (hints : ∀ j, ∀ b ∈ s.fragLists j, b < g.total) :
    Initing g i g.blocksPerCylinder s (s.initCylinder g i) := by
  have hstart : Initing g i 0 s { s with cylinders := update s.cylinders i 0 } :=
    ⟨rfl, rfl, rfl, fun c hc => update_of_ne hc _ _, update_self _ _ _, hints⟩
  have hall := initBytes hstart hi (Nat.le_refl _)
  have hmin : min (2 * g.bytesPerCylinder) g.blocksPerCylinder = g.blocksPerCylinder := by
    rw [Header.bytesPerCylinder]
    omega
  rw [hmin] at hall
  exact hall

end init

/-- The first `m` cylinders have been counted. -/
structure Inited (g : Header) (m : Nat) (s s' : Domain) : Prop where
  bitmap : s'.bitmap = s.bitmap
  kbytes : s'.numFreeKbytes = s.numFreeKbytes
  floor : s'.minKFree = s.minKFree
  counts : ∀ c < m, s'.cylinders c = s.freeCount g c
  hints : ∀ j, ∀ b ∈ s'.fragLists j, b < g.total

theorem initCylinders (hints : ∀ j, ∀ b ∈ s.fragLists j, b < g.total) {m : Nat} (hm : m ≤ g.dataCylinders) :
    Inited g m s ((List.range m).foldl (fun s i => s.initCylinder g i) s) := by
  induction m with
  | zero => exact ⟨rfl, rfl, rfl, fun c hc => absurd hc (Nat.not_lt_zero c), hints⟩
  | succ m ih =>
    have hbefore := ih (by omega)
    have hnext := initCylinder_counts (i := m) hm hbefore.hints
    rw [List.range_succ, List.foldl_append]
    refine ⟨hnext.bitmap.trans hbefore.bitmap, hnext.kbytes.trans hbefore.kbytes, hnext.floor.trans hbefore.floor, fun c hc => ?_,
      hnext.hints⟩
    rcases Nat.lt_succ_iff_lt_or_eq.1 hc with hlt | rfl
    · exact (hnext.others c (Nat.ne_of_lt hlt)).trans (hbefore.counts c hlt)
    · rw [← freeCount_congr hbefore.bitmap]
      exact hnext.count

/-- **`OfsBlockAllocInit`** counts what is free, of any bitmap. -/
theorem ofsBlockAllocInit_counted (bitmap : Int → Byte) (numFreeKbytes : Int) :
    Counted g (ofsBlockAllocInit g bitmap numFreeKbytes) ∧ (ofsBlockAllocInit g bitmap numFreeKbytes).bitmap = bitmap := by
  have hall := initCylinders (s :=
    { bitmap := bitmap, cylinders := fun _ => 0, fragLists := fun _ => [], numFreeKbytes := numFreeKbytes
      minKFree := (g.dataBlocks * 4 / ofsPercentFree : Nat) }) (fun _ _ hb => nomatch hb) (Nat.le_refl g.dataCylinders)
  refine ⟨⟨fun c hc => ?_, hall.hints⟩, hall.bitmap⟩
  have hcount : (ofsBlockAllocInit g bitmap numFreeKbytes).freeCount g c = _ := freeCount_congr hall.bitmap c
  rw [hcount]
  exact hall.counts c hc

/-! Runs of the five routines, with CONTIGUOUS allocation. -/

inductive Call where
  | blockFind (hashSeed : Int) (near : Option Nat)
  | fragFind (hashSeed : Int) (numFrags : Nat) (last : Option Frag)
  | blockFree (n : Nat)
  | fragFree (p : Frag)
  | onlyFrag (p : Frag)

namespace Call

def apply (g : Header) (s : Domain) : Call → Domain
  | blockFind hashSeed near => (s.ofsBlockFind g 0 hashSeed near true).2
  | fragFind hashSeed numFrags last => (s.ofsFragFind g 0 hashSeed numFrags last).2
  | blockFree n => s.ofsBlockFree g n
  | fragFree p => s.ofsFragFree g p
  | onlyFrag p => (s.onlyFrag g p).2

/-- All its bits are set. -/
def Used (g : Header) (s : Domain) (p : Frag) : Prop := ∀ f < 4, p.Has p.block f → s.bit g p.block f = true

instance (s : Domain) (p : Frag) : Decidable (Used g s p) := inferInstanceAs (Decidable (∀ f < 4, _))

/-- The arguments are blocks and fragments of the disk, and a file has its last fragment. -/
def Legal (g : Header) (s : Domain) : Call → Prop
  | blockFind _ near => ∀ n, near = some n → n < g.total
  | fragFind _ numFrags last =>
    0 < numFrags ∧ numFrags ≤ 3 ∧ ∀ p, last = some p → p.Fits ∧ p.block < g.total ∧ p.size < numFrags ∧ Used g s p
  | blockFree n => n < g.total
  | fragFree p => p.Fits ∧ p.block < g.total
  | onlyFrag p => p.Fits ∧ p.block < g.total

def OfUsed (g : Header) (s : Domain) : Call → Prop
  | blockFree n => Used g s (.full n)
  | fragFree p => Used g s p
  | _ => True

theorem balanced (h : Counted g s) {c : Call} (hlegal : c.Legal g s) (hused : c.OfUsed g s) : Balanced g s (c.apply g s) := by
  cases c with
  | blockFind hashSeed near =>
    have hfits : FindFits g s 0 hashSeed near := fun _ _ => .inl rfl
    rcases ofsBlockFind_cases h hlegal hfits with ⟨heq, -⟩ | ⟨n, s', heq, -, htook⟩
    · rw [apply, heq]
      exact Kept.balanced (.refl h)
    · rw [apply, heq]
      exact htook.balanced
  | fragFind hashSeed numFrags last =>
    obtain ⟨hpos, hsize, hlast⟩ := hlegal
    rw [apply]
    rcases ofsFragFind_cases h hashSeed (Nat.zero_le 1) hpos hsize (fun p hp => by
      obtain ⟨hfits, hn, hlt, hset⟩ := hlast p hp
      exact ⟨hfits, hn, hlt, not_free_of_set hfits hset⟩) with ⟨s', heq, hkept⟩ | ⟨p, s', -, heq, htook⟩ | ⟨n, s', off, heq, htook⟩
    · rw [heq]
      exact hkept.balanced
    · rw [heq]
      exact htook.balanced
    · rw [heq]
      exact htook.balanced
  | blockFree n => exact (ofsBlockFree_gave h hlegal fun f hf => hused f hf (Frag.full_has hf)).balanced
  | fragFree p => exact (ofsFragFree_gave h hlegal.1 hlegal.2 hused).balanced
  | onlyFrag p => exact onlyFrag_balanced h hlegal.1 hlegal.2

theorem drifts {c : Call} (hlegal : c.Legal g s) (hused : ¬ c.OfUsed g s) :
    (c.apply g s).bitmap = s.bitmap ∧ s.numFreeKbytes < (c.apply g s).numFreeKbytes := by
  cases c with
  | blockFree n =>
    obtain ⟨hmask, hcheck⟩ := full_masks g n
    have hnot : s.bitmap (g.getBitmapPtr n) &&& (Frag.full n).bits g ≠ (Frag.full n).bits g :=
      fun hall => hused ((and_bits_self (Frag.full_fits n)).1 hall)
    simp only [apply, ofsBlockFree, hmask, hcheck]
    rw [if_pos hnot]
    exact ⟨rfl, by show _ < _ + _; omega⟩
  | fragFree p =>
    have hbits : fragBits (g.byteOffset p.block p.offset) p.size = p.bits g := rfl
    have hnot : s.bitmap (g.getBitmapPtr p.block) &&& p.bits g ≠ p.bits g := fun hall => hused ((and_bits_self hlegal.1).1 hall)
    have hpos := hlegal.1.1
    simp only [apply, ofsFragFree, hbits]
    rw [if_pos hnot]
    exact ⟨rfl, by show _ < _ + (p.size : Int); omega⟩
  | blockFind _ _ => exact absurd trivial hused
  | fragFind _ _ _ => exact absurd trivial hused
  | onlyFrag _ => exact absurd trivial hused

end Call

/-- What is reached from a state by calls of the routines that free nothing that is not in
    use. -/
inductive Reached (g : Header) (s : Domain) : Domain → Prop
  | start : Reached g s s
  | call {s' : Domain} {c : Call} : Reached g s s' → c.Legal g s' → c.OfUsed g s' → Reached g s (c.apply g s')

theorem Reached.balanced (h : Reached g s s') (hcounted : Counted g s) : Balanced g s s' := by
  induction h with
  | start => exact Kept.balanced (.refl hcounted)
  | call _ hlegal hused ih => exact ih.trans (Call.balanced ih.counted hlegal hused)

/-- The counters match the bitmap, as they did before. -/
def Matches (g : Header) (s s' : Domain) : Prop :=
  s'.numFreeKbytes - s.numFreeKbytes = (s.setCount g : Int) - s'.setCount g ∧ ∀ c < g.dataCylinders, s'.cylinders c = s'.freeCount g c

/-- **The counters of free space match the bitmap** up to the first free of space that is not in use. -/
theorem free_space_matches {bitmap : Int → Byte} {numFreeKbytes : Int}
    (h : Reached g (ofsBlockAllocInit g bitmap numFreeKbytes) s) :
    Matches g (ofsBlockAllocInit g bitmap numFreeKbytes) s ∧
      ∀ c : Call, c.Legal g s → (Matches g (ofsBlockAllocInit g bitmap numFreeKbytes) (c.apply g s) ↔ c.OfUsed g s) := by
  have hbalanced := h.balanced (ofsBlockAllocInit_counted bitmap numFreeKbytes).1
  have hkbytes := hbalanced.kbytes
  refine ⟨⟨by omega, hbalanced.counted.cylinders⟩, fun c hlegal => ⟨fun hmatches => ?_, fun hused => ?_⟩⟩
  · by_contra hunused
    obtain ⟨hbitmap, hlt⟩ := Call.drifts hlegal hunused
    have hdiff := hmatches.1
    rw [setCount_congr hbitmap] at hdiff
    omega
  · have hnext := (Call.balanced hbalanced.counted hlegal hused).kbytes
    exact ⟨by omega, (Call.balanced hbalanced.counted hlegal hused).counted.cylinders⟩

theorem small_cylinder : 0 < 3 := by decide

/-- Two cylinders of three blocks. -/
def smallDisk : Header := ⟨3, 2, 6, small_cylinder, Nat.two_pos⟩

/-- None of its space is in use. -/
def emptyDisk : Domain := ofsBlockAllocInit smallDisk (fun _ => 0) 24

theorem free_space_matches_small :
    Reached smallDisk emptyDisk ((Call.fragFind 0 2 none).apply smallDisk ((Call.blockFind 0 none).apply smallDisk emptyDisk)) ∧
      Matches smallDisk emptyDisk
        ((Call.fragFind 0 2 none).apply smallDisk ((Call.blockFind 0 none).apply smallDisk emptyDisk)) := by
  have hrun : Reached smallDisk emptyDisk
      ((Call.fragFind 0 2 none).apply smallDisk ((Call.blockFind 0 none).apply smallDisk emptyDisk)) :=
    .call (.call .start (fun _ h => nomatch h) trivial) ⟨by decide, by decide, fun _ h => nomatch h⟩ trivial
  exact ⟨hrun, (free_space_matches hrun).1⟩

/-- A free of a block that is free is counted twice over, in the free space and in the
    cylinder. -/
theorem free_block_counted :
    (Call.blockFree 0).Legal smallDisk emptyDisk ∧ ¬ Matches smallDisk emptyDisk ((Call.blockFree 0).apply smallDisk emptyDisk) ∧
      ((Call.blockFree 0).apply smallDisk emptyDisk).numFreeKbytes = 28 ∧
        ((Call.blockFree 0).apply smallDisk emptyDisk).cylinders 0 = 4 := by
  refine ⟨show 0 < 6 by decide, fun h => ?_, rfl, rfl⟩
  have hdiff := h.1
  exact absurd hdiff (by decide)

end Domain

end SpriteKernel.Ofs
