import SpriteKernel.Ofs.Alloc
import Mathlib.Algebra.BigOperators.Group.Finset.Basic
import Mathlib.Algebra.BigOperators.Intervals

/- The bitmap by blocks and fragments, and how many bits are set in it and blocks are free. -/
namespace SpriteKernel.Ofs
open Finset

section bytes

theorem upperBlockFree_iff : ∀ b, upperBlockFree b ↔ ∀ f < 4, b.getMsbD f = false := by decide +kernel

theorem lowerBlockFree_iff : ∀ b, lowerBlockFree b ↔ ∀ f < 4, b.getMsbD (f + 4) = false := by decide +kernel

theorem upperMask_zero : ∀ b, getUpperFragMask b = 0 ↔ ∀ f < 4, b.getMsbD f = false := by decide +kernel

theorem lowerMask_zero : ∀ b, getLowerFragMask b = 0 ↔ ∀ f < 4, b.getMsbD (f + 4) = false := by decide +kernel

theorem upper_room : ∀ b, ∀ k < 3, fragOffsets (getUpperFragMask b) k ≠ -1 →
    (fragOffsets (getUpperFragMask b) k).toNat + k + 1 ≤ 4 ∧
      (∀ f < 4, (fragOffsets (getUpperFragMask b) k).toNat ≤ f → f < (fragOffsets (getUpperFragMask b) k).toNat + k + 1 →
        b.getMsbD f = false) ∧ ∃ f < 4, b.getMsbD f = true := by decide +kernel

theorem lower_room : ∀ b, ∀ k < 3, fragOffsets (getLowerFragMask b) k ≠ -1 →
    (fragOffsets (getLowerFragMask b) k).toNat + k + 1 ≤ 4 ∧
      (∀ f < 4, (fragOffsets (getLowerFragMask b) k).toNat ≤ f → f < (fragOffsets (getLowerFragMask b) k).toNat + k + 1 →
        b.getMsbD (f + 4) = false) ∧ ∃ f < 4, b.getMsbD (f + 4) = true := by decide +kernel

theorem fragBits_bit : ∀ o ≤ 8, ∀ n ≤ 8, ∀ i < 8, (fragBits o n).getMsbD i = decide (o ≤ i ∧ i < o + n) := by decide +kernel

theorem upperBits_eq : fragBits 0 4 = 0xf0#8 := by decide
theorem lowerBits_eq : fragBits 4 4 = 0x0f#8 := by decide

theorem and_eq_zero_iff (a b : Byte) : a &&& b = 0#8 ↔ ∀ i < 8, ¬ (a.getMsbD i = true ∧ b.getMsbD i = true) := by
  constructor
  · rintro h i hi ⟨ha, hb⟩
    have hbit := congrArg (fun c : Byte => c.getMsbD i) h
    simp only [BitVec.getMsbD_and, ha, hb] at hbit
    simp at hbit
  · intro h
    apply BitVec.eq_of_getMsbD_eq
    intro i hi
    have hnot := h i hi
    simp only [BitVec.getMsbD_and, BitVec.getMsbD_zero, Bool.and_eq_false_imp]
    intro ha
    simpa [ha] using hnot

theorem and_eq_right_iff (a b : Byte) : a &&& b = b ↔ ∀ i < 8, b.getMsbD i = true → a.getMsbD i = true := by
  constructor
  · intro h i hi hb
    have hbit := congrArg (fun c : Byte => c.getMsbD i) h
    simpa [hb] using hbit
  · intro h
    apply BitVec.eq_of_getMsbD_eq
    intro i hi
    have himp := h i hi
    simp only [BitVec.getMsbD_and]
    cases hb : b.getMsbD i with
    | false => simp
    | true => simp [himp hb]

end bytes

/-- The fragment has a fragment of a block. -/
def Domain.Frag.Has (p : Domain.Frag) (n f : Nat) : Prop := n = p.block ∧ p.offset ≤ f ∧ f < p.offset + p.size

instance (p : Domain.Frag) (n f : Nat) : Decidable (p.Has n f) := instDecidableAnd

/-- It lies in one block. -/
def Domain.Frag.Fits (p : Domain.Frag) : Prop := 0 < p.size ∧ p.offset + p.size ≤ 4

instance (p : Domain.Frag) : Decidable p.Fits := instDecidableAnd

namespace Header
variable (g : Header) {n m : Nat}

/-- How many blocks there are. -/
def total : Nat := g.dataCylinders * g.blocksPerCylinder

theorem offset_lt (n : Nat) : n % g.blocksPerCylinder / 2 < g.bytesPerCylinder := by
  have hlt := Nat.mod_lt n g.blocks_pos
  rw [bytesPerCylinder]
  omega

theorem getBitmapPtr_injective (hptr : g.getBitmapPtr n = g.getBitmapPtr m) (hhalf : g.isLower n ↔ g.isLower m) : n = m := by
  have hn := g.offset_lt n
  have hm := g.offset_lt m
  have heq := Int.ofNat.inj hptr
  have hpos : 0 < g.bytesPerCylinder := by omega
  have hcyl : n / g.blocksPerCylinder = m / g.blocksPerCylinder := by
    have hquot := congrArg (· / g.bytesPerCylinder) heq
    simpa only [Nat.mul_comm _ g.bytesPerCylinder, Nat.mul_add_div hpos, Nat.div_eq_of_lt hn, Nat.div_eq_of_lt hm, Nat.add_zero] using hquot
  rw [hcyl] at heq
  rw [isLower, isLower] at hhalf
  have hmod : n % g.blocksPerCylinder = m % g.blocksPerCylinder := by omega
  rw [← Nat.div_add_mod n g.blocksPerCylinder, ← Nat.div_add_mod m g.blocksPerCylinder, hcyl, hmod]

theorem byteOffset_lt {f : Nat} (hf : f < 4) (n : Nat) : g.byteOffset n f < 8 := by
  rw [byteOffset]
  split <;> omega

theorem cylinder_lt (h : n < g.total) : n / g.blocksPerCylinder < g.dataCylinders :=
  Nat.div_lt_of_lt_mul (by rwa [Nat.mul_comm])

variable {c r : Nat}

theorem block_lt (hc : c < g.dataCylinders) (hr : r < g.blocksPerCylinder) : c * g.blocksPerCylinder + r < g.total := by
  have hle : (c + 1) * g.blocksPerCylinder ≤ g.total := Nat.mul_le_mul_right _ hc
  rw [Nat.succ_mul] at hle
  omega

theorem block_div (hr : r < g.blocksPerCylinder) : (c * g.blocksPerCylinder + r) / g.blocksPerCylinder = c := by
  rw [Nat.mul_comm, Nat.mul_add_div g.blocks_pos, Nat.div_eq_of_lt hr, Nat.add_zero]

theorem block_mod (hr : r < g.blocksPerCylinder) : (c * g.blocksPerCylinder + r) % g.blocksPerCylinder = r :=
  Nat.mul_add_mod_of_lt hr

end Header

namespace Domain
variable (g : Header) (s : Domain) {n m f : Nat}

def bit (n f : Nat) : Bool := (s.bitmap (g.getBitmapPtr n)).getMsbD (g.byteOffset n f)

def BlockFree (n : Nat) : Prop := ∀ f < 4, s.bit g n f = false

instance (n : Nat) : Decidable (s.BlockFree g n) := inferInstanceAs (Decidable (∀ f < 4, _ = false))

variable {g s}

theorem setByte_same (ptr : Int) (b : Byte) : (s.setByte ptr b).bitmap ptr = b := Function.update_self _ _ _

theorem setByte_ne {ptr ptr' : Int} (h : ptr' ≠ ptr) (b : Byte) : (s.setByte ptr b).bitmap ptr' = s.bitmap ptr' :=
  Function.update_of_ne h _ _

theorem bit_congr {s' : Domain} (h : s'.bitmap = s.bitmap) (n f : Nat) : s'.bit g n f = s.bit g n f := by rw [bit, bit, h]

theorem free_upper (h : ¬ g.isLower n) : upperBlockFree (s.bitmap (g.getBitmapPtr n)) ↔ s.BlockFree g n := by
  rw [upperBlockFree_iff, BlockFree]
  simp only [bit, Header.byteOffset, if_neg h]

theorem free_lower (h : g.isLower n) : lowerBlockFree (s.bitmap (g.getBitmapPtr n)) ↔ s.BlockFree g n := by
  rw [lowerBlockFree_iff, BlockFree]
  simp only [bit, Header.byteOffset, if_pos h]

theorem fragMask_zero : g.fragMask n (s.bitmap (g.getBitmapPtr n)) = 0 ↔ s.BlockFree g n := by
  rw [Header.fragMask]
  split
  · rename_i h
    rw [lowerMask_zero, BlockFree]
    simp only [bit, Header.byteOffset, if_pos h]
  · rename_i h
    rw [upperMask_zero, BlockFree]
    simp only [bit, Header.byteOffset, if_neg h]

/-- Where the table says that there is room the bits are clear, and the block is in use. -/
theorem fragOffsets_room {k : Nat} (hk : k < 3) (h : fragOffsets (g.fragMask n (s.bitmap (g.getBitmapPtr n))) k ≠ -1) :
    (fragOffsets (g.fragMask n (s.bitmap (g.getBitmapPtr n))) k).toNat + k + 1 ≤ 4 ∧
      (∀ f < 4, (fragOffsets (g.fragMask n (s.bitmap (g.getBitmapPtr n))) k).toNat ≤ f →
        f < (fragOffsets (g.fragMask n (s.bitmap (g.getBitmapPtr n))) k).toNat + k + 1 → s.bit g n f = false) ∧
        ¬ s.BlockFree g n := by
  by_cases hlower : g.isLower n
  · have hroom := lower_room (s.bitmap (g.getBitmapPtr n)) k hk
    simp only [Header.fragMask, if_pos hlower] at h ⊢
    obtain ⟨hle, hclear, f, hf, hset⟩ := hroom h
    refine ⟨hle, ?_, fun hfree => ?_⟩
    · simp only [bit, Header.byteOffset, if_pos hlower]
      exact hclear
    · have hbit := hfree f hf
      rw [bit, Header.byteOffset, if_pos hlower, hset] at hbit
      nomatch hbit
  · have hroom := upper_room (s.bitmap (g.getBitmapPtr n)) k hk
    simp only [Header.fragMask, if_neg hlower] at h ⊢
    obtain ⟨hle, hclear, f, hf, hset⟩ := hroom h
    refine ⟨hle, ?_, fun hfree => ?_⟩
    · simp only [bit, Header.byteOffset, if_neg hlower]
      exact hclear
    · have hbit := hfree f hf
      rw [bit, Header.byteOffset, if_neg hlower, hset] at hbit
      nomatch hbit

def Frag.bits (g : Header) (p : Frag) : Byte := fragBits (g.byteOffset p.block p.offset) p.size

variable {p : Frag}

theorem Frag.bits_bit (hfits : p.Fits) (hhalf : g.isLower m ↔ g.isLower p.block) (hf : f < 4) :
    (p.bits g).getMsbD (g.byteOffset m f) = decide (p.offset ≤ f ∧ f < p.offset + p.size) := by
  obtain ⟨hpos, hle⟩ := hfits
  have hoff : g.byteOffset p.block p.offset < 8 := g.byteOffset_lt (by omega) _
  rw [Frag.bits, fragBits_bit _ (by omega) _ (by omega) _ (g.byteOffset_lt hf m)]
  apply decide_eq_decide.2
  rw [Header.byteOffset, Header.byteOffset]
  by_cases h : g.isLower m
  · rw [if_pos h, if_pos (hhalf.1 h)]
    omega
  · rw [if_neg h, if_neg (mt hhalf.2 h)]

theorem Frag.bits_other (hfits : p.Fits) (hhalf : ¬ (g.isLower m ↔ g.isLower p.block)) (hf : f < 4) :
    (p.bits g).getMsbD (g.byteOffset m f) = false := by
  obtain ⟨hpos, hle⟩ := hfits
  have hoff : g.byteOffset p.block p.offset < 8 := g.byteOffset_lt (by omega) _
  rw [Frag.bits, fragBits_bit _ (by omega) _ (by omega) _ (g.byteOffset_lt hf m)]
  apply decide_eq_false
  rw [Header.byteOffset, Header.byteOffset]
  by_cases h : g.isLower m
  · by_cases h' : g.isLower p.block
    · exact absurd ⟨fun _ => h', fun _ => h⟩ hhalf
    · rw [if_pos h, if_neg h']
      omega
  · by_cases h' : g.isLower p.block
    · rw [if_neg h, if_pos h']
      omega
    · exact absurd ⟨fun hm => absurd hm h, fun hn => absurd hn h'⟩ hhalf

theorem Frag.bits_has (hfits : p.Fits) (hptr : g.getBitmapPtr m = g.getBitmapPtr p.block) (hf : f < 4) :
    (p.bits g).getMsbD (g.byteOffset m f) = decide (p.Has m f) := by
  by_cases hhalf : g.isLower m ↔ g.isLower p.block
  · rw [Frag.bits_bit hfits hhalf hf]
    apply decide_eq_decide.2
    exact ⟨fun h => ⟨g.getBitmapPtr_injective hptr hhalf, h⟩, fun h => h.2⟩
  · rw [Frag.bits_other hfits hhalf hf]
    refine (decide_eq_false fun h => hhalf ?_).symm
    rw [h.1]

/-- The bits of a fragment are set, and nothing else in the bitmap changes. -/
structure Sets (g : Header) (p : Frag) (s s' : Domain) : Prop where
  bits : ∀ m, ∀ f < 4, s'.bit g m f = (s.bit g m f || decide (p.Has m f))
  bytes : ∀ ptr, ptr ≠ g.getBitmapPtr p.block → s'.bitmap ptr = s.bitmap ptr

structure Clears (g : Header) (p : Frag) (s s' : Domain) : Prop where
  bits : ∀ m, ∀ f < 4, s'.bit g m f = (s.bit g m f && !decide (p.Has m f))
  bytes : ∀ ptr, ptr ≠ g.getBitmapPtr p.block → s'.bitmap ptr = s.bitmap ptr

section
variable (hfits : p.Fits)
include hfits

theorem sets_or (h : s'.bitmap = (s.setByte (g.getBitmapPtr p.block) (s.bitmap (g.getBitmapPtr p.block) ||| p.bits g)).bitmap) : Sets g p s s' := by
  constructor
  · intro m f hf
    rw [bit_congr h]
    by_cases hptr : g.getBitmapPtr m = g.getBitmapPtr p.block
    · rw [bit, bit, hptr, setByte_same, BitVec.getMsbD_or, Frag.bits_has hfits hptr hf]
    · have hnot : ¬ p.Has m f := fun hhas => hptr (by rw [hhas.1])
      rw [bit, bit, setByte_ne hptr, decide_eq_false hnot, Bool.or_false]
  · intro ptr hne
    rw [h, setByte_ne hne]

theorem clears_and (h : s'.bitmap = (s.setByte (g.getBitmapPtr p.block) (s.bitmap (g.getBitmapPtr p.block) &&& ~~~ p.bits g)).bitmap) :
    Clears g p s s' := by
  constructor
  · intro m f hf
    rw [bit_congr h]
    by_cases hptr : g.getBitmapPtr m = g.getBitmapPtr p.block
    · have hlt : g.byteOffset m f < 8 := g.byteOffset_lt hf m
      rw [bit, bit, hptr, setByte_same, BitVec.getMsbD_and, BitVec.getMsbD_not, Frag.bits_has hfits hptr hf,
        decide_eq_true hlt, Bool.true_and]
    · have hnot : ¬ p.Has m f := fun hhas => hptr (by rw [hhas.1])
      rw [bit, bit, setByte_ne hptr, decide_eq_false hnot, Bool.not_false, Bool.and_true]
  · intro ptr hne
    rw [h, setByte_ne hne]

theorem Frag.bits_iff {i : Nat} (hi : i < 8) :
    (p.bits g).getMsbD i = true ↔ ∃ f < 4, i = g.byteOffset p.block f ∧ p.Has p.block f := by
  obtain ⟨hpos, hle⟩ := hfits
  have hoff : g.byteOffset p.block p.offset < 8 := g.byteOffset_lt (by omega) _
  rw [Frag.bits, fragBits_bit _ (by omega) _ (by omega) _ hi, decide_eq_true_eq]
  simp only [Header.byteOffset] at hoff ⊢
  by_cases h : g.isLower p.block
  · simp only [if_pos h] at hoff ⊢
    constructor
    · rintro ⟨hlo, hhi⟩
      exact ⟨i - 4, by omega, by omega, rfl, by omega, by omega⟩
    · rintro ⟨f, hf, rfl, -, hlo, hhi⟩
      omega
  · simp only [if_neg h]
    constructor
    · rintro ⟨hlo, hhi⟩
      exact ⟨i, by omega, rfl, rfl, hlo, hhi⟩
    · rintro ⟨f, hf, rfl, -, hlo, hhi⟩
      exact ⟨hlo, hhi⟩

theorem and_bits_zero :
    s.bitmap (g.getBitmapPtr p.block) &&& p.bits g = 0#8 ↔ ∀ f < 4, p.Has p.block f → s.bit g p.block f = false := by
  rw [and_eq_zero_iff]
  constructor
  · intro h f hf hhas
    have hnot := h (g.byteOffset p.block f) (g.byteOffset_lt hf _)
    rw [Frag.bits_has hfits rfl hf, decide_eq_true hhas] at hnot
    rw [bit]
    simpa using hnot
  · rintro h i hi ⟨hset, hbit⟩
    obtain ⟨f, hf, rfl, hhas⟩ := (Frag.bits_iff hfits hi).1 hbit
    have hclear := h f hf hhas
    rw [bit, hset] at hclear
    nomatch hclear

theorem and_bits_self :
    s.bitmap (g.getBitmapPtr p.block) &&& p.bits g = p.bits g ↔ ∀ f < 4, p.Has p.block f → s.bit g p.block f = true := by
  rw [and_eq_right_iff]
  constructor
  · intro h f hf hhas
    refine h (g.byteOffset p.block f) (g.byteOffset_lt hf _) ?_
    rw [Frag.bits_has hfits rfl hf, decide_eq_true hhas]
  · intro h i hi hbit
    obtain ⟨f, hf, rfl, hhas⟩ := (Frag.bits_iff hfits hi).1 hbit
    exact h f hf hhas

end

/-! How many bits are set in a block and in all, and how many blocks of a cylinder are free. -/

def blockCount (g : Header) (s : Domain) (n : Nat) : Nat := ∑ f ∈ range 4, if s.bit g n f then 1 else 0

def setCount (g : Header) (s : Domain) : Nat := ∑ n ∈ range g.total, s.blockCount g n

def freeCount (g : Header) (s : Domain) (c : Nat) : Nat :=
  ∑ r ∈ range g.blocksPerCylinder, if s.BlockFree g (c * g.blocksPerCylinder + r) then 1 else 0

theorem sum_change {N : Nat} {a b : Nat → Nat} (hn : n < N) (h : ∀ m < N, m ≠ n → a m = b m) :
    (∑ m ∈ range N, a m) + b n = (∑ m ∈ range N, b m) + a n := by
  rw [← add_sum_erase _ a (mem_range.2 hn), ← add_sum_erase _ b (mem_range.2 hn)]
  have hrest : ∑ m ∈ (range N).erase n, a m = ∑ m ∈ (range N).erase n, b m := by
    apply sum_congr rfl
    intro m hm
    rw [mem_erase, mem_range] at hm
    exact h m hm.2 hm.1
  omega

variable {s' : Domain}

/-- Two states that differ in one block. -/
def Off (g : Header) (n : Nat) (s s' : Domain) : Prop := ∀ m, m ≠ n → ∀ f < 4, s'.bit g m f = s.bit g m f

section
variable (h : Off g n s s')
include h

theorem Off.setCount (hn : n < g.total) :
    s'.setCount g + s.blockCount g n = s.setCount g + s'.blockCount g n := by
  apply sum_change hn
  intro m _ hne
  apply sum_congr rfl
  intro f hf
  rw [h m hne f (mem_range.1 hf)]

theorem Off.blockFree (hne : m ≠ n) : s'.BlockFree g m ↔ s.BlockFree g m := by
  constructor
  · intro hfree f hf
    rw [← h m hne f hf]
    exact hfree f hf
  · intro hfree f hf
    rw [h m hne f hf]
    exact hfree f hf

theorem Off.freeCount_ne {c : Nat} (hc : c ≠ n / g.blocksPerCylinder) : s'.freeCount g c = s.freeCount g c := by
  apply sum_congr rfl
  intro r hr
  have hne : c * g.blocksPerCylinder + r ≠ n := by
    intro heq
    rw [← heq, g.block_div (mem_range.1 hr)] at hc
    exact hc rfl
  rw [if_congr (h.blockFree hne) rfl rfl]

theorem Off.freeCount :
    s'.freeCount g (n / g.blocksPerCylinder) + (if s.BlockFree g n then 1 else 0) =
      s.freeCount g (n / g.blocksPerCylinder) + if s'.BlockFree g n then 1 else 0 := by
  have hn : n / g.blocksPerCylinder * g.blocksPerCylinder + n % g.blocksPerCylinder = n := Nat.div_add_mod' n _
  have hsum := sum_change (n := n % g.blocksPerCylinder) (N := g.blocksPerCylinder)
    (b := fun r => if s.BlockFree g (n / g.blocksPerCylinder * g.blocksPerCylinder + r) then 1 else 0)
    (Nat.mod_lt _ g.blocks_pos) fun r hr hne => by
      refine if_congr (h.blockFree fun heq => hne ?_) rfl rfl
      rw [← heq, g.block_mod hr]
  rw [hn] at hsum
  exact hsum

end

theorem Sets.off (h : Sets g p s s') : Off g p.block s s' := by
  intro m hne f hf
  rw [h.bits m f hf, decide_eq_false fun hhas => hne hhas.1, Bool.or_false]

theorem Clears.off (h : Clears g p s s') : Off g p.block s s' := by
  intro m hne f hf
  rw [h.bits m f hf, decide_eq_false fun hhas => hne hhas.1, Bool.not_false, Bool.and_true]

theorem Frag.count (hfits : p.Fits) : (∑ f ∈ range 4, if p.Has p.block f then 1 else 0) = p.size := by
  have hall : ∀ o < 4, ∀ k ≤ 4, o + k ≤ 4 → (∑ f ∈ range 4, if o ≤ f ∧ f < o + k then 1 else 0) = k := by decide
  obtain ⟨hpos, hle⟩ := hfits
  rw [← hall p.offset (by omega) p.size (by omega) hle]
  apply sum_congr rfl
  intro f _
  exact if_congr ⟨fun h => h.2, fun h => ⟨rfl, h⟩⟩ rfl rfl

theorem Sets.blockCount (h : Sets g p s s') (hfits : p.Fits) (hclear : ∀ f < 4, p.Has p.block f → s.bit g p.block f = false) :
    s'.blockCount g p.block = s.blockCount g p.block + p.size := by
  rw [Domain.blockCount, Domain.blockCount, ← Frag.count hfits, ← sum_add_distrib]
  apply sum_congr rfl
  intro f hf
  rw [h.bits _ f (mem_range.1 hf)]
  by_cases hhas : p.Has p.block f
  · rw [hclear f (mem_range.1 hf) hhas, decide_eq_true hhas, if_pos hhas]
    rfl
  · rw [decide_eq_false hhas, if_neg hhas, Bool.or_false, Nat.add_zero]

theorem Clears.blockCount (h : Clears g p s s') (hfits : p.Fits)
    (hset : ∀ f < 4, p.Has p.block f → s.bit g p.block f = true) :
    s'.blockCount g p.block + p.size = s.blockCount g p.block := by
  rw [Domain.blockCount, Domain.blockCount, ← Frag.count hfits, ← sum_add_distrib]
  apply sum_congr rfl
  intro f hf
  rw [h.bits _ f (mem_range.1 hf)]
  by_cases hhas : p.Has p.block f
  · rw [hset f (mem_range.1 hf) hhas, decide_eq_true hhas, if_pos hhas]
    rfl
  · rw [decide_eq_false hhas, if_neg hhas, Bool.not_false, Bool.and_true, Nat.add_zero]

end Domain

end SpriteKernel.Ofs
