import SpriteKernel.Ofs.Bits
import Mathlib.Algebra.Order.BigOperators.Group.Finset

/- What the search for a free block finds (`findBlockInt_cases`). -/
namespace SpriteKernel.Ofs
open Finset

namespace Domain
variable {g : Header} {s : Domain}

def Frag.full (n : Nat) : Frag := ⟨n, 0, 4⟩

theorem Frag.full_fits (n : Nat) : (Frag.full n).Fits := ⟨Nat.zero_lt_succ 3, Nat.le_refl 4⟩

theorem Frag.full_has {n f : Nat} (hf : f < 4) : (Frag.full n).Has n f := ⟨rfl, Nat.zero_le _, by show f < 0 + 4; omega⟩

theorem Frag.full_bits (g : Header) (n : Nat) : (Frag.full n).bits g = if g.isLower n then 0x0f#8 else 0xf0#8 := by
  show fragBits (g.byteOffset n 0) 4 = _
  rw [Header.byteOffset]
  split
  · exact lowerBits_eq
  · exact upperBits_eq

/-- The cylinder counts are right, and the lists are of blocks that there are. -/
structure Counted (g : Header) (s : Domain) : Prop where
  cylinders : ∀ c < g.dataCylinders, s.cylinders c = s.freeCount g c
  hints : ∀ i, ∀ b ∈ s.fragLists i, b < g.total

section cylinder
variable {c : Nat}

variable {r : Nat}

theorem ptr_eq (hr : r < g.blocksPerCylinder) :
    g.getBitmapPtr (c * g.blocksPerCylinder + r) = (c * g.bytesPerCylinder + r / 2 : Nat) := by
  rw [Header.getBitmapPtr, g.block_div hr, g.block_mod hr]

theorem isLower_iff (hr : r < g.blocksPerCylinder) : g.isLower (c * g.blocksPerCylinder + r) ↔ r % 2 = 1 := by
  rw [Header.isLower, g.block_mod hr]

/-- Block `r` of a cylinder is free. -/
def FreeAt (g : Header) (s : Domain) (c r : Nat) : Prop := r < g.blocksPerCylinder ∧ s.BlockFree g (c * g.blocksPerCylinder + r)

instance (c r : Nat) : Decidable (FreeAt g s c r) := instDecidableAnd

theorem freeAt_upper (hr : r < g.blocksPerCylinder) (heven : r % 2 = 0) :
    upperBlockFree (s.bitmap (c * g.bytesPerCylinder + r / 2 : Nat)) ↔ FreeAt g s c r := by
  rw [← ptr_eq hr, free_upper (by rw [isLower_iff hr]; omega)]
  exact ⟨fun h => ⟨hr, h⟩, fun h => h.2⟩

theorem freeAt_lower (hr : r < g.blocksPerCylinder) (hodd : r % 2 = 1) :
    lowerBlockFree (s.bitmap (c * g.bytesPerCylinder + r / 2 : Nat)) ↔ FreeAt g s c r := by
  rw [← ptr_eq hr, free_lower (by rw [isLower_iff hr]; exact hodd)]
  exact ⟨fun h => ⟨hr, h⟩, fun h => h.2⟩

theorem exists_freeAt (h : 0 < s.freeCount g c) : ∃ r, FreeAt g s c r := by
  by_contra hno
  have hzero : s.freeCount g c = 0 := by
    apply sum_eq_zero
    intro r hr
    exact if_neg fun hfree => hno ⟨r, mem_range.1 hr, hfree⟩
  omega

variable {fuel : Nat}

theorem contiguous_finds {j : Nat} (hr : FreeAt g s c r) (hj : 2 * j ≤ r) (hfuel : r / 2 - j < fuel) :
    ∃ r', FreeAt g s c r' ∧
      contiguous s.bitmap fuel (c * g.bytesPerCylinder + j : Nat) (c * g.blocksPerCylinder + 2 * j) =
        .found (c * g.blocksPerCylinder + r') (g.getBitmapPtr (c * g.blocksPerCylinder + r'))
          ((Frag.full (c * g.blocksPerCylinder + r')).bits g) := by
  induction fuel generalizing j with
  | zero => exact absurd hfuel (Nat.not_lt_zero _)
  | succ fuel ih =>
    have hlt := hr.1
    have hupper := freeAt_upper (s := s) (c := c) (r := 2 * j) (g := g) (by omega) (by omega)
    rw [Nat.mul_div_cancel_left j (by decide)] at hupper
    rw [contiguous]
    by_cases hfree : FreeAt g s c (2 * j)
    · rw [if_pos (hupper.2 hfree)]
      refine ⟨2 * j, hfree, ?_⟩
      rw [ptr_eq hfree.1, Frag.full_bits, if_neg (by rw [isLower_iff hfree.1]; omega), Nat.mul_div_cancel_left j (by decide)]
    · rw [if_neg fun h => hfree (hupper.1 h)]
      -- the block that is free is not this one, so that the lower half is not padding
      have hne : r ≠ 2 * j := fun heq => hfree (heq ▸ hr)
      have hlower := freeAt_lower (s := s) (c := c) (r := 2 * j + 1) (g := g) (by omega) (by omega)
      have hhalf : (2 * j + 1) / 2 = j := by omega
      rw [hhalf] at hlower
      by_cases hfree' : FreeAt g s c (2 * j + 1)
      · rw [if_pos (hlower.2 hfree')]
        refine ⟨2 * j + 1, hfree', ?_⟩
        rw [ptr_eq hfree'.1, Frag.full_bits, if_pos (by rw [isLower_iff hfree'.1]; omega), hhalf, Nat.add_assoc]
      · rw [if_neg fun h => hfree' (hlower.1 h)]
        have hne' : r ≠ 2 * j + 1 := fun heq => hfree' (heq ▸ hr)
        obtain ⟨r', hr', heq⟩ := @ih (j + 1) (by omega) (by omega)
        refine ⟨r', hr', ?_⟩
        rw [← heq]
        rfl

variable {start b : Nat}

theorem skipBlock_turn (hb : b < g.blocksPerCylinder) (hstart : b ≠ start) (hfree : ¬ FreeAt g s c b) :
    skipBlock g s.bitmap start (fuel + 1) b (c * g.bytesPerCylinder + b / 2 : Nat) =
      skipBlock g s.bitmap start fuel (b + 1) (c * g.bytesPerCylinder + (b + 1) / 2 : Nat) := by
  have hptr : (if b % 2 = 1 then ((c * g.bytesPerCylinder + b / 2 : Nat) : Int) + 1 else (c * g.bytesPerCylinder + b / 2 : Nat)) =
      (c * g.bytesPerCylinder + (b + 1) / 2 : Nat) := by
    split
    · have hhalf : (b + 1) / 2 = b / 2 + 1 := by omega
      rw [hhalf]
      rfl
    · have hhalf : (b + 1) / 2 = b / 2 := by omega
      rw [hhalf]
  rw [skipBlock, if_neg hstart]
  simp only [if_neg (Nat.not_le.2 hb)]
  rw [if_neg fun h => hfree ((freeAt_upper hb h.1).1 h.2), if_neg fun h => hfree ((freeAt_lower hb h.1).1 h.2), hptr]

theorem skipBlock_finds (hr : FreeAt g s c r) (hb : b ≤ r) (hstart : start < b ∨ r < start)
    (hfuel : r - b < fuel) :
    ∃ r', FreeAt g s c r' ∧
      skipBlock g s.bitmap start fuel b (c * g.bytesPerCylinder + b / 2 : Nat) =
        .found r' (g.getBitmapPtr (c * g.blocksPerCylinder + r')) ((Frag.full (c * g.blocksPerCylinder + r')).bits g) := by
  induction fuel generalizing b with
  | zero => exact absurd hfuel (Nat.not_lt_zero _)
  | succ fuel ih =>
    have hlt : b < g.blocksPerCylinder := Nat.lt_of_le_of_lt hb hr.1
    by_cases hfree : FreeAt g s c b
    · refine ⟨b, hfree, ?_⟩
      rw [skipBlock, if_neg (show b ≠ start by omega)]
      simp only [if_neg (Nat.not_le.2 hlt)]
      rw [ptr_eq hlt, Frag.full_bits]
      rcases Nat.mod_two_eq_zero_or_one b with heven | hodd
      · rw [if_pos ⟨heven, (freeAt_upper hlt heven).2 hfree⟩, if_neg (by rw [isLower_iff hlt]; omega)]
      · rw [if_neg (by omega), if_pos ⟨hodd, (freeAt_lower hlt hodd).2 hfree⟩, if_pos ((isLower_iff hlt).2 hodd)]
    · have hne : r ≠ b := fun heq => hfree (heq ▸ hr)
      rw [skipBlock_turn hlt (by omega) hfree]
      exact @ih (b + 1) (by omega) (by omega) (by omega)

theorem skipBlock_pass (hnone : ∀ r, b ≤ r → ¬ FreeAt g s c r) (hb : b ≤ g.blocksPerCylinder) (hstart : start < b) :
    skipBlock g s.bitmap start (fuel + (g.blocksPerCylinder - b)) b (c * g.bytesPerCylinder + b / 2 : Nat) =
      skipBlock g s.bitmap start fuel g.blocksPerCylinder (c * g.bytesPerCylinder + g.blocksPerCylinder / 2 : Nat) := by
  obtain ⟨n, hn⟩ : ∃ n, n = g.blocksPerCylinder - b := ⟨_, rfl⟩
  rw [← hn]
  induction n generalizing b with
  | zero =>
    have heq : b = g.blocksPerCylinder := by omega
    rw [heq]
    rfl
  | succ n ih =>
    rw [← Nat.add_assoc, skipBlock_turn (by omega) (by omega) (hnone b (Nat.le_refl _))]
    exact ih (fun r hr => hnone r (by omega)) (by omega) (by omega) (by omega)

theorem skipBlock_wrap (hb : g.blocksPerCylinder ≤ b) (hlt : b - g.blocksPerCylinder < g.blocksPerCylinder)
    (hne : b ≠ start) (hne' : b - g.blocksPerCylinder ≠ start) (ptr : Int) :
    skipBlock g s.bitmap start (fuel + 1) b ptr =
      skipBlock g s.bitmap start (fuel + 1) (b - g.blocksPerCylinder) (ptr - g.bytesPerCylinder) := by
  rw [skipBlock, skipBlock, if_neg hne, if_neg hne']
  simp only [if_pos hb, if_neg (Nat.not_le.2 hlt)]

/-- SKIP BLOCK allocation gets to a free block not just behind the near one, where it does not look; after the end of
    a cylinder of an odd number of blocks it is wrong. -/
def SkipFits (g : Header) (s : Domain) (c near : Nat) : Prop :=
  (∃ r, FreeAt g s c r ∧ near % g.blocksPerCylinder + 2 ≤ r) ∨
    (g.blocksPerCylinder % 2 = 0 ∨ near % g.blocksPerCylinder + 1 = g.blocksPerCylinder) ∧
      ∃ r, FreeAt g s c r ∧ r ≠ (near % g.blocksPerCylinder + 1) % g.blocksPerCylinder

theorem SkipFits.finds {near : Nat} (h : SkipFits g s c near) :
    ∃ r, FreeAt g s c r ∧
      skipBlock g s.bitmap (near % g.blocksPerCylinder + 1) (2 * g.blocksPerCylinder + 2) (near % g.blocksPerCylinder + 1 + 1)
          (c * g.bytesPerCylinder + (near % g.blocksPerCylinder + 1 + 1) / 2 : Nat) =
        .found r (g.getBitmapPtr (c * g.blocksPerCylinder + r)) ((Frag.full (c * g.blocksPerCylinder + r)).bits g) := by
  have ho := Nat.mod_lt near g.blocks_pos
  revert h ho
  rw [SkipFits]
  generalize near % g.blocksPerCylinder = o
  intro h ho
  by_cases hahead : ∃ r, FreeAt g s c r ∧ o + 2 ≤ r
  · obtain ⟨r, hr, hle⟩ := hahead
    have hlt := hr.1
    exact skipBlock_finds hr hle (.inl (by omega)) (by omega)
  · rcases h with hahead' | ⟨hend, r, hr, hne⟩
    · exact absurd hahead' hahead
    · have hlt := hr.1
      by_cases hlast : o + 1 = g.blocksPerCylinder
      · rw [hlast, Nat.mod_self] at hne
        have hbytes : ((c * g.bytesPerCylinder + (g.blocksPerCylinder + 1) / 2 : Nat) : Int) - g.bytesPerCylinder =
            (c * g.bytesPerCylinder + 1 / 2 : Nat) := by
          rw [Header.bytesPerCylinder]
          omega
        have hone : g.blocksPerCylinder + 1 - g.blocksPerCylinder = 1 := by omega
        rw [hlast, skipBlock_wrap (by omega) (by omega) (by omega) (by omega), hbytes, hone]
        exact skipBlock_finds hr (by omega) (.inr hlt) (by omega)
      · -- it comes to the end of the cylinder first
        rw [Nat.mod_eq_of_lt (by omega)] at hne
        have hbefore : r < o + 1 := by
          by_contra hnot
          exact hahead ⟨r, hr, by omega⟩
        have hfuel : 2 * g.blocksPerCylinder + 2 = (g.blocksPerCylinder + 3 + o) + 1 + (g.blocksPerCylinder - (o + 1 + 1)) := by omega
        have hbytes : ((c * g.bytesPerCylinder + g.blocksPerCylinder / 2 : Nat) : Int) - g.bytesPerCylinder =
            (c * g.bytesPerCylinder + 0 / 2 : Nat) := by
          rw [Header.bytesPerCylinder]
          omega
        rw [hfuel, skipBlock_pass (fun r' hle hfree => hahead ⟨r', hfree, by omega⟩) (by omega) (by omega),
          skipBlock_wrap (Nat.le_refl _) (by omega) (by omega) (by omega), hbytes, Nat.sub_self]
        exact skipBlock_finds hr (Nat.zero_le _) (.inr hbefore) (by omega)

/-- A cylinder is searched from the beginning, or by SKIP BLOCK allocation where that gets to a block. -/
def SearchFits (g : Header) (s : Domain) (allocGap : Nat) (near : Option Nat) (c : Nat) : Prop :=
  allocGap = 0 ∨ allocGap = 1 ∧ ∀ n, near = some n → SkipFits g s c n

theorem searchCylinder_finds {allocGap : Nat} {near : Option Nat} (hc : c < g.dataCylinders) (hfree : ∃ r, FreeAt g s c r)
    (h : SearchFits g s allocGap near c) :
    ∃ n < g.total, n / g.blocksPerCylinder = c ∧ s.BlockFree g n ∧
      s.searchCylinder g allocGap near c = .found n (g.getBitmapPtr n) ((Frag.full n).bits g) := by
  obtain ⟨r, hr⟩ := hfree
  have hlt := hr.1
  rcases h with rfl | ⟨rfl, hskip⟩
  · have hbytes : g.bytesPerCylinder ≤ g.dataCylinders * g.bytesPerCylinder := Nat.le_mul_of_pos_left _ (by omega)
    have hoff := g.offset_lt r
    rw [Nat.mod_eq_of_lt hlt] at hoff
    obtain ⟨r', hr', heq⟩ : ∃ r', FreeAt g s c r' ∧ contiguous s.bitmap (g.dataCylinders * g.bytesPerCylinder) _ _ = _ :=
      contiguous_finds (j := 0) hr (Nat.zero_le _) (by omega)
    refine ⟨c * g.blocksPerCylinder + r', g.block_lt hc hr'.1, g.block_div hr'.1, hr'.2, ?_⟩
    rw [← heq]
    rfl
  · have hfound : ∃ r', FreeAt g s c r' ∧ s.searchCylinder g 1 near c =
        .found (c * g.blocksPerCylinder + r') (g.getBitmapPtr (c * g.blocksPerCylinder + r'))
          ((Frag.full (c * g.blocksPerCylinder + r')).bits g) := by
      cases near with
      | none =>
        obtain ⟨r', hr', heq⟩ : ∃ r', FreeAt g s c r' ∧ skipBlock g s.bitmap g.blocksPerCylinder (2 * g.blocksPerCylinder + 2) 0 _ = _ :=
          skipBlock_finds hr (Nat.zero_le _) (.inr hlt) (by omega)
        refine ⟨r', hr', ?_⟩
        simp only [searchCylinder, Nat.one_ne_zero, if_false, heq]
      | some near =>
        obtain ⟨r', hr', heq⟩ := (hskip near rfl).finds
        refine ⟨r', hr', ?_⟩
        simp only [searchCylinder, Nat.one_ne_zero, if_false, heq]
    obtain ⟨r', hr', heq⟩ := hfound
    exact ⟨c * g.blocksPerCylinder + r', g.block_lt hc hr'.1, g.block_div hr'.1, hr'.2, heq⟩

end cylinder

section find
variable {hashSeed : Int} {near : Option Nat} {allocGap : Nat}

def countOut (s : Domain) (c : Nat) : Domain := { s with cylinders := Function.update s.cylinders c (s.cylinders c - 1) }

theorem selectCylinderInt_cases (h : Counted g s) (hnear : ∀ n, near = some n → n < g.total) :
    s.selectCylinderInt g hashSeed (near.map (· / g.blocksPerCylinder)) = (none, s) ∧ (∀ c < g.dataCylinders, s.freeCount g c = 0) ∨
      ∃ c < g.dataCylinders, 0 < s.freeCount g c ∧
        s.selectCylinderInt g hashSeed (near.map (· / g.blocksPerCylinder)) = (some c, s.countOut c) := by
  rw [selectCylinderInt]
  have hstart : (near.map (· / g.blocksPerCylinder)).getD
      (((hashSeed * 1103515245 + 12345) % 2147483648).toNat % g.dataCylinders) < g.dataCylinders := by
    cases near with
    | none => exact Nat.mod_lt _ g.cylinders_pos
    | some n => exact g.cylinder_lt (hnear n rfl)
  revert hstart
  generalize (near.map (· / g.blocksPerCylinder)).getD _ = start
  intro hstart
  have hmem : ∀ c, c ∈ List.range' start (g.dataCylinders - start) ++ (List.range start).reverse ↔ c < g.dataCylinders := by
    intro c
    rw [List.mem_append, List.mem_range'_1, List.mem_reverse, List.mem_range]
    omega
  split
  · rename_i hnone
    left
    refine ⟨rfl, fun c hc => ?_⟩
    have hnot := List.find?_eq_none.1 hnone c ((hmem c).2 hc)
    rw [decide_eq_true_eq, h.cylinders c hc] at hnot
    omega
  · rename_i c hsome
    right
    have hc := (hmem c).1 (List.mem_of_find?_eq_some hsome)
    have hpos := List.find?_some hsome
    rw [decide_eq_true_eq, h.cylinders c hc] at hpos
    exact ⟨c, hc, by omega, rfl⟩

def FindFits (g : Header) (s : Domain) (allocGap : Nat) (hashSeed : Int) (near : Option Nat) : Prop :=
  ∀ c, (s.selectCylinderInt g hashSeed (near.map (· / g.blocksPerCylinder))).1 = some c → SearchFits g s allocGap near c

/-- **`FindBlockInt`** finds no block where none is free, and else one that is. -/
theorem findBlockInt_cases (h : Counted g s) (hnear : ∀ n, near = some n → n < g.total) (hfits : FindFits g s allocGap hashSeed near)
    (allocate : Bool) :
    s.findBlockInt g allocGap hashSeed near allocate = (.nil, s) ∧ (∀ c < g.dataCylinders, s.freeCount g c = 0) ∨
      ∃ n < g.total, s.BlockFree g n ∧
        s.findBlockInt g allocGap hashSeed near allocate =
          (.block n (g.getBitmapPtr n),
            if allocate then
              (s.countOut (n / g.blocksPerCylinder)).setByte (g.getBitmapPtr n) (s.bitmap (g.getBitmapPtr n) ||| (Frag.full n).bits g)
            else s.countOut (n / g.blocksPerCylinder)) := by
  rw [findBlockInt]
  rcases @selectCylinderInt_cases g s hashSeed near h hnear with ⟨hnone, hall⟩ | ⟨c, hc, hpos, hsome⟩
  · rw [hnone]
    exact .inl ⟨rfl, hall⟩
  · right
    have hcyl : SearchFits g s allocGap near c := hfits c (by rw [hsome])
    obtain ⟨n, hn, hdiv, hfree, hfound⟩ := searchCylinder_finds hc (exists_freeAt hpos) hcyl
    have hfound' : (s.countOut c).searchCylinder g allocGap near c = .found n (g.getBitmapPtr n) ((Frag.full n).bits g) := hfound
    have hclear : ¬ (s.countOut c).bitmap (g.getBitmapPtr n) &&& (Frag.full n).bits g ≠ 0 :=
      not_not.2 ((and_bits_zero (Frag.full_fits n)).2 fun f hf _ => hfree f hf)
    refine ⟨n, hn, hfree, ?_⟩
    rw [hsome]
    dsimp only
    rw [hfound']
    dsimp only
    rw [if_neg hclear, hdiv]
    cases allocate with
    | false => rfl
    | true => rfl

end find

end Domain

end SpriteKernel.Ofs
