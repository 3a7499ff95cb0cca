import SpriteKernel.Fslcl.Directory
import Mathlib.Data.Fintype.Pigeonhole
import Mathlib.Data.Int.Interval

/- The loops over the records of a directory that may hold anything. A loop steps by lengths that come from the
   disk, and reads what is in memory around the block where they lead out of it. -/
namespace SpriteKernel.Fslcl

open Bytes

/-- How much of a string in memory is read where it is compared: up to the first difference. -/
def compared : Name → Buffer → Int → Int
  | [], _, _ => 0
  | c :: cs, b, p => if c = b p then 1 + compared cs b (p + 1) else 1

/-- A loop over a block's records: where it leaves, how much of a record it reads, and whether the one behind the
    last too. -/
structure Loop where
  stop : Buffer → Int → Bool
  extent : Buffer → Int → Int
  appends : Bool

/-- `FindComponent`. -/
def findLoop (component : Name) : Loop where
  stop b p := recordLength b p ≤ 0 ∨
    (fileNumber b p ≠ 0 ∧ nameLength b p = component.length ∧ sameChars component b (p + 8) = true)
  extent b p :=
    if recordLength b p ≤ 0 ∨ fileNumber b p = 0 then 6
    else if nameLength b p = component.length then 8 + compared component b (p + 8) else 8
  appends := false

/-- `InsertComponent`. -/
def insertLoop (component : Name) : Loop where
  stop b p := hasRoom b (dirRecLength component.length) p
  extent b p := if fileNumber b p = 0 then 6 else 8
  appends := true

/-- `DeleteComponent`. -/
def deleteLoop (component : Name) : Loop where
  stop b p := fileNumber b p ≠ 0 ∧ nameLength b p = component.length ∧ strcmpEq component b (p + 8) = true
  extent b p :=
    if fileNumber b p = 0 then 6
    else if nameLength b p = component.length then 8 + compared (component ++ [0]) b (p + 8) else 8
  appends := false

/-- `DirectoryEmpty`. -/
def emptyLoop : Loop where
  stop b p := fileNumber b p ≠ 0 ∧ ¬(strcmpEq [46] b (p + 8) = true ∨ strcmpEq [46, 46] b (p + 8) = true)
  extent b p :=
    if fileNumber b p = 0 then 6 else 8 + max (compared [46, 0] b (p + 8)) (compared [46, 46, 0] b (p + 8))
  appends := false

/-- Where the records come to lie. -/
def offset (b : Buffer) : Nat → Int
  | 0 => 0
  | i + 1 => offset b i + recordLength b (offset b i)

namespace Loop

section
variable (L : Loop) (b : Buffer) (length : Int)

/-- The record is in the block, and the loop goes on to the next one. -/
def Passes (i : Nat) : Prop := offset b i < length ∧ L.stop b (offset b i) = false

def Comes (i : Nat) : Prop := ∀ j < i, L.Passes b length j

def Within (p : Int) : Prop := 0 ≤ p ∧ p + L.extent b p ≤ fsBlockSize

/-- The block with a chunk more, and a record at its end. -/
def appended (p : Int) : Buffer := setShort (p + 4) dirBlockSize (setBytes length (List.replicate 512 0) b)

/-- All that is read is in the block. -/
structure Inside : Prop where
  met : ∀ i, L.Comes b length i → offset b i < length → L.Within b (offset b i)
  behind : ∀ i, L.appends = true ∧ length < fsBlockSize → L.Comes b length i → length ≤ offset b i →
    L.Within (appended b length (offset b i)) (offset b i)

/-- No record is met twice. -/
def Unrepeated : Prop := ∀ i j, i < j → L.Comes b length j → offset b j < length → offset b i ≠ offset b j

def Ends : Prop := ∃ i, L.Comes b length i ∧ ¬ L.Passes b length i

end

variable {L : Loop} {b : Buffer} {length : Int} {i j : Nat}

theorem end_unique (hi : L.Comes b length i) (hi' : ¬ L.Passes b length i) (hj : L.Comes b length j)
    (hj' : ¬ L.Passes b length j) : i = j := by
  rcases Nat.lt_trichotomy i j with h | h | h
  · exact absurd (hj i h) hi'
  · exact h
  · exact absurd (hi j h) hj'

theorem passes_of_not_ends (h : ¬ L.Ends b length) (i : Nat) : L.Passes b length i := by
  induction i using Nat.strong_induction_on with
  | h i ih =>
    by_contra hi
    exact h ⟨i, ih, hi⟩

theorem offset_shift (h : offset b i = offset b j) (n : Nat) : offset b (i + n) = offset b (j + n) := by
  induction n with
  | zero => exact h
  | succ n ih =>
    show offset b (i + n) + recordLength b (offset b (i + n)) = _
    rw [ih]
    rfl

/-- A record that is met twice is met again and again. -/
theorem Ends.unrepeated (h : L.Ends b length) : L.Unrepeated b length := by
  intro i j hij hj hlt heq
  obtain ⟨k, hk, hstop⟩ := h
  have hall : ∀ n, L.Passes b length n := by
    intro n
    induction n using Nat.strong_induction_on with
    | h n ih =>
      by_cases hn : n < j
      · exact hj n hn
      · have hshift := offset_shift heq (n - j)
        rw [show j + (n - j) = n by omega] at hshift
        have hp := ih (i + (n - j)) (by omega)
        rw [Passes, hshift] at hp
        exact hp
  exact hstop (hall k)

/-- There are only so many offsets in a block. -/
theorem Inside.ends (h : L.Inside b length) (hlen : length ≤ fsBlockSize) (hu : L.Unrepeated b length) : L.Ends b length := by
  by_contra hno
  have hall := passes_of_not_ends hno
  have hmem : ∀ i, offset b i ∈ Finset.Ico 0 fsBlockSize := fun i =>
    Finset.mem_Ico.2 ⟨(h.met i (fun j _ => hall j) (hall i).1).1, Int.lt_of_lt_of_le (hall i).1 hlen⟩
  obtain ⟨i, j, hij, heq⟩ := Finite.exists_ne_map_eq_of_infinite fun i => (⟨offset b i, hmem i⟩ : Finset.Ico 0 fsBlockSize)
  have heq' : offset b i = offset b j := congrArg Subtype.val heq
  rcases Nat.lt_or_gt_of_ne hij with h | h
  · exact hu i j h (fun j _ => hall j) (hall j).1 heq'
  · exact hu j i h (fun j _ => hall j) (hall i).1 heq'.symm

/-! The loop over the blocks -/

section
variable (L : Loop) (mem : Nat → Buffer) (d : Directory)

/-- The loop leaves for good at the end of the block. -/
def Last (n : Nat) : Prop := L.appends = true ∧ d.blockLength n < fsBlockSize

/-- The walk over the block ends, and the next block is read. -/
def Follows (n : Nat) : Prop := d.blockLength n ≠ 0 ∧ ¬ L.Last d n ∧
  ∃ i, L.Comes (mem n) (d.blockLength n) i ∧ d.blockLength n ≤ offset (mem n) i

def ComesTo (n : Nat) : Prop := ∀ m < n, L.Follows mem d m

/-- The routine returns, and has unlocked every block that it read. -/
inductive Returns : Nat → Prop
  | outOfBlocks {n : Nat} : d.blockLength n = 0 → Returns n
  | here {n i : Nat} : L.Comes (mem n) (d.blockLength n) i → ¬ L.Passes (mem n) (d.blockLength n) i →
      offset (mem n) i < d.blockLength n ∨ L.Last d n → Returns n
  | next {n : Nat} : L.Follows mem d n → Returns (n + 1) → Returns n

end

variable {mem : Nat → Buffer} {d : Directory}

theorem Returns.ends {k n : Nat} (h : L.Returns mem d k) (hk : k ≤ n) (hn : L.ComesTo mem d n)
    (h0 : d.blockLength n ≠ 0) : L.Ends (mem n) (d.blockLength n) := by
  induction h with
  | @outOfBlocks k hzero =>
    rcases Nat.eq_or_lt_of_le hk with rfl | hlt
    · exact absurd hzero h0
    · exact absurd hzero (hn k hlt).1
  | @here k i hi hstop hleave =>
    rcases Nat.eq_or_lt_of_le hk with rfl | hlt
    · exact ⟨i, hi, hstop⟩
    · obtain ⟨-, hlast, j, hj, hend⟩ := hn k hlt
      have hij := end_unique hi hstop hj fun hp => Int.not_lt.2 hend hp.1
      rcases hleave with hin | hl
      · exact absurd hin (Int.not_lt.2 (hij ▸ hend))
      · exact absurd hl hlast
  | @next k hfollows _ ih =>
    rcases Nat.eq_or_lt_of_le hk with rfl | hlt
    · obtain ⟨-, -, i, hi, hend⟩ := hfollows
      exact ⟨i, hi, fun hp => Int.not_lt.2 hend hp.1⟩
    · exact ih hlt

theorem returns_of_ends (h : ∀ n, L.ComesTo mem d n → d.blockLength n ≠ 0 → L.Ends (mem n) (d.blockLength n)) :
    L.Returns mem d 0 := by
  have hfrom : ∀ k n, n + k = d.size.toNat → L.ComesTo mem d n → L.Returns mem d n := by
    intro k
    induction k with
    | zero =>
      intro n hn _
      refine .outOfBlocks (if_pos ?_)
      simp only [fsBlockSize]
      omega
    | succ k ih =>
      intro n hn hcomes
      by_cases h0 : d.blockLength n = 0
      · exact .outOfBlocks h0
      obtain ⟨i, hi, hstop⟩ := h n hcomes h0
      by_cases hleave : offset (mem n) i < d.blockLength n ∨ L.Last d n
      · exact .here hi hstop hleave
      · obtain ⟨hend, hlast⟩ := not_or.1 hleave
        have hfollows : L.Follows mem d n := ⟨h0, hlast, i, hi, Int.not_lt.1 hend⟩
        refine .next hfollows (ih (n + 1) (by omega) fun m hm => ?_)
        rcases Nat.lt_succ_iff_lt_or_eq.1 hm with hlt | rfl
        · exact hcomes m hlt
        · exact hfollows
  exact hfrom d.size.toNat 0 (Nat.zero_add _) fun m hm => absurd hm (Nat.not_lt_zero m)

theorem blockLength_le (n : Int) : d.blockLength n ≤ fsBlockSize := by
  unfold Directory.blockLength
  simp only [fsBlockSize]
  omega

theorem good_iff : (L.Returns mem d 0 ∧ ∀ n, L.ComesTo mem d n → L.Inside (mem n) (d.blockLength n)) ↔
    ∀ n, L.ComesTo mem d n → L.Inside (mem n) (d.blockLength n) ∧ L.Unrepeated (mem n) (d.blockLength n) := by
  constructor
  · rintro ⟨hret, hin⟩ n hn
    refine ⟨hin n hn, ?_⟩
    by_cases h0 : d.blockLength n = 0
    · rw [h0]
      intro i j hij hj
      exact absurd (hj 0 (by omega)).1 (Int.lt_irrefl 0)
    · exact (hret.ends (Nat.zero_le n) hn h0).unrepeated
  · intro h
    exact ⟨returns_of_ends fun n hn _ => (h n hn).1.ends (blockLength_le n) (h n hn).2, fun n hn => (h n hn).1⟩

end Loop

open Loop

/-- `FindComponent` stops where a record has no length, and so comes to the end of each block. -/
theorem find_ends (component : Name) (b : Buffer) (length : Int) : (findLoop component).Ends b length := by
  by_contra hno
  have hall := passes_of_not_ends hno
  have hstep : ∀ i : Nat, (i : Int) ≤ offset b i := by
    intro i
    induction i with
    | zero => exact Int.le_refl 0
    | succ i ih =>
      have hp := (hall i).2
      simp only [findLoop, decide_eq_false_iff_not, not_or] at hp
      simp only [offset]
      omega
  have hlast := (hall length.toNat).1
  have := hstep length.toNat
  omega

end SpriteKernel.Fslcl
