import Mathlib.Algebra.Module.Pi
import Mathlib.Algebra.Module.ZMod
import Mathlib.Algebra.BigOperators.Group.Finset.Basic
import Mathlib.Algebra.Field.ZMod
import Mathlib.Data.Nat.Prime.Defs

/- Units `0` to `n` of which the last is the parity of the others, in a group in which every element is its own
   inverse. In a `Codeword` any unit is the sum of the others. The parity of new values is had from their old ones
   (`sum_modified`), or from the units that stay (`sum_reconstructed`). -/
namespace Parity
open Finset

variable {B : Type} [AddCommGroup B] {n d : Nat} {c : Nat → B}

def Codeword (n : Nat) (c : Nat → B) : Prop := ∑ u ∈ range (n + 1), c u = 0

/-- What the other units say of one. -/
def others (n : Nat) (c : Nat → B) (d : Nat) : B := ∑ u ∈ (range (n + 1)).erase d, c u

theorem others_congr {c' : Nat → B} (h : ∀ u ≤ n, u ≠ d → c u = c' u) : others n c d = others n c' d := by
  apply sum_congr rfl
  intro u hu
  rw [mem_erase, mem_range] at hu
  exact h u (by omega) hu.1

theorem add_others (hd : d ≤ n) : c d + others n c d = ∑ u ∈ range (n + 1), c u :=
  add_sum_erase _ c (mem_range.2 (by omega))

section splits
variable (W : Nat → Prop) [DecidablePred W] {w : Nat → B}

/-- The units with some of them written. -/
def written (w c : Nat → B) (u : Nat) : B := if W u then w u else c u

theorem sum_split (c : Nat → B) :
    (∑ u ∈ range n, if W u then c u else 0) + (∑ u ∈ range n, if W u then 0 else c u) = ∑ u ∈ range n, c u := by
  rw [← sum_add_distrib]
  apply sum_congr rfl
  intro u _
  split
  · exact add_zero _
  · exact zero_add _

theorem sum_reconstructed :
    (∑ u ∈ range n, if W u then 0 else c u) + (∑ u ∈ range n, if W u then w u else 0) =
      ∑ u ∈ range n, written W w c u := by
  rw [← sum_add_distrib]
  apply sum_congr rfl
  intro u _
  rw [written]
  split
  · exact zero_add _
  · exact add_zero _

theorem sum_rebuilt (hd : d < n) (hW : W d) :
    (∑ u ∈ range n, if W u ∧ u ≠ d then c u else 0) + ((∑ u ∈ range n, if W u then 0 else c u) + c n) = others n c d := by
  have hothers : others n c d = ∑ u ∈ range (n + 1), if u = d then 0 else c u := by
    refine Eq.trans (sum_congr rfl fun u hu => ?_) (sum_erase (range (n + 1)) (if_pos rfl))
    exact (if_neg (mem_erase.1 hu).1).symm
  rw [hothers, sum_range_succ, if_neg (Nat.ne_of_gt hd), ← add_assoc, ← sum_add_distrib]
  congr 1
  apply sum_congr rfl
  intro u _
  by_cases hud : u = d
  · rw [if_neg fun h => h.2 hud, if_pos (hud ▸ hW), if_pos hud, add_zero]
  · rw [if_neg hud]
    by_cases hu : W u
    · rw [if_pos ⟨hu, hud⟩, if_pos hu, add_zero]
    · rw [if_neg fun h => hu h.1, if_neg hu, zero_add]

end splits

variable [Module (ZMod 2) B]

theorem add_add_self (x y : B) : x + y + y = x := by
  rw [add_assoc, ZModModule.add_self, add_zero]

theorem eq_of_add_eq_zero {x y : B} (h : x + y = 0) : x = y := by
  calc x = x + y + y := (add_add_self x y).symm
    _ = y := by rw [h, zero_add]

theorem Codeword.eq_others (h : Codeword n c) (hd : d ≤ n) : c d = others n c d :=
  eq_of_add_eq_zero ((add_others hd).trans h)

theorem codeword_iff : Codeword n c ↔ c n = ∑ u ∈ range n, c u := by
  rw [Codeword, sum_range_succ]
  constructor
  · intro h
    exact (eq_of_add_eq_zero h).symm
  · intro h
    rw [h, ZModModule.add_self]

theorem codeword_of_others (hd : d ≤ n) (h : c d = others n c d) : Codeword n c := by
  rw [Codeword, ← add_others hd, ← h, ZModModule.add_self]

theorem sum_modified (W : Nat → Prop) [DecidablePred W] (h : Codeword n c) :
    (∑ u ∈ range n, if W u then c u else 0) + c n = ∑ u ∈ range n, if W u then 0 else c u := by
  rw [codeword_iff.1 h, ← sum_split W c, ← add_assoc, ZModModule.add_self, zero_add]

end Parity
