import Mathlib.Algebra.BigOperators.Group.Finset.Basic
import Mathlib.Algebra.BigOperators.Ring.Finset
import Mathlib.Algebra.Group.Hom.Defs
import Mathlib.Tactic.Abel

/- Sums over a type without bound of a function that is zero but for finitely many
   arguments, with the set left open: what a step at one argument does to the sum is
   all the protocol proofs ask for. -/
namespace Tally

open Function Finset

universe u v
variable {ι : Type u} {M : Type v} [AddCommGroup M]

/-- `total` is the sum of all values of `f`. -/
def Sums (f : ι → M) (total : M) : Prop :=
  ∃ P : Finset ι, (∀ i, i ∉ P → f i = 0) ∧ total = P.sum f

theorem sums_zero : Sums (fun _ : ι => (0 : M)) 0 := ⟨∅, by simp, by simp⟩

variable {f : ι → M} {total : M}

theorem Sums.eq_zero (h : Sums f total) (hf : ∀ i, f i = 0) : total = 0 := by
  obtain ⟨P, -, rfl⟩ := h
  exact sum_eq_zero (fun i _ => hf i)

variable {g : ι → M}

section
variable (h : Sums f total)
include h

theorem Sums.change [DecidableEq ι] (i : ι)
    (hg : ∀ j, j ≠ i → g j = f j) : Sums g (total + (g i - f i)) := by
  obtain ⟨P, hP, rfl⟩ := h
  have hout : ∀ j, j ∉ insert i P → g j = 0 := by
    intro j hj
    rw [Finset.mem_insert, not_or] at hj
    rw [hg j hj.1, hP j hj.2]
  have hext : P.sum f = (insert i P).sum f :=
    sum_subset (Finset.subset_insert i P) (fun j _ hj => hP j hj)
  have hdiff : (insert i P).sum g - (insert i P).sum f = g i - f i := by
    rw [← sum_sub_distrib]
    refine sum_eq_single i (fun j _ hj => ?_) (fun hi => ?_)
    · rw [hg j hj, sub_self]
    · exact absurd (Finset.mem_insert_self i P) hi
  refine ⟨insert i P, hout, ?_⟩
  rw [hext, ← hdiff, add_sub_cancel]

theorem Sums.congr (hg : ∀ j, g j = f j) : Sums g total := by
  rw [funext hg]
  exact h

theorem Sums.change_two [DecidableEq ι] {i j : ι} (hij : i ≠ j)
    (hg : ∀ k, k ≠ i → k ≠ j → g k = f k) : Sums g (total + (g i - f i) + (g j - f j)) := by
  have hfirst : Sums (update f i (g i)) (total + (g i - f i)) := by
    have hc := h.change i (g := update f i (g i)) (fun k hk => update_of_ne hk _ _)
    rwa [update_self] at hc
  have hsecond := hfirst.change j (g := g) (fun k hk => ?_)
  · rwa [update_of_ne hij.symm] at hsecond
  · by_cases hki : k = i
    · rw [hki, update_self]
    · rw [update_of_ne hki, hg k hki hk]

theorem Sums.eq_sum {Q : Finset ι} (hQ : ∀ i, i ∉ Q → f i = 0) : total = Q.sum f := by
  classical
  obtain ⟨P, hP, rfl⟩ := h
  have hl : P.sum f = (P ∪ Q).sum f :=
    sum_subset Finset.subset_union_left (fun i _ hi => hP i hi)
  have hr : Q.sum f = (P ∪ Q).sum f :=
    sum_subset Finset.subset_union_right (fun i _ hi => hQ i hi)
  rw [hl, hr]

end

theorem Sums.map {N : Type v} [AddCommGroup N] (φ : M →+ N) (h : Sums f total) : Sums (fun i => φ (f i)) (φ total) := by
  obtain ⟨P, hP, rfl⟩ := h
  refine ⟨P, fun i hi => ?_, map_sum φ f P⟩
  simp only [hP i hi, map_zero]

/-- What holds of zero and of every value, and is kept by addition, holds of the sum. -/
theorem Sums.induction (h : Sums f total) (p : M → Prop) (hzero : p 0)
    (hadd : ∀ a b, p a → p b → p (a + b)) (hf : ∀ i, p (f i)) : p total := by
  obtain ⟨P, -, rfl⟩ := h
  exact sum_induction f p hadd hzero (fun i _ => hf i)

theorem Sums.erase [DecidableEq ι] (h : Sums f total) (i : ι) : Sums (update f i 0) (total - f i) := by
  have hc := h.change i (g := update f i 0) (fun j hj => update_of_ne hj _ _)
  rw [update_self, zero_sub, ← sub_eq_add_neg] at hc
  exact hc

theorem Sums.value_le [DecidableEq ι] {f : ι → Int} {total : Int} (h : Sums f total) (hf : ∀ i, 0 ≤ f i) (i : ι) :
    f i ≤ total := by
  have hrest : 0 ≤ total - f i := by
    apply (h.erase i).induction (fun n => 0 ≤ n) (Int.le_refl 0) (fun a b => Int.add_nonneg)
    intro j
    by_cases hj : j = i
    · rw [hj, update_self]
    · rw [update_of_ne hj]
      exact hf j
  omega

/-- Counting the arguments with a property, there are finitely many of them. -/
theorem Sums.card {f : ι → Int} {total : Int} (h : Sums f total) {p : ι → Prop} [DecidablePred p]
    (hf : ∀ i, f i = if p i then 1 else 0) : ∃ P : Finset ι, (∀ i, i ∈ P ↔ p i) ∧ total = P.card := by
  obtain ⟨P, hP, rfl⟩ := h
  refine ⟨P.filter p, fun i => ?_, ?_⟩
  · rw [Finset.mem_filter]
    refine ⟨fun hi => hi.2, fun hi => ⟨?_, hi⟩⟩
    by_contra hout
    have hzero := hP i hout
    rw [hf, if_pos hi] at hzero
    exact absurd hzero (by decide)
  · rw [sum_congr rfl (fun i _ => hf i), sum_boole]

theorem Sums.count_change [DecidableEq ι] {p q : ι → Prop} [DecidablePred p] [DecidablePred q] {total : Int}
    (h : Sums (fun i => if p i then (1 : Int) else 0) total) (i : ι) (hq : ∀ j, j ≠ i → (q j ↔ p j)) :
    Sums (fun j => if q j then (1 : Int) else 0) (total + ((if q i then 1 else 0) - (if p i then 1 else 0))) :=
  h.change i (fun j hj => by simp only [hq j hj])

variable {n : Nat} {p : Nat → Prop}

theorem Sums.count_range [DecidablePred p] {total : Int} (h : Sums (fun i => if i < n ∧ p i then (1 : Int) else 0) total) :
    total = ((Finset.range n).filter p).card := by
  have hsum := h.eq_sum (Q := Finset.range n) (fun i hi => if_neg (fun hp => hi (mem_range.2 hp.1)))
  rw [hsum, ← sum_boole]
  apply sum_congr rfl
  intro i hi
  simp [mem_range.1 hi]

theorem sums_count_all [DecidablePred p] (hp : ∀ i < n, p i) : Sums (fun i => if i < n ∧ p i then (1 : Int) else 0) n := by
  refine ⟨Finset.range n, ?_, ?_⟩
  · intro i hi
    rw [mem_range] at hi
    exact if_neg (fun hf => hi hf.1)
  · rw [sum_congr rfl (g := fun _ => (1 : Int))
      (fun i hi => if_pos ⟨mem_range.1 hi, hp i (mem_range.1 hi)⟩),
      Finset.sum_const, Finset.card_range, nsmul_eq_mul, mul_one]

theorem sum_range_change {f g : Int → Int} {s : Int} (hs : 0 ≤ s ∧ s < n)
    (h : ∀ i, i ≠ s → g i = f i) :
    (Finset.range n).sum (fun i => g i) = (Finset.range n).sum (fun i => f i) + (g s - f s) := by
  obtain ⟨k, rfl⟩ := Int.eq_ofNat_of_zero_le hs.1
  have hk : k ∈ Finset.range n := mem_range.mpr (by omega)
  have hdiff : (Finset.range n).sum (fun i => g i - f i) = g k - f k := by
    refine sum_eq_single k (fun i _ hi => ?_) (fun hout => absurd hk hout)
    rw [h i (by omega), sub_self]
  rw [sum_sub_distrib] at hdiff
  omega

end Tally
