import Mathlib.Data.List.Nodup

/- Things kept in places, each in one place at most: a family of lists, and what moving one
   thing does to it. Where the thing was before is left open, so that moves of one thing compose. -/
namespace Custody

open Function List

universe u v
variable {ι : Type u} {α : Type v} {kept kept' kept'' : ι → List α} {x : α}

/-- Nothing is in two places, or twice in one. -/
structure Apart (kept : ι → List α) : Prop where
  nodup : ∀ i, (kept i).Nodup
  one : ∀ i j x, x ∈ kept i → x ∈ kept j → i = j

/-- `x` has gone to the place `dest`, or out of all of them; everything else is where it was. -/
structure Moved (kept kept' : ι → List α) (x : α) (dest : Option ι) : Prop where
  nodup : ∀ i, (kept' i).Nodup
  other : ∀ i y, y ≠ x → (y ∈ kept' i ↔ y ∈ kept i)
  self : ∀ i, x ∈ kept' i ↔ dest = some i

theorem Moved.apart {dest : Option ι} (h : Apart kept) (hm : Moved kept kept' x dest) : Apart kept' where
  nodup := hm.nodup
  one i j y hi hj := by
    by_cases hy : y = x
    · subst hy
      have hdest := (hm.self i).1 hi
      rw [(hm.self j).1 hj] at hdest
      exact (Option.some.inj hdest).symm
    · exact h.one i j y ((hm.other i y hy).1 hi) ((hm.other j y hy).1 hj)

theorem Moved.trans {dest dest' : Option ι} (h₁ : Moved kept kept' x dest) (h₂ : Moved kept' kept'' x dest') :
    Moved kept kept'' x dest' where
  nodup := h₂.nodup
  other i y hy := (h₂.other i y hy).trans (h₁.other i y hy)
  self := h₂.self

theorem Apart.stay (h : Apart kept) (hx : ∀ i, x ∉ kept i) : Moved kept kept x none where
  nodup := h.nodup
  other _ _ _ := Iff.rfl
  self i := ⟨fun hi => absurd hi (hx i), nofun⟩

theorem Apart.take [DecidableEq α] (h : Apart kept) {i : ι} (hx : x ∈ kept i)
    (hsub : ∀ j, kept' j = kept j ∨ kept' j = (kept j).erase x) (hi : kept' i = (kept i).erase x) :
    Moved kept kept' x none where
  nodup j := by
    rcases hsub j with hj | hj <;> rw [hj]
    · exact h.nodup j
    · exact (h.nodup j).erase x
  other j y hy := by
    rcases hsub j with hj | hj <;> rw [hj]
    exact mem_erase_of_ne hy
  self j := by
    refine ⟨fun hj => ?_, nofun⟩
    by_cases hji : j = i
    · subst hji
      rw [hi] at hj
      exact absurd hj (h.nodup j).not_mem_erase
    · have hin : x ∈ kept j := by
        rcases hsub j with hk | hk <;> rw [hk] at hj
        · exact hj
        · exact mem_of_mem_erase hj
      exact absurd (h.one j i x hin hx) hji

theorem Apart.put [DecidableEq ι] (h : Apart kept) (hx : ∀ i, x ∉ kept i) {i : ι} {l : List α}
    (hl : l.Perm (x :: kept i)) : Moved kept (update kept i l) x (some i) where
  nodup j := by
    by_cases hji : j = i
    · subst hji
      rw [update_self, hl.nodup_iff, nodup_cons]
      exact ⟨hx j, h.nodup j⟩
    · rw [update_of_ne hji]
      exact h.nodup j
  other j y hy := by
    by_cases hji : j = i
    · subst hji
      rw [update_self, hl.mem_iff, mem_cons]
      exact or_iff_right hy
    · rw [update_of_ne hji]
  self j := by
    by_cases hji : j = i
    · subst hji
      rw [update_self, hl.mem_iff]
      exact ⟨fun _ => rfl, fun _ => mem_cons_self⟩
    · rw [update_of_ne hji]
      exact ⟨fun hj => absurd hj (hx j), fun hj => absurd (Option.some.inj hj).symm hji⟩

end Custody
