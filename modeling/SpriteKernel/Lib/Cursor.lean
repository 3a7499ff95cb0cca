import Mathlib.Data.List.Basic
import Mathlib.Data.List.Nodup
import Mathlib.Data.List.Infix

/- A walk over a list that gives it away between two elements and comes back by the name of the next one. Meanwhile
   elements may be unlinked anywhere and linked in at the front. `from q xs` is what is still to be walked, as long
   as `q` stays. -/
namespace Cursor

open List

universe u
variable {α : Type u} [DecidableEq α] {q r : α} {xs ys : List α}

/-- The list from the first occurrence of `q` on. -/
def rest (q : α) (xs : List α) : List α := xs.dropWhile (fun r => r != q)

@[simp] theorem rest_cons_self : rest q (q :: xs) = q :: xs := by simp [rest]

theorem rest_cons_of_ne (h : r ≠ q) : rest q (r :: xs) = rest q xs := by simp [rest, h]

theorem rest_suffix (q : α) (xs : List α) : rest q xs <:+ xs := dropWhile_suffix _

theorem mem_of_mem_rest (h : r ∈ rest q xs) : r ∈ xs := (rest_suffix q xs).subset h

theorem rest_eq_cons (h : q ∈ xs) : ∃ ys, rest q xs = q :: ys := by
  induction xs with
  | nil => simp at h
  | cons a xs ih =>
    by_cases ha : a = q
    · subst ha
      exact ⟨xs, rest_cons_self⟩
    · rw [rest_cons_of_ne ha]
      exact ih ((mem_cons.mp h).resolve_left (fun hq => ha hq.symm))

/-- A suffix is what is left from its first element on. -/
theorem rest_of_suffix (hn : xs.Nodup) (h : q :: ys <:+ xs) : rest q xs = q :: ys := by
  obtain ⟨pre, rfl⟩ := h
  have hq : ∀ r ∈ pre, r ≠ q := by
    intro r hr hrq
    exact (nodup_append.mp hn).2.2 r hr q mem_cons_self hrq
  clear hn
  induction pre with
  | nil => simp
  | cons a pre ih =>
    rw [cons_append, rest_cons_of_ne (hq a mem_cons_self)]
    exact ih (fun r hr => hq r (mem_cons_of_mem a hr))

omit [DecidableEq α] in
theorem nodup_of_suffix (hn : xs.Nodup) (h : q :: ys <:+ xs) : q ∉ ys :=
  (nodup_cons.mp (hn.sublist h.sublist)).1

theorem suffix_erase (hn : xs.Nodup) (h : q :: ys <:+ xs) : ys <:+ xs.erase q := by
  obtain ⟨pre, rfl⟩ := h
  have hq : q ∉ pre := fun hq => (nodup_append.mp hn).2.2 q hq q mem_cons_self rfl
  rw [erase_append_right _ hq, erase_cons_head]
  exact ⟨pre, rfl⟩

theorem rest_sublist (h : List.Sublist ys xs) : List.Sublist (rest q ys) (rest q xs) := by
  induction h with
  | slnil => exact List.Sublist.refl _
  | @cons ys xs a _ ih =>
    by_cases ha : a = q
    · subst ha
      rw [rest_cons_self]
      exact List.Sublist.cons a ((rest_suffix a ys).sublist.trans ‹_›)
    · rw [rest_cons_of_ne ha]
      exact ih
  | @cons_cons ys xs a hs ih =>
    by_cases ha : a = q
    · subst ha
      rw [rest_cons_self, rest_cons_self]
      exact hs.cons_cons a
    · rw [rest_cons_of_ne ha, rest_cons_of_ne ha]
      exact ih

theorem mem_rest_of_sublist (hn : xs.Nodup) (h : List.Sublist ys xs) (hq : q ∈ ys) (hr : r ∈ ys)
    (hahead : r ∈ rest q xs) : r ∈ rest q ys := by
  induction h with
  | slnil => simp at hq
  | @cons ys xs a hs ih =>
    rw [nodup_cons] at hn
    by_cases ha : a = q
    · subst ha
      exact absurd (hs.subset hq) hn.1
    · rw [rest_cons_of_ne ha] at hahead
      exact ih hn.2 hq hr hahead
  | @cons_cons ys xs a hs ih =>
    rw [nodup_cons] at hn
    by_cases ha : a = q
    · subst ha
      rwa [rest_cons_self]
    · rw [rest_cons_of_ne ha] at hahead
      rw [rest_cons_of_ne ha]
      have hra : r ≠ a := by
        rintro rfl
        exact hn.1 (mem_of_mem_rest hahead)
      exact ih hn.2 ((mem_cons.mp hq).resolve_left (fun h => ha h.symm))
        ((mem_cons.mp hr).resolve_left hra) hahead

end Cursor
