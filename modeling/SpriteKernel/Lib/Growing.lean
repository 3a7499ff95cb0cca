import Mathlib.Data.List.GetD

/- Rows of elements that are as long as what has been put in them. What is written beyond the end of a
   row leaves a gap, which is filled with `z`; `z` is also what stands beyond the end. -/
namespace Growing

open List
variable {α : Type} {z : α} {l m xs ys : List α} {o i n k : Nat}

def writeAt (z : α) (l : List α) (o : Nat) (xs : List α) : List α :=
  if xs.isEmpty then l else l.take o ++ List.replicate (o - l.length) z ++ xs ++ l.drop (o + xs.length)

def readAt (l : List α) (o n : Nat) : List α := (l.drop o).take n

theorem ext_getD (hlen : l.length = m.length) (h : ∀ i < l.length, l.getD i z = m.getD i z) : l = m := by
  apply ext_getElem hlen
  intro i hi hi'
  have heq := h i hi
  rw [getD_eq_getElem _ _ hi, getD_eq_getElem _ _ hi'] at heq
  exact heq

theorem writeAt_nil : writeAt z l o [] = l := if_pos rfl

theorem writeAt_of_ne (h : xs ≠ []) :
    writeAt z l o xs = l.take o ++ List.replicate (o - l.length) z ++ xs ++ l.drop (o + xs.length) := by
  apply if_neg
  simpa using h

theorem length_writeAt (h : xs ≠ []) : (writeAt z l o xs).length = max l.length (o + xs.length) := by
  rw [writeAt_of_ne h]
  simp only [length_append, length_take, length_replicate, length_drop]
  omega

theorem getD_take (h : i < n) : (l.take n).getD i z = l.getD i z := by
  simp only [getD_eq_getElem?_getD, List.getElem?_take, if_pos h]

theorem getD_drop : (l.drop n).getD i z = l.getD (n + i) z := by
  simp only [getD_eq_getElem?_getD, List.getElem?_drop]

theorem getD_replicate : (List.replicate n z).getD i z = z := by
  simp only [getD_eq_getElem?_getD, List.getElem?_replicate]
  split <;> rfl

theorem getD_filled (h : i < o) : (l.take o ++ List.replicate (o - l.length) z).getD i z = l.getD i z := by
  by_cases hi : i < l.length
  · rw [getD_append _ _ _ _ (by rw [length_take]; omega), getD_take h]
  · rw [getD_append_right _ _ _ _ (by rw [length_take]; omega), getD_replicate, getD_eq_default _ _ (by omega)]

theorem getD_writeAt (h : xs ≠ []) :
    (writeAt z l o xs).getD i z = if o ≤ i ∧ i < o + xs.length then xs.getD (i - o) z else l.getD i z := by
  have hfilled : (l.take o ++ List.replicate (o - l.length) z).length = o := by
    rw [length_append, length_take, length_replicate]
    omega
  rw [writeAt_of_ne h]
  split
  next hin =>
    rw [getD_append _ _ _ _ (by rw [length_append, hfilled]; exact hin.2), getD_append_right _ _ _ _ (by rw [hfilled]; exact hin.1), hfilled]
  next hout =>
    by_cases hlt : i < o
    · rw [getD_append _ _ _ _ (by rw [length_append, hfilled]; omega), getD_append _ _ _ _ (by rw [hfilled]; exact hlt), getD_filled hlt]
    · rw [getD_append_right _ _ _ _ (by rw [length_append, hfilled]; omega), length_append, hfilled, getD_drop]
      congr 1
      omega

theorem writeAt_writeAt : writeAt z (writeAt z l o xs) (o + xs.length) ys = writeAt z l o (xs ++ ys) := by
  by_cases hx : xs = []
  · subst hx
    rw [writeAt_nil, nil_append, length_nil, Nat.add_zero]
  by_cases hy : ys = []
  · subst hy
    rw [writeAt_nil, append_nil]
  have hxy : xs ++ ys ≠ [] := by simp [hx]
  have hlen : (writeAt z (writeAt z l o xs) (o + xs.length) ys).length = (writeAt z l o (xs ++ ys)).length := by
    rw [length_writeAt hy, length_writeAt hx, length_writeAt hxy, length_append]
    omega
  apply ext_getD (z := z) hlen
  intro i _
  rw [getD_writeAt hy, getD_writeAt hx, getD_writeAt hxy, length_append]
  -- before the first part, in it, in the second part, or after that
  by_cases h₁ : o ≤ i ∧ i < o + xs.length
  · rw [if_neg (by omega), if_pos h₁, if_pos (by omega), getD_append _ _ _ _ (by omega)]
  by_cases h₂ : o + xs.length ≤ i ∧ i < o + xs.length + ys.length
  · rw [if_pos h₂, if_pos (by omega), getD_append_right _ _ _ _ (by omega)]
    congr 1
    omega
  · rw [if_neg h₂, if_neg h₁, if_neg (by omega)]

theorem getD_readAt (h : i < n) : (readAt l o n).getD i z = l.getD (o + i) z := by
  rw [readAt, getD_take h, getD_drop]

theorem length_readAt : (readAt l o n).length = min n (l.length - o) := by
  rw [readAt, length_take, length_drop]

theorem readAt_add : readAt l o (n + k) = readAt l o n ++ readAt l (o + n) k := by
  rw [readAt, readAt, readAt, take_add, drop_drop]

theorem readAt_of_le (h : l.length ≤ o) : readAt l o n = [] := by
  rw [readAt, drop_eq_nil_of_le h, take_nil]

end Growing
