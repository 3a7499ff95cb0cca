import Mathlib.Data.List.Basic
import Mathlib.Data.Nat.ModEq

/- A ring of `size` cells in a flat memory, addressed by offsets that float on past
   the end of the ring. A transfer is one copy, or two where it runs over the end. -/
namespace Ring

open List

universe u
variable {α : Type u}

/-- `dst` after the `n` elements from `src + from` on are copied to `dst + to`. -/
def copy (src : Nat → α) (a n : Nat) (dst : Nat → α) (d : Nat) : Nat → α :=
  fun i => if d ≤ i ∧ i < d + n then src (a + (i - d)) else dst i

/-- The `n` elements from address `a` on. -/
def slice (mem : Nat → α) (a n : Nat) : List α := (List.range n).map (fun k => mem (a + k))

/-- The `n` elements from the floating offset `first` on. -/
def window (size : Nat) (mem : Nat → α) (first n : Nat) : List α :=
  (List.range n).map (fun k => mem ((first + k) % size))

@[simp] theorem length_slice (mem : Nat → α) (a n : Nat) : (slice mem a n).length = n := by simp [slice]

@[simp] theorem length_window (size : Nat) (mem : Nat → α) (first n : Nat) :
    (window size mem first n).length = n := by simp [window]

@[simp] theorem slice_zero (mem : Nat → α) (a : Nat) : slice mem a 0 = [] := rfl

@[simp] theorem window_zero (size : Nat) (mem : Nat → α) (first : Nat) : window size mem first 0 = [] := rfl

variable {n m : Nat}

theorem take_slice (mem : Nat → α) (a : Nat) (h : n ≤ m) : (slice mem a m).take n = slice mem a n := by
  unfold slice
  rw [← map_take, take_range, Nat.min_eq_left h]

theorem window_add (size : Nat) (mem : Nat → α) (first m n : Nat) :
    window size mem first (m + n) = window size mem first m ++ window size mem (first + m) n := by
  unfold window
  rw [range_add, map_append, map_map]
  simp only [Function.comp_def, Nat.add_assoc]

theorem take_window (size : Nat) (mem : Nat → α) (first : Nat) (h : m ≤ n) :
    (window size mem first n).take m = window size mem first m := by
  obtain ⟨k, rfl⟩ := Nat.exists_eq_add_of_le h
  rw [window_add, take_left' (length_window size mem first m)]

theorem drop_window (size : Nat) (mem : Nat → α) (first : Nat) (h : m ≤ n) :
    (window size mem first n).drop m = window size mem (first + m) (n - m) := by
  obtain ⟨k, rfl⟩ := Nat.exists_eq_add_of_le h
  rw [window_add, drop_left' (length_window size mem first m), Nat.add_sub_cancel_left]

variable {size : Nat}

theorem add_mod_of_lt {a k : Nat} (h : a % size + k < size) : (a + k) % size = a % size + k := by
  rw [← Nat.mod_add_mod, Nat.mod_eq_of_lt h]

/-! ## Reading -/

variable {first : Nat}

theorem window_of_straight (mem : Nat → α) (h : first % size + n ≤ size) :
    window size mem first n = slice mem (first % size) n := by
  refine map_congr_left (fun k hk => ?_)
  rw [add_mod_of_lt]
  have := mem_range.mp hk
  omega

theorem add_rest_mod {a : Nat} (hs : 0 < size) : (a + (size - a % size)) % size = 0 := by
  have hlt := Nat.mod_lt a hs
  have hsum : a + (size - a % size) = size + size * (a / size) := by
    have := Nat.mod_add_div a size
    omega
  rw [hsum, Nat.add_mul_mod_self_left, Nat.mod_self]

theorem window_of_wrap (mem : Nat → α) (hs : 0 < size) (hn : n ≤ size)
    (h : size ≤ first % size + n) :
    window size mem first n =
      slice mem (first % size) (size - first % size) ++ slice mem 0 (n - (size - first % size)) := by
  have hlt := Nat.mod_lt first hs
  have hsplit : n = (size - first % size) + (n - (size - first % size)) := by omega
  have hstart := add_rest_mod (a := first) hs
  conv_lhs => rw [hsplit, window_add]
  rw [window_of_straight mem (by omega), window_of_straight mem (by omega), hstart]

/-! ## Writing -/

/-- `mem'` is `mem` with `n` elements of `src` from the floating offset `start` on. -/
structure Stored (size : Nat) (src : Nat → α) (n start : Nat) (mem mem' : Nat → α) : Prop where
  put : ∀ k, k < n → mem' ((start + k) % size) = src k
  keep : ∀ k, n ≤ k → k < size → mem' ((start + k) % size) = mem ((start + k) % size)

variable {start : Nat}

theorem stored_straight (src mem : Nat → α) (h : start % size + n ≤ size) :
    Stored size src n start mem (copy src 0 n mem (start % size)) where
  put := fun k hk => by
    rw [add_mod_of_lt (by omega)]
    unfold copy
    rw [if_pos (by omega), Nat.zero_add, Nat.add_sub_cancel_left]
  keep := fun k hn hk => by
    unfold copy
    rw [if_neg]
    -- a cell of the copy is less than `n` cells behind the start
    by_cases hover : start % size + k < size
    · rw [add_mod_of_lt hover]
      omega
    · have hmod : (start + k) % size = start % size + k - size := by
        rw [← Nat.mod_add_mod, Nat.mod_eq_sub_mod (by omega), Nat.mod_eq_of_lt (by omega)]
      rw [hmod]
      omega

theorem stored_wrap (src mem : Nat → α) (hn : n ≤ size)
    (h : size ≤ start % size + n) (hs : 0 < size) :
    Stored size src n start mem
      (copy src (size - start % size) (n - (size - start % size))
        (copy src 0 (size - start % size) mem (start % size)) 0) := by
  have hlt := Nat.mod_lt start hs
  have hmod : ∀ k, k < size → (start + k) % size =
      if start % size + k < size then start % size + k else start % size + k - size := by
    intro k hk
    split
    · next hover => exact add_mod_of_lt hover
    · rw [← Nat.mod_add_mod, Nat.mod_eq_sub_mod (by omega), Nat.mod_eq_of_lt (by omega)]
  refine ⟨fun k hk => ?_, fun k hnk hk => ?_⟩
  · rw [hmod k (by omega)]
    unfold copy
    split
    · rw [if_neg (by omega), if_pos (by omega), Nat.zero_add, Nat.add_sub_cancel_left]
    · rw [if_pos (by omega)]
      congr 1
      omega
  · rw [hmod k hk, if_neg (by omega)]
    unfold copy
    rw [if_neg (by omega), if_neg (by omega)]

theorem Stored.window {src mem mem' : Nat → α}
    (h : Stored size src n (first + m) mem mem') (hm : m + n ≤ size) :
    window size mem' first (m + n) = window size mem first m ++ slice src 0 n := by
  rw [window_add]
  congr 1
  · refine map_congr_left (fun k hk => ?_)
    have hk := mem_range.mp hk
    -- the cell is `size - m + k` behind the start
    have hcell : (first + k) % size = (first + m + (size - m + k)) % size := by
      have hsum : first + m + (size - m + k) = first + k + size := by omega
      rw [hsum, Nat.add_mod_right]
    rw [hcell]
    exact h.keep _ (by omega) (by omega)
  · refine map_congr_left (fun k hk => ?_)
    rw [h.put k (mem_range.mp hk), Nat.zero_add]

/-! ## Which of the two -/

/-- A transfer stays in one revolution of the ring when its first and its last element
are in the same one. -/
theorem sameBlock_iff (hn : 0 < n) (hs : 0 < size) :
    start / size = (start + n - 1) / size ↔ start % size + n ≤ size := by
  have hdiv := Nat.div_add_mod start size
  generalize hq : start / size = q at *
  have hle : q ≤ (start + n - 1) / size := (Nat.le_div_iff_mul_le hs).mpr (by rw [Nat.mul_comm]; omega)
  have hmore : q + 1 ≤ (start + n - 1) / size ↔ (q + 1) * size ≤ start + n - 1 := Nat.le_div_iff_mul_le hs
  have hmul : (q + 1) * size = size * q + size := by rw [Nat.add_mul, Nat.one_mul, Nat.mul_comm]
  omega

end Ring
