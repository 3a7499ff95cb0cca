import Mathlib.Data.List.Basic
import Mathlib.Order.Basic

/- A list that is kept sorted by a key, the greatest first, where what is new goes in behind the last
   element of at least its key, and of which only the first so many are kept. -/
namespace Best

open List

variable {α : Type} {key : α → Nat} {e : α} {l : List α} {k : Nat} {a b : List α}

def Sorted (key : α → Nat) (l : List α) : Prop := l.Pairwise (fun a b => key b ≤ key a)

/-- How many elements are up to the last one of at least the key `k`. -/
def place (key : α → Nat) (k : Nat) (l : List α) : Nat := (l.reverse.dropWhile (fun d => decide (key d < k))).length

def insert (key : α → Nat) (e : α) (l : List α) : List α := l.take (place key (key e) l) ++ e :: l.drop (place key (key e) l)

theorem perm_insert : (insert key e l).Perm (e :: l) := by
  have hmid := @perm_middle _ e (l.take (place key (key e) l)) (l.drop (place key (key e) l))
  rwa [take_append_drop] at hmid

theorem Sorted.split (h : Sorted key l) (k : Nat) : ∃ a b, l = a ++ b ∧ (∀ x ∈ a, k ≤ key x) ∧ ∀ x ∈ b, key x < k := by
  induction l with
  | nil => exact ⟨[], [], rfl, by simp, by simp⟩
  | cons x l ih =>
    obtain ⟨hx, hl⟩ := pairwise_cons.1 h
    by_cases hk : k ≤ key x
    · obtain ⟨a, b, rfl, ha, hb⟩ := ih hl
      exact ⟨x :: a, b, rfl, by simpa [hk] using ha, hb⟩
    · refine ⟨[], x :: l, rfl, by simp, fun y hy => ?_⟩
      obtain rfl | hy := mem_cons.1 hy
      · omega
      · have hle := hx y hy
        omega

theorem place_append (ha : ∀ x ∈ a, k ≤ key x) (hb : ∀ x ∈ b, key x < k) : place key k (a ++ b) = a.length := by
  have hskip : ∀ x ∈ b.reverse, decide (key x < k) = true := by simpa using hb
  unfold place
  rw [reverse_append, dropWhile_append_of_pos hskip]
  cases hr : a.reverse with
  | nil => simp [reverse_eq_nil_iff.1 hr]
  | cons x r =>
    have hx : x ∈ a := mem_reverse.1 (hr ▸ mem_cons_self)
    have hkeep := ha x hx
    rw [dropWhile_cons, if_neg (by simpa using hkeep), ← hr, length_reverse]

theorem insert_append (ha : ∀ x ∈ a, key e ≤ key x) (hb : ∀ x ∈ b, key x < key e) : insert key e (a ++ b) = a ++ e :: b := by
  unfold insert
  rw [place_append ha hb, take_left, drop_left]

theorem Sorted.insert (h : Sorted key l) : Sorted key (Best.insert key e l) := by
  obtain ⟨a, b, rfl, ha, hb⟩ := h.split (key e)
  obtain ⟨hsa, hsb, hab⟩ := pairwise_append.1 h
  rw [insert_append ha hb]
  refine pairwise_append.2 ⟨hsa, pairwise_cons.2 ⟨fun x hx => Nat.le_of_lt (hb x hx), hsb⟩, fun x hx y hy => ?_⟩
  obtain rfl | hy := mem_cons.1 hy
  · exact ha x hx
  · exact hab x hx y hy

theorem Sorted.insert_take (h : Sorted key l) (n : Nat) : (Best.insert key e (l.take n)).take n = (Best.insert key e l).take n := by
  obtain ⟨a, b, rfl, ha, hb⟩ := h.split (key e)
  have ha' : ∀ x ∈ a.take n, key e ≤ key x := fun x hx => ha x (mem_of_mem_take hx)
  have hb' : ∀ x ∈ b.take (n - a.length), key x < key e := fun x hx => hb x (mem_of_mem_take hx)
  rw [insert_append ha hb, take_append, insert_append ha' hb', take_append, take_append, take_take, Nat.min_self]
  -- what follows the element is cut off in any case where there is no room for all of it
  rw [length_take]
  by_cases hn : n ≤ a.length
  · simp [hn]
  · rw [Nat.min_eq_right (by omega)]
    obtain ⟨m, hm⟩ : ∃ m, n - a.length = m + 1 := ⟨n - a.length - 1, by omega⟩
    rw [hm, take_succ_cons, take_succ_cons, take_take, Nat.min_eq_left (Nat.le_succ m)]

theorem Sorted.le_of_not_mem_take (h : Sorted key l) {n : Nat} {x y : α} (hx : x ∈ l) (hnot : x ∉ l.take n) (hy : y ∈ l.take n) :
    key x ≤ key y := by
  rw [← take_append_drop n l] at hx h
  obtain hx | hx := mem_append.1 hx
  · exact absurd hx hnot
  · exact (pairwise_append.1 h).2.2 y hy x hx

end Best
