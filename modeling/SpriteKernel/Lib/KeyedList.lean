import Mathlib.Algebra.Group.Basic
import Mathlib.Algebra.BigOperators.Group.List.Basic
import Mathlib.Data.List.Nodup
import Mathlib.Tactic.Abel

/- Lists walked to the first element a test accepts, which is then changed in place (`updateFirst`) or unlinked
   (`List.eraseP`). Where keys are pairwise distinct the first match is the only one, and membership in the changed
   list says exactly what happened to whom. -/
namespace KeyedList

open List

universe u v w
variable {α : Type u} {β : Type v}

/-- Apply `f` to the first element `p` accepts. -/
def updateFirst (p : α → Bool) (f : α → α) : List α → List α
  | [] => []
  | a :: l => if p a then f a :: l else a :: updateFirst p f l

/-! ## Keys and membership -/

variable {p : α → Bool} {f : α → α}

/-- What the update does not touch reads the same along the whole list. -/
theorem map_updateFirst {k : α → β} (hk : ∀ a, k (f a) = k a) (l : List α) : (updateFirst p f l).map k = l.map k := by
  induction l with
  | nil => rfl
  | cons a l ih =>
    unfold updateFirst
    split
    · simp [hk]
    · simp [ih]

variable {l : List α} {a b : α} {q : α → Bool}

theorem mem_of_mem_updateFirst (h : b ∈ updateFirst p f l) : b ∈ l ∨ ∃ a ∈ l, p a = true ∧ b = f a := by
  induction l with
  | nil => simp [updateFirst] at h
  | cons a l ih =>
    unfold updateFirst at h
    split at h
    · next hp =>
      rcases mem_cons.mp h with rfl | h
      · exact .inr ⟨a, mem_cons_self, hp, rfl⟩
      · exact .inl (mem_cons_of_mem a h)
    · rcases mem_cons.mp h with rfl | h
      · exact .inl mem_cons_self
      · rcases ih h with h | ⟨c, hc, hpc, rfl⟩
        · exact .inl (mem_cons_of_mem a h)
        · exact .inr ⟨c, mem_cons_of_mem a hc, hpc, rfl⟩

theorem eq_of_key_eq {key : α → β} (hnd : (l.map key).Nodup) {a b : α} (ha : a ∈ l)
    (hb : b ∈ l) (h : key a = key b) : a = b :=
  inj_on_of_nodup_map hnd ha hb h

/-! ## Looking up after a change -/

theorem find?_updateFirst_self (h : l.find? p = some a)
    (hf : p (f a) = true) : (updateFirst p f l).find? p = some (f a) := by
  induction l with
  | nil => simp at h
  | cons b l ih =>
    rw [List.find?_cons] at h
    unfold updateFirst
    split at h
    · next hp =>
      obtain rfl : b = a := Option.some.inj h
      rw [if_pos hp, List.find?_cons_of_pos hf]
    · next hp =>
      rw [if_neg (by simp [hp]), List.find?_cons_of_neg (by simp [hp])]
      exact ih h

/-- Nothing changes for a test that neither the element nor what becomes of it meets. -/
theorem find?_updateFirst_of_ne (h : ∀ a, p a = true → q a = false ∧ q (f a) = false)
    (l : List α) : (updateFirst p f l).find? q = l.find? q := by
  induction l with
  | nil => rfl
  | cons b l ih =>
    unfold updateFirst
    split
    · next hp =>
      rw [List.find?_cons_of_neg (by simp [(h b hp).2]), List.find?_cons_of_neg (by simp [(h b hp).1])]
    · rw [List.find?_cons, List.find?_cons, ih]

theorem find?_eraseP_of_ne (h : ∀ a, p a = true → q a = false) (l : List α) : (l.eraseP p).find? q = l.find? q := by
  induction l with
  | nil => rfl
  | cons b l ih =>
    by_cases hp : p b = true
    · rw [eraseP_cons_of_pos hp, List.find?_cons_of_neg (by simp [h b hp])]
    · rw [eraseP_cons_of_neg hp, List.find?_cons, List.find?_cons, ih]

section Keyed
variable [DecidableEq β] {key : α → β}

variable {l : List α}

section
variable (hnd : (l.map key).Nodup)
include hnd

theorem find?_key_eq_some (ha : a ∈ l) : l.find? (fun x => key x == key a) = some a := by
  cases hf : l.find? (fun x => key x == key a) with
  | none =>
    have := List.find?_eq_none.mp hf a ha
    simp at this
  | some b =>
    have hb := mem_of_find?_eq_some hf
    have hk : key b = key a := by simpa using List.find?_some hf
    rw [eq_of_key_eq hnd hb ha hk]

/-- Updating the bearer of key `c`: the others stay, the bearer is changed. -/
theorem mem_updateFirst_key {c : β} :
    b ∈ updateFirst (fun x => key x == c) f l ↔ (b ∈ l ∧ key b ≠ c) ∨ ∃ a ∈ l, key a = c ∧ b = f a := by
  induction l with
  | nil => simp [updateFirst]
  | cons a l ih =>
    rw [map_cons, nodup_cons] at hnd
    obtain ⟨hna, hnd⟩ := hnd
    unfold updateFirst
    by_cases hc : key a = c
    · have htail : ∀ x ∈ l, key x ≠ c := by
        intro x hx hxc
        exact hna (mem_map.mpr ⟨x, hx, hxc.trans hc.symm⟩)
      simp only [beq_iff_eq, hc, if_true, mem_cons]
      constructor
      · rintro (rfl | hb)
        · exact .inr ⟨a, .inl rfl, hc, rfl⟩
        · exact .inl ⟨.inr hb, htail b hb⟩
      · rintro (⟨rfl | hb, hbc⟩ | ⟨x, rfl | hx, hxc, rfl⟩)
        · exact absurd hc hbc
        · exact .inr hb
        · exact .inl rfl
        · exact absurd hxc (htail x hx)
    · simp only [beq_iff_eq, hc, if_false, mem_cons, ih hnd]
      constructor
      · rintro (rfl | ⟨hb, hbc⟩ | ⟨x, hx, hxc, rfl⟩)
        · exact .inl ⟨.inl rfl, hc⟩
        · exact .inl ⟨.inr hb, hbc⟩
        · exact .inr ⟨x, .inr hx, hxc, rfl⟩
      · rintro (⟨rfl | hb, hbc⟩ | ⟨x, rfl | hx, hxc, rfl⟩)
        · exact .inl rfl
        · exact .inr (.inl ⟨hb, hbc⟩)
        · exact absurd hxc hc
        · exact .inr (.inr ⟨x, hx, hxc, rfl⟩)

theorem mem_eraseP_key {c : β} : b ∈ l.eraseP (fun x => key x == c) ↔ b ∈ l ∧ key b ≠ c := by
  induction l with
  | nil => simp
  | cons a l ih =>
    rw [map_cons, nodup_cons] at hnd
    obtain ⟨hna, hnd⟩ := hnd
    by_cases hc : key a = c
    · rw [eraseP_cons_of_pos (by simpa using hc)]
      constructor
      · intro hb
        refine ⟨mem_cons_of_mem a hb, fun hbc => hna (mem_map.mpr ⟨b, hb, hbc.trans hc.symm⟩)⟩
      · rintro ⟨hb, hbc⟩
        rcases mem_cons.mp hb with rfl | hb
        · exact absurd hc hbc
        · exact hb
    · rw [eraseP_cons_of_neg (by simpa using hc), mem_cons, mem_cons, ih hnd]
      constructor
      · rintro (rfl | ⟨hb, hbc⟩)
        · exact ⟨.inl rfl, hc⟩
        · exact ⟨.inr hb, hbc⟩
      · rintro ⟨rfl | hb, hbc⟩
        · exact .inl rfl
        · exact .inr ⟨hb, hbc⟩

theorem find?_eraseP_key (c : β) : (l.eraseP (fun x => key x == c)).find? (fun x => key x == c) = none := by
  rw [List.find?_eq_none]
  intro b hb
  have hne := ((mem_eraseP_key hnd).mp hb).2
  simpa using hne

end

end Keyed

/-! ## Sums over the list -/

section Sum
variable {M : Type w} [AddCommGroup M] {p : α → Bool} {f : α → α} {wt : α → M}

theorem sum_updateFirst (h : l.find? p = some a) :
    ((updateFirst p f l).map wt).sum = (l.map wt).sum + (wt (f a) - wt a) := by
  induction l with
  | nil => simp at h
  | cons b l ih =>
    rw [List.find?_cons] at h
    unfold updateFirst
    split at h
    · next hp =>
      obtain rfl : b = a := Option.some.inj h
      simp only [hp, if_true, map_cons, sum_cons]
      abel
    · next hp =>
      simp only [hp, Bool.false_eq_true, if_false, map_cons, sum_cons, ih h]
      abel

theorem sum_eraseP (h : l.find? p = some a) : ((l.eraseP p).map wt).sum = (l.map wt).sum - wt a := by
  induction l with
  | nil => simp at h
  | cons b l ih =>
    rw [List.find?_cons] at h
    split at h
    · next hp =>
      obtain rfl : b = a := Option.some.inj h
      simp [eraseP_cons_of_pos hp]
    · next hp =>
      rw [eraseP_cons_of_neg (by simp [hp]), map_cons, sum_cons, ih h, map_cons,
        sum_cons]
      abel

end Sum

end KeyedList
