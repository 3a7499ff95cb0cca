import Mathlib.Logic.Basic
import Mathlib.Data.List.Nodup

/- Suppressing duplicates with a bounded memory. What is handed out is known by a key; each entry of a table knows
   the last key it was given, and may be `pending`. A key is `live` while something may yet arrive for it. `Guards`:
   nothing was handed out twice, and a live key that was handed out is known to some entry, and to none that is
   pending. -/
namespace Remembered

open List

universe u v
variable {ι : Type u} {κ : Type v}

structure Memory (ι : Type u) (κ : Type v) where
  known : ι → Option κ
  pending : ι → Prop

structure Guards (m : Memory ι κ) (live : κ → Prop) (handed : List κ) : Prop where
  nodup : handed.Nodup
  remembered : ∀ k ∈ handed, live k → (∃ i, m.known i = some k) ∧ ∀ i, m.known i = some k → ¬ m.pending i
  alone : ∀ i j k, m.known i = some k → m.known j = some k → m.pending i → j = i

/-- All entries but `i` are as they were, or stopped collecting. -/
structure SameBut (i : ι) (m m' : Memory ι κ) : Prop where
  known : ∀ j, j ≠ i → m'.known j = m.known j
  pending : ∀ j, j ≠ i → m'.pending j → m.pending j

section rules
variable {m m' : Memory ι κ} {live live' : κ → Prop} {handed : List κ} {i : ι} {k : κ}

section
variable (h : Guards m live handed)
include h

theorem Guards.keep (hknown : ∀ i, m'.known i = m.known i)
    (hpending : ∀ i, m'.pending i → m.pending i) (hlive : ∀ k ∈ handed, live' k → live k) : Guards m' live' handed where
  nodup := h.nodup
  remembered := by
    intro k hk hl
    obtain ⟨⟨i, hi⟩, hall⟩ := h.remembered k hk (hlive k hk hl)
    refine ⟨⟨i, by rw [hknown, hi]⟩, fun j hj hp => ?_⟩
    rw [hknown] at hj
    exact hall j hj (hpending j hp)
  alone := by
    intro i j k hi hj hp
    rw [hknown] at hi hj
    exact h.alone i j k hi hj (hpending i hp)

section
variable (hsame : SameBut i m m')
include hsame

theorem Guards.still_known
    (hold : ∀ k, m.known i = some k → k ∈ handed → ¬ live k) (hk : k ∈ handed) (hl : live k) : ∃ j, m'.known j = some k := by
  obtain ⟨⟨j, hj⟩, -⟩ := h.remembered k hk hl
  by_cases hji : j = i
  · rw [hji] at hj
    exact absurd hl (hold k hj hk)
  · exact ⟨j, by rw [hsame.known j hji, hj]⟩

theorem Guards.rebind (hi : ¬ m'.pending i)
    (hold : ∀ k, m.known i = some k → k ∈ handed → ¬ live k)
    (hnew : ∀ k j, m'.known i = some k → m.known j = some k → ¬ m.pending j)
    (hlive : ∀ k ∈ handed, live' k → live k) : Guards m' live' handed where
  nodup := h.nodup
  remembered := by
    intro k hk hl
    obtain ⟨-, hall⟩ := h.remembered k hk (hlive k hk hl)
    refine ⟨h.still_known hsame hold hk (hlive k hk hl), fun j hj hp => ?_⟩
    by_cases hji : j = i
    · rw [hji] at hp
      exact hi hp
    · rw [hsame.known j hji] at hj
      exact hall j hj (hsame.pending j hji hp)
  alone := by
    intro j l k hj hl hp
    have hji : j ≠ i := by
      rintro rfl
      exact hi hp
    rw [hsame.known j hji] at hj
    by_cases hli : l = i
    · rw [hli] at hl
      exact absurd (hsame.pending j hji hp) (hnew k j hl hj)
    · rw [hsame.known l hli] at hl
      exact h.alone j l k hj hl (hsame.pending j hji hp)

/-- Entry `i` begins to collect what belongs to a key that no entry knows. -/
theorem Guards.begin (hi : m'.known i = some k)
    (hnone : ∀ j, m.known j ≠ some k) (hold : ∀ k, m.known i = some k → k ∈ handed → ¬ live k)
    (hlive : ∀ k ∈ handed, live' k → live k) : Guards m' live' handed where
  nodup := h.nodup
  remembered := by
    intro k' hk hl
    obtain ⟨⟨j, hj⟩, hall⟩ := h.remembered k' hk (hlive k' hk hl)
    refine ⟨h.still_known hsame hold hk (hlive k' hk hl), fun l hl' hp => ?_⟩
    by_cases hli : l = i
    · -- the key would be known already
      rw [hli, hi, Option.some.injEq] at hl'
      rw [← hl'] at hj
      exact hnone j hj
    · rw [hsame.known l hli] at hl'
      exact hall l hl' (hsame.pending l hli hp)
  alone := by
    intro j l k' hj hl hp
    by_cases hji : j = i
    · by_cases hli : l = i
      · rw [hli, hji]
      · rw [hji, hi] at hj
        rw [hsame.known l hli, ← hj] at hl
        exact absurd hl (hnone l)
    · by_cases hli : l = i
      · rw [hli, hi] at hl
        rw [hsame.known j hji, ← hl] at hj
        exact absurd hj (hnone j)
      · rw [hsame.known j hji] at hj
        rw [hsame.known l hli] at hl
        exact h.alone j l k' hj hl (hsame.pending j hji hp)

/-- A key that no entry knows is given to entry `i`, and handed out at once. -/
theorem Guards.take (hi : m'.known i = some k) (hidle : ¬ m'.pending i)
    (hnone : ∀ j, m.known j ≠ some k) (hk : live k) (hold : ∀ k, m.known i = some k → k ∈ handed → ¬ live k)
    (hlive : ∀ k ∈ handed, live' k → live k) : Guards m' live' (k :: handed) := by
  have hrest := h.begin hsame hi hnone hold hlive
  refine ⟨nodup_cons.2 ⟨fun hin => ?_, h.nodup⟩, ?_, hrest.alone⟩
  · obtain ⟨⟨j, hj⟩, -⟩ := h.remembered k hin hk
    exact hnone j hj
  · intro k' hk' hl
    rcases mem_cons.1 hk' with rfl | hin
    · refine ⟨⟨i, hi⟩, fun j hj hp => ?_⟩
      by_cases hji : j = i
      · rw [hji] at hp
        exact hidle hp
      · rw [hsame.known j hji] at hj
        exact hnone j hj
    · exact hrest.remembered k' hin hl

end

theorem Guards.complete (hknown : ∀ j, m'.known j = m.known j)
    (hpending : ∀ j, m'.pending j → m.pending j) (hi : m.known i = some k) (hwas : m.pending i)
    (hidle : ¬ m'.pending i) (hk : live k) (hlive : ∀ k ∈ handed, live' k → live k) : Guards m' live' (k :: handed) := by
  have hrest := h.keep hknown hpending hlive
  refine ⟨nodup_cons.2 ⟨fun hin => ?_, h.nodup⟩, ?_, hrest.alone⟩
  · exact (h.remembered k hin hk).2 i hi hwas
  · intro k' hk' hl
    rcases mem_cons.1 hk' with rfl | hin
    · refine ⟨⟨i, by rw [hknown, hi]⟩, fun j hj hp => ?_⟩
      rw [hknown] at hj
      rw [h.alone i j k' hi hj hwas] at hp
      exact hidle hp
    · exact hrest.remembered k' hin hl

end

end rules
end Remembered
