import Mathlib.Logic.Relation

/- Labelled transition systems given by a partial step function, and the runs of one whose steps all meet a condition
   `C` on the state a step is taken in and its label. `Run step C` is the reflexive transitive closure of the steps. -/
namespace Transition

universe u v
variable {σ : Type u} {α : Type v} {step : σ → α → Option σ} {C : σ → α → Prop} {s t u : σ}

/-- One step, by a label `C` allows in the state the step is taken in. -/
def Step (step : σ → α → Option σ) (C : σ → α → Prop) (s t : σ) : Prop :=
  ∃ l, C s l ∧ step s l = some t

/-- A run whose every step meets `C`. -/
def Run (step : σ → α → Option σ) (C : σ → α → Prop) : σ → σ → Prop :=
  Relation.ReflTransGen (Step step C)

theorem Run.refl (C : σ → α → Prop) (s : σ) : Run step C s s := Relation.ReflTransGen.refl

theorem Run.snoc {l : α} (h : Run step C s t) (hc : C t l) (hs : step t l = some u) : Run step C s u :=
  Relation.ReflTransGen.tail h ⟨l, hc, hs⟩

theorem Run.trans (h₁ : Run step C s t) (h₂ : Run step C t u) : Run step C s u :=
  Relation.ReflTransGen.trans h₁ h₂

theorem Run.mono {C D : σ → α → Prop} (h : ∀ s l, C s l → D s l) {s t : σ} (hr : Run step C s t) : Run step D s t :=
  Relation.ReflTransGen.mono (fun a _ ⟨l, hc, hs⟩ => ⟨l, h a l hc, hs⟩) _ _ hr

theorem Run.invariant {I : σ → Prop} (pres : ∀ s l t, I s → C s l → step s l = some t → I t) {s t : σ}
    (hr : Run step C s t) (hi : I s) : I t := by
  induction hr with
  | refl => exact hi
  | tail _ hst ih =>
    obtain ⟨l, hc, hs⟩ := hst
    exact pres _ l _ ih hc hs

theorem Run.invariant_on {K I : σ → Prop} {s t : σ} (known : ∀ u, Run step C s u → K u)
    (pres : ∀ u l v, K u → I u → C u l → step u l = some v → I v)
    (hr : Run step C s t) (hi : I s) : I t := by
  induction hr with
  | refl => exact hi
  | tail hrun hst ih =>
    obtain ⟨l, hc, hs⟩ := hst
    exact pres _ l _ (known _ hrun) ih hc hs

/-- Execute the labels in order; `none` where one of them is not enabled. -/
def exec (step : σ → α → Option σ) : σ → List α → Option σ
  | s, [] => some s
  | s, l :: ls => (step s l).bind (fun t => exec step t ls)

theorem run_of_exec {A : α → Prop} : ∀ (ls : List α) (s t : σ), (∀ l ∈ ls, A l) →
    exec step s ls = some t → Run step (fun _ l => A l) s t
  | [], s, t, _, h => by
    simp only [exec, Option.some.injEq] at h
    exact h ▸ Run.refl _ s
  | l :: ls, s, t, ha, h => by
    simp only [exec, Option.bind_eq_some_iff] at h
    obtain ⟨u, hu, ht⟩ := h
    have hrest := run_of_exec ls u t (fun x hx => ha x (List.mem_cons_of_mem l hx)) ht
    exact Run.trans (Run.snoc (Run.refl _ s) (ha l List.mem_cons_self) hu) hrest

/-- A run goes on with labels that `C` allows in any state. -/
theorem Run.free (h : Run step C s t) (ls : List α) (hfree : ∀ l ∈ ls, ∀ s, C s l)
    (hu : exec step t ls = some u) : Run step C s u :=
  h.trans ((run_of_exec (A := fun l => ∀ s, C s l) ls t u hfree hu).mono fun s _ hl => hl s)

/-- The step function that takes no step `C` does not allow. -/
def guarded (C : σ → α → Prop) [∀ s l, Decidable (C s l)] (step : σ → α → Option σ) (s : σ) (l : α) :
    Option σ :=
  if C s l then step s l else none

theorem run_of_guarded [∀ s l, Decidable (C s l)] : ∀ (ls : List α) (s t : σ),
    exec (guarded C step) s ls = some t → Run step C s t
  | [], s, t, h => by
    simp only [exec, Option.some.injEq] at h
    exact h ▸ Run.refl C s
  | l :: ls, s, t, h => by
    simp only [exec, Option.bind_eq_some_iff, guarded, Option.ite_none_right_eq_some] at h
    obtain ⟨u, ⟨hc, hu⟩, ht⟩ := h
    exact Run.trans (Run.snoc (Run.refl C s) hc hu) (run_of_guarded ls u t ht)

end Transition
