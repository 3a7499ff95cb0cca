import Mathlib.Logic.Function.Basic

/- What an updated function has at a place: the new value there, and elsewhere what it had. -/
namespace Function

variable {α β γ : Type*} [DecidableEq α] {a b : α} {x y : β} {f : α → β}

theorem update_cases {P : β → Prop} (h : P (update f a x b)) : b = a ∧ P x ∨ b ≠ a ∧ P (f b) := by
  by_cases hb : b = a
  · subst hb
    rw [update_self] at h
    exact .inl ⟨rfl, h⟩
  · rw [update_of_ne hb] at h
    exact .inr ⟨hb, h⟩

theorem of_update (h : update f a x b = y) : b = a ∧ x = y ∨ b ≠ a ∧ f b = y :=
  update_cases (P := (· = y)) h

theorem of_update_ne (h : update f a x b = y) (hne : x ≠ y) : b ≠ a ∧ f b = y :=
  (of_update h).resolve_left fun hself => hne hself.2

theorem of_update_some {f : α → Option β} (h : update f a (some x) b = some y) : b = a ∧ y = x ∨ b ≠ a ∧ f b = some y :=
  (of_update h).imp_left fun hself => ⟨hself.1, (Option.some.inj hself.2).symm⟩

theorem of_update_none {f : α → Option β} (h : update f a none b = some y) : b ≠ a ∧ f b = some y :=
  of_update_ne h nofun

theorem update_rel {R : β → β → Prop} (h : R x (f a)) (hrefl : ∀ y, R y y) (b : α) : R (update f a x b) (f b) := by
  by_cases hb : b = a
  · subst hb
    rwa [update_self]
  · rw [update_of_ne hb]
    exact hrefl _

/-- What is the same of the new value and the old one is the same everywhere. -/
theorem update_same {g : β → γ} (h : g x = g (f a)) (b : α) : g (update f a x b) = g (f b) :=
  update_rel (R := fun y z => g y = g z) h (fun _ => rfl) b

end Function
