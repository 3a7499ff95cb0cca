import SpriteKernel.Lib.Update

/- Spans of a memory: a partial map that says which spans there are, each by the address where it
   begins, its size and what it is. The spans of a map are apart when no two of them overlap. -/
namespace Spans

open Function

structure Span (κ : Type) where
  size : Int
  kind : κ
  deriving DecidableEq

variable {κ : Type} {f : Int → Option (Span κ)} {a b n : Int} {x y z : Span κ}

def put (f : Int → Option (Span κ)) (a : Int) (x : Span κ) : Int → Option (Span κ) := update f a (some x)

def remove (f : Int → Option (Span κ)) (a : Int) : Int → Option (Span κ) := update f a none

@[simp] theorem put_self : put f a x a = some x := update_self _ _ _

theorem put_of_ne (h : b ≠ a) : put f a x b = f b := update_of_ne h _ _

@[simp] theorem remove_self : remove f a a = none := update_self _ _ _

theorem remove_of_ne (h : b ≠ a) : remove f a b = f b := update_of_ne h _ _

theorem put_eq_some (h : put f a x b = some y) : (b = a ∧ y = x) ∨ (b ≠ a ∧ f b = some y) :=
  of_update_some h

theorem remove_eq_some (h : remove f a b = some y) : b ≠ a ∧ f b = some y :=
  of_update_none h

/-- No two spans overlap, and none is empty. -/
structure Apart (f : Int → Option (Span κ)) : Prop where
  pos : ∀ a x, f a = some x → 0 < x.size
  apart : ∀ a b x y, f a = some x → f b = some y → a ≠ b → a + x.size ≤ b ∨ b + y.size ≤ a

namespace Apart

section
variable (h : Apart f)
include h

theorem start_not_mem (hx : f a = some x) (hy : f b = some y) (hab : a ≠ b) : a < b ∨ b + y.size ≤ a := by
  have hpos := h.pos a x hx
  obtain hle | hle := h.apart a b x y hx hy hab
  · exact .inl (by omega)
  · exact .inr hle

theorem remove (a : Int) : Apart (remove f a) where
  pos b y hb := h.pos b y (remove_eq_some hb).2
  apart b c y z hb hc := h.apart b c y z (remove_eq_some hb).2 (remove_eq_some hc).2

theorem put (hpos : 0 < x.size) (hfree : ∀ b y, f b = some y → b ≠ a → a + x.size ≤ b ∨ b + y.size ≤ a) :
    Apart (put f a x) where
  pos b y hb := by
    obtain ⟨-, rfl⟩ | ⟨-, hb⟩ := put_eq_some hb
    · exact hpos
    · exact h.pos b y hb
  apart b c y z hb hc hbc := by
    obtain ⟨rfl, rfl⟩ | ⟨hba, hfb⟩ := put_eq_some hb
    · obtain ⟨rfl, -⟩ | ⟨hca, hfc⟩ := put_eq_some hc
      · exact absurd rfl hbc
      · exact hfree c z hfc hca
    · obtain ⟨rfl, rfl⟩ | ⟨-, hfc⟩ := put_eq_some hc
      · exact (hfree b y hfb hba).symm
      · exact h.apart b c y z hfb hfc hbc

theorem put_within (hx : f a = some x) (hpos : 0 < y.size) (hle : y.size ≤ x.size) : Apart (Spans.put f a y) := by
  refine h.put hpos fun b z hz hb => ?_
  obtain hle' | hle' := h.apart a b x z hx hz hb.symm
  · exact .inl (by omega)
  · exact .inr hle'

theorem merge (hx : f a = some x) (hy : f (a + x.size) = some y) (hz : z.size = x.size + y.size) :
    Apart (Spans.put (Spans.remove f (a + x.size)) a z) := by
  have hxpos := h.pos a x hx
  have hypos := h.pos _ y hy
  refine (h.remove _).put (by omega) fun b w hw hb => ?_
  obtain ⟨hbn, hw⟩ := remove_eq_some hw
  obtain hle | hle := h.apart a b x w hx hw hb.symm
  · obtain hle' | hle' := h.apart (a + x.size) b y w hy hw hbn.symm
    · exact .inl (by omega)
    · exact .inr (by have := h.pos b w hw; omega)
  · exact .inr hle

theorem split (hx : f a = some x) (hn : 0 < y.size) (hz : 0 < z.size) (hsum : y.size + z.size = x.size) :
    Apart (Spans.put (Spans.put f a y) (a + y.size) z) := by
  refine (h.put_within hx hn (by omega)).put hz fun b w hw hb => ?_
  obtain ⟨rfl, rfl⟩ | ⟨hba, hw⟩ := put_eq_some hw
  · exact .inr (Int.le_refl _)
  · obtain hle | hle := h.apart a b x w hx hw hba.symm
    · exact .inl (by omega)
    · exact .inr (by omega)

end

end Apart
end Spans
