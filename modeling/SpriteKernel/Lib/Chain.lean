import Mathlib.Data.List.Nodup
import Mathlib.Logic.Function.Basic

/- A singly linked list threaded through a table: `link` gives each element its successor, and `nil` ends the list.
   Only the links of its own elements matter (`Links.congr`). -/
namespace Chain

open Function List

universe u
variable {ι : Type u}

/-- From `a` the links lead through the elements of `l` to `nil`. -/
def Links (link : ι → ι) (nil : ι) : ι → List ι → Prop
  | a, [] => a = nil
  | a, b :: l => a = b ∧ b ≠ nil ∧ Links link nil (link b) l

variable {link link' : ι → ι} {nil : ι} {l : List ι}

theorem Links.eq_nil (h : Links link nil nil l) : l = [] := by
  cases l with
  | nil => rfl
  | cons b l => exact absurd h.1.symm h.2.1

/-- A list that does not start at the end has a head. -/
theorem Links.head {a : ι} (h : Links link nil a l) (ha : a ≠ nil) :
    ∃ rest, l = a :: rest ∧ Links link nil (link a) rest := by
  cases l with
  | nil => exact absurd h ha
  | cons b l =>
    obtain ⟨rfl, -, hrest⟩ := h
    exact ⟨l, rfl, hrest⟩

theorem Links.congr {a : ι} (h : Links link nil a l) (hl : ∀ b ∈ l, link' b = link b) : Links link' nil a l := by
  induction l generalizing a with
  | nil => exact h
  | cons b l ih =>
    obtain ⟨hab, hne, hrest⟩ := h
    refine ⟨hab, hne, ?_⟩
    rw [hl b mem_cons_self]
    exact ih hrest (fun c hc => hl c (mem_cons_of_mem b hc))

variable [DecidableEq ι]

theorem Links.update {a b : ι} (h : Links link nil a l) (hb : b ∉ l) (c : ι) : Links (update link b c) nil a l :=
  h.congr (fun d hd => update_of_ne (fun he : d = b => hb (he ▸ hd)) c link)

theorem Links.cons {a b : ι} (h : Links link nil a l) (hb : b ∉ l) (hne : b ≠ nil) :
    Links (Function.update link b a) nil b (b :: l) := by
  refine ⟨rfl, hne, ?_⟩
  rw [Function.update_self]
  exact h.update hb a

theorem Links.append {a b last : ι} {l m : List ι} (h : Links link nil a l) (hm : Links link nil b m)
    (hlast : l.getLast? = some last) (hnodup : l.Nodup) (hdisj : ∀ c ∈ m, c ∉ l) :
    Links (Function.update link last b) nil a (l ++ m) := by
  induction l generalizing a with
  | nil => simp at hlast
  | cons c l ih =>
    obtain ⟨rfl, hne, hrest⟩ := h
    obtain ⟨hc, hl⟩ := nodup_cons.mp hnodup
    refine ⟨rfl, hne, ?_⟩
    cases l with
    | nil =>
      obtain rfl : a = last := by simpa using hlast
      rw [Function.update_self]
      exact hm.update (fun hmem => hdisj a hmem mem_cons_self) b
    | cons d l =>
      have hlast' : (d :: l).getLast? = some last := by rw [← hlast, List.getLast?_cons_cons]
      have hne' : a ≠ last := fun he => hc (he ▸ mem_of_getLast? hlast')
      rw [Function.update_of_ne hne']
      exact ih hrest hlast' hl (fun e he hel => hdisj e he (mem_cons_of_mem a hel))

theorem Links.insert {head a last : ι} {l m : List ι} (hm : Links link nil head (head :: m))
    (hl : Links link nil a l) (hlast : l.getLast? = some last) (hnodup : l.Nodup)
    (hhead : head ∉ m) (hdisj : ∀ c ∈ head :: m, c ∉ l) :
    Links (Function.update (Function.update link head a) last (link head)) nil head (head :: (l ++ m)) := by
  obtain ⟨-, hne, hrest⟩ := hm
  have hhl : head ∉ l := hdisj head mem_cons_self
  have hlast_ne : head ≠ last := fun he => hhl (he ▸ mem_of_getLast? hlast)
  refine ⟨rfl, hne, ?_⟩
  rw [Function.update_of_ne hlast_ne, Function.update_self]
  exact (hl.update hhl a).append (hrest.update hhead a) hlast hnodup
    (fun c hc => hdisj c (mem_cons_of_mem head hc))

end Chain
