import SpriteKernel.Vm.Cow

/- Page tables and page frames name each other. What a frame that is allocated, freed or given
   away leaves of that. -/
namespace SpriteKernel.Vm

open Function

/-- A page that is copy-on-reference has nothing of its own, and one that is not resident has no
    frame. -/
structure Pte.Sound (pte : Pte) : Prop where
  cor : pte.cor = true → pte.physRes = false ∧ pte.onSwap = false ∧ pte.cow = false
  absent : pte.physRes = false → pte.cow = true ∨ pte.onSwap = true → pte.pageFrame = 0

/-- A resident page's frame is allocated for it, and an allocated frame's page is resident there. Frame 0 is the
    kernel's. -/
structure Linked (pte : Nat → Int → Pte) (core : Nat → Core) : Prop where
  owned : ∀ f n p, (core f).virtPage = some (n, p) → (pte n p).physRes = true ∧ (pte n p).pageFrame = f
  resident : ∀ n p, (pte n p).physRes = true →
    (pte n p).pageFrame = 0 ∨ (core (pte n p).pageFrame).virtPage = some (n, p)
  noFrame : (core 0).virtPage = none
  sound : ∀ n p, (pte n p).Sound
  locks : ∀ f, f ≠ 0 → 0 ≤ (core f).lockCount

/-- A page table with one entry changed, and one without the page that a frame has. -/
def setEntry (pte : Nat → Int → Pte) (n : Nat) (p : Int) (x : Pte) : Nat → Int → Pte :=
  fun k q => if k = n ∧ q = p then x else pte k q

def unmap (pte : Nat → Int → Pte) (core : Nat → Core) (f : Nat) : Nat → Int → Pte :=
  fun k q => if (core f).virtPage = some (k, q) then { pte k q with physRes := false, pageFrame := 0 } else pte k q

theorem setEntry_self (pte : Nat → Int → Pte) (n : Nat) (p : Int) (x : Pte) : setEntry pte n p x n p = x :=
  if_pos ⟨rfl, rfl⟩

variable {pte : Nat → Int → Pte}

theorem setEntry_of_ne {n k : Nat} {p q : Int} {x : Pte} (h : ¬(k = n ∧ q = p)) : setEntry pte n p x k q = pte k q :=
  if_neg h

theorem unmap_of_ne {core : Nat → Core} {f k : Nat} {q : Int}
    (h : (core f).virtPage ≠ some (k, q)) : unmap pte core f k q = pte k q :=
  if_neg h

namespace Linked
variable {pte pte' : Nat → Int → Pte} {core core' : Nat → Core} {n f : Nat} {p : Int} {x : Pte}

section
variable (h : Linked pte core)
include h

theorem not_owned (hp : (pte n p).physRes = false) (f : Nat) : (core f).virtPage ≠ some (n, p) := by
  intro hf
  have := (h.owned f n p hf).1
  simp [hp] at this

theorem retouch
    (hpte : ∀ k q, (pte' k q).physRes = (pte k q).physRes ∧
      ((pte k q).physRes = true → (pte' k q).pageFrame = (pte k q).pageFrame) ∧ (pte' k q).Sound) :
    Linked pte' core where
  owned := by
    intro g k q hg
    obtain ⟨hres, hframe⟩ := h.owned g k q hg
    exact ⟨(hpte k q).1.trans hres, ((hpte k q).2.1 hres).trans hframe⟩
  resident := by
    intro k q hres
    rw [(hpte k q).1] at hres
    rw [(hpte k q).2.1 hres]
    exact h.resident k q hres
  noFrame := h.noFrame
  sound := fun k q => (hpte k q).2.2
  locks := h.locks

theorem relock (hv : ∀ g, (core' g).virtPage = (core g).virtPage)
    (hl : ∀ g, g ≠ 0 → 0 ≤ (core' g).lockCount) : Linked pte core' where
  owned := by
    intro g k q hg
    rw [hv] at hg
    exact h.owned g k q hg
  resident := by
    intro k q hres
    rw [hv]
    exact h.resident k q hres
  noFrame := (hv 0).trans h.noFrame
  sound := h.sound
  locks := hl

theorem unmap (f : Nat) : Linked (unmap pte core f) (update core f ⟨none, 0⟩) where
  owned := by
    intro g k q hg
    obtain ⟨-, hself⟩ | ⟨hgf, hg⟩ := update_cases (P := (Core.virtPage · = some (k, q))) hg
    · cases hself
    · have hne : (core f).virtPage ≠ some (k, q) := by
        intro hf
        exact hgf ((h.owned g k q hg).2.symm.trans (h.owned f k q hf).2)
      rw [unmap_of_ne hne]
      exact h.owned g k q hg
  resident := by
    intro k q hres
    by_cases hf : (core f).virtPage = some (k, q)
    · simp [Vm.unmap, hf] at hres
    · rw [unmap_of_ne hf] at hres ⊢
      rcases h.resident k q hres with h0 | hv
      · exact .inl h0
      · refine .inr ?_
        rw [update_of_ne]
        · exact hv
        · intro hfr
          rw [hfr] at hv
          exact hf hv
  noFrame := by
    by_cases hf : 0 = f
    · simp [hf]
    · rw [update_of_ne hf]
      exact h.noFrame
  sound := by
    intro k q
    simp only [Vm.unmap]
    split
    · exact ⟨fun hc => ⟨rfl, ((h.sound k q).cor hc).2⟩, fun _ _ => rfl⟩
    · exact h.sound k q
  locks := by
    intro g hg
    by_cases hgf : g = f
    · simp [hgf]
    · rw [update_of_ne hgf]
      exact h.locks g hg

theorem place (hf : f ≠ 0) (hfree : (core f).virtPage = none)
    (hp : (pte n p).physRes = false) (hres : x.physRes = true) (hframe : x.pageFrame = f) (hs : x.Sound) :
    Linked (setEntry pte n p x) (update core f ⟨some (n, p), 0⟩) where
  owned := by
    intro g k q hg
    obtain ⟨rfl, hself⟩ | ⟨-, hold⟩ := update_cases (P := (Core.virtPage · = some (k, q))) hg
    · cases hself
      rw [setEntry_self]
      exact ⟨hres, hframe⟩
    · rw [setEntry_of_ne]
      · exact h.owned g k q hold
      · rintro ⟨rfl, rfl⟩
        exact h.not_owned hp g hold
  resident := by
    intro k q hr
    by_cases hk : k = n ∧ q = p
    · obtain ⟨rfl, rfl⟩ := hk
      rw [setEntry_self, hframe]
      simp
    · rw [setEntry_of_ne hk] at hr ⊢
      rcases h.resident k q hr with h0 | hv
      · exact .inl h0
      · refine .inr ?_
        rw [update_of_ne]
        · exact hv
        · intro hfr
          rw [hfr, hfree] at hv
          nomatch hv
  noFrame := by
    rw [update_of_ne hf.symm]
    exact h.noFrame
  sound := by
    intro k q
    simp only [setEntry]
    split
    · exact hs
    · exact h.sound k q
  locks := by
    intro g hg
    by_cases hgf : g = f
    · simp [hgf]
    · rw [update_of_ne hgf]
      exact h.locks g hg

/-- A frame is taken from its page and given to another one. -/
theorem replace (hf : f ≠ 0) (hp : (pte n p).physRes = false)
    (hres : x.physRes = true) (hframe : x.pageFrame = f) (hs : x.Sound) :
    Linked (setEntry (Vm.unmap pte core f) n p x) (update core f ⟨some (n, p), 0⟩) := by
  have hu := h.unmap f
  have hp' : (Vm.unmap pte core f n p).physRes = false := by
    rw [unmap_of_ne (h.not_owned hp f)]
    exact hp
  have := hu.place hf (by simp) hp' hres hframe hs
  rwa [Function.update_idem] at this

theorem rewrite (hp : (pte n p).physRes = false) (hx : x.physRes = false) (hs : x.Sound) :
    Linked (setEntry pte n p x) core := by
  apply h.retouch
  intro k q
  by_cases hk : k = n ∧ q = p
  · obtain ⟨rfl, rfl⟩ := hk
    rw [setEntry_self]
    exact ⟨hx.trans hp.symm, fun hr => (by cases hp.symm.trans hr), hs⟩
  · rw [setEntry_of_ne hk]
    exact ⟨rfl, fun _ => rfl, h.sound k q⟩

theorem validate (hp : (pte n p).physRes = false) (hres : x.physRes = true)
    (hframe : x.pageFrame = 0) (hcor : x.cor = false) : Linked (setEntry pte n p x) core where
  owned := by
    intro f k q hf
    rw [setEntry_of_ne]
    · exact h.owned f k q hf
    · rintro ⟨rfl, rfl⟩
      exact h.not_owned hp f hf
  resident := by
    intro k q hr
    by_cases hk : k = n ∧ q = p
    · obtain ⟨rfl, rfl⟩ := hk
      rw [setEntry_self]
      exact .inl hframe
    · rw [setEntry_of_ne hk] at hr ⊢
      exact h.resident k q hr
  noFrame := h.noFrame
  sound := by
    intro k q
    simp only [setEntry]
    split
    · exact ⟨fun hc => (by cases hcor.symm.trans hc), fun hr => by cases hr.symm.trans hres⟩
    · exact h.sound k q
  locks := h.locks

theorem give {dest : Nat} {others : Bool} {l : Int} (hp : (pte n p).physRes = true)
    (hcow : (pte n p).cow = true) (hd : (pte dest p).physRes = false)
    (hl : (pte n p).pageFrame ≠ 0 → 0 ≤ l) :
    Linked (setEntry (setEntry pte dest p { pte n p with cow := others }) n p .zero)
      (update core (pte n p).pageFrame
        ⟨(core (pte n p).pageFrame).virtPage.map fun v => (dest, v.2), l⟩) := by
  have hcor : (pte n p).cor = false := by
    cases hc : (pte n p).cor with
    | false => rfl
    | true => cases ((h.sound n p).cor hc).1.symm.trans hp
  have hnd : ¬(dest = n ∧ p = p) := by
    rintro ⟨rfl, -⟩
    cases hd.symm.trans hp
  have hself : setEntry (setEntry pte dest p { pte n p with cow := others }) n p .zero dest p =
      { pte n p with cow := others } := by
    rw [setEntry_of_ne hnd, setEntry_self]
  have hoff : ∀ k q, ¬(k = n ∧ q = p) → ¬(k = dest ∧ q = p) →
      setEntry (setEntry pte dest p { pte n p with cow := others }) n p .zero k q = pte k q := by
    intro k q h1 h2
    rw [setEntry_of_ne h1, setEntry_of_ne h2]
  refine ⟨?_, ?_, ?_, ?_, ?_⟩
  · intro g k q hg
    by_cases hgf : g = (pte n p).pageFrame
    · subst hgf
      rcases h.resident n p hp with h0 | hv
      · rw [h0] at hg
        simp [h.noFrame] at hg
      · simp only [update_self, hv, Option.map_some, Option.some.injEq, Prod.mk.injEq] at hg
        obtain ⟨rfl, rfl⟩ := hg
        rw [hself]
        exact ⟨hp, rfl⟩
    · rw [update_of_ne hgf] at hg
      rw [hoff]
      · exact h.owned g k q hg
      · rintro ⟨rfl, rfl⟩
        exact hgf (h.owned g k q hg).2.symm
      · rintro ⟨rfl, rfl⟩
        exact h.not_owned hd g hg
  · intro k q hr
    by_cases hk : k = n ∧ q = p
    · obtain ⟨rfl, rfl⟩ := hk
      rw [setEntry_self] at hr
      cases hr
    · by_cases hkd : k = dest ∧ q = p
      · obtain ⟨rfl, rfl⟩ := hkd
        rw [hself]
        rcases h.resident n q hp with h0 | hv
        · exact .inl h0
        · exact .inr (by simp [hv])
      · rw [hoff k q hk hkd] at hr ⊢
        rcases h.resident k q hr with h0 | hv
        · exact .inl h0
        · refine .inr ?_
          rw [update_of_ne]
          · exact hv
          · intro hfr
            rw [hfr] at hv
            rcases h.resident n p hp with h1 | h1
            · rw [h1, h.noFrame] at hv
              cases hv
            · rw [h1] at hv
              simp only [Option.some.injEq, Prod.mk.injEq] at hv
              exact hk ⟨hv.1.symm, hv.2.symm⟩
  · by_cases hf : 0 = (pte n p).pageFrame
    · simp [← hf, h.noFrame]
    · rw [update_of_ne hf]
      exact h.noFrame
  · intro k q
    by_cases hk : k = n ∧ q = p
    · obtain ⟨rfl, rfl⟩ := hk
      rw [setEntry_self]
      exact ⟨fun h => (by cases h), fun _ _ => rfl⟩
    · by_cases hkd : k = dest ∧ q = p
      · obtain ⟨rfl, rfl⟩ := hkd
        rw [hself]
        exact ⟨fun hc => (by cases hcor.symm.trans hc), fun hr => by cases hr.symm.trans hp⟩
      · rw [hoff k q hk hkd]
        exact h.sound k q
  · intro g hg
    by_cases hgf : g = (pte n p).pageFrame
    · subst hgf
      rw [update_self]
      exact hl hg
    · rw [update_of_ne hgf]
      exact h.locks g hg

end

end Linked

namespace Memory
variable {π : Type} (s : Memory π)

@[simp]
theorem coreMap_setPte (n : Nat) (p : Int) (x : Pte) : (s.setPte n p x).coreMap = s.coreMap := rfl

@[simp]
theorem infos_setSeg (n : Nat) (seg : CowSegment) : (s.setSeg n seg).infos = s.infos := rfl

@[simp]
theorem infos_setCore (f : Nat) (c : Core) : (s.setCore f c).infos = s.infos := rfl

@[simp]
theorem pte_setCore (f : Nat) (c : Core) : (s.setCore f c).pte = s.pte := rfl

@[simp]
theorem pte_lockPage (f : Nat) : (s.lockPage f).pte = s.pte := rfl

@[simp]
theorem pte_unlockPage (f : Nat) : (s.unlockPage f).pte = s.pte := rfl

/-- The counts of a segment are not in its page table. -/
@[simp]
theorem pte_recount (n : Nat) (a b c : Int) (i : Option Nat) :
    (s.setSeg n ⟨(s.segs n).toSegment, a, b, c, i⟩).pte = s.pte := by
  funext k p
  by_cases hk : k = n
  · subst hk
    simp only [pte, setSeg, update_self]
  · simp only [pte, setSeg, update_of_ne hk]

@[simp]
theorem pte_setPte (n : Nat) (p : Int) (x : Pte) : (s.setPte n p x).pte = setEntry s.pte n p x := by
  funext k q
  by_cases hk : k = n
  · subst hk
    have : q - (s.segs k).offset = p - (s.segs k).offset ↔ q = p := by omega
    simp only [pte, setPte, setSeg, update_self, setEntry, true_and, CowSegment.setPte, Segment.pte,
      update_apply, this]
  · simp only [pte, setPte, setSeg, update_of_ne hk, setEntry, hk, false_and, if_false]

@[simp]
theorem pte_setPTE (n : Nat) (p : Int) (x : Pte) : (s.setPTE n p x).pte = setEntry s.pte n p x := by
  unfold setPTE
  split
  · rw [pte_recount, pte_setPte]
  · rw [pte_setPte]

@[simp]
theorem coreMap_setPTE (n : Nat) (p : Int) (x : Pte) : (s.setPTE n p x).coreMap = s.coreMap := by
  unfold setPTE
  split <;> rfl

@[simp]
theorem infos_setPTE (n : Nat) (p : Int) (x : Pte) : (s.setPTE n p x).infos = s.infos := by
  unfold setPTE
  split <;> rfl

theorem pte_leaveChain (n : Nat) : (s.leaveChain n).pte = s.pte := by
  unfold leaveChain
  split
  · rfl
  · exact pte_recount s n _ _ _ none

@[simp]
theorem pte_leaveIfDone (n : Nat) : (s.leaveIfDone n).pte = s.pte := by
  unfold leaveIfDone
  split
  · exact s.pte_leaveChain n
  · rfl

theorem pte_evict (f : Nat) : (s.evict f).pte = unmap s.pte s.coreMap f := by
  unfold evict
  cases hv : (s.coreMap f).virtPage with
  | none =>
    funext k q
    simp [unmap, hv]
  | some v =>
    obtain ⟨k, old⟩ := v
    funext j q
    rw [pte_setPte, pte_recount]
    simp only [setEntry, unmap, hv, Option.some.injEq, Prod.mk.injEq]
    by_cases hj : j = k ∧ q = old
    · obtain ⟨rfl, rfl⟩ := hj
      simp
    · rw [if_neg hj, if_neg fun h => hj ⟨h.1.symm, h.2.symm⟩]

@[simp]
theorem coreMap_evict (f : Nat) : (s.evict f).coreMap = s.coreMap := by
  unfold evict
  split <;> rfl

@[simp]
theorem infos_evict (f : Nat) : (s.evict f).infos = s.infos := by
  unfold evict
  split <;> rfl

end Memory

end SpriteKernel.Vm
