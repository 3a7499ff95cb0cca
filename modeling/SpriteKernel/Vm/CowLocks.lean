import SpriteKernel.Vm.CowFrames

/- The locks that the operations of copy-on-write take and give back. -/
namespace SpriteKernel.Vm.Memory

open Function
variable {π : Type} {s s' s'' : Memory π}

/-- What holds of memory between two operations. -/
structure Sound (s : Memory π) : Prop where
  linked : Linked s.pte s.coreMap
  chains : ∀ i, (s.infos i).cowList.Nodup

/-- Every user frame is locked as often as before, and none that is locked is lost. -/
def Steady (s s' : Memory π) : Prop :=
  ∀ f, f ≠ 0 → (s'.coreMap f).lockCount = (s.coreMap f).lockCount ∧
    (0 < (s.coreMap f).lockCount → (s.coreMap f).virtPage ≠ none → (s'.coreMap f).virtPage ≠ none)

/-- Every user frame is locked at least as often as before. -/
def Above (s s' : Memory π) : Prop :=
  ∀ f, f ≠ 0 → (s.coreMap f).lockCount ≤ (s'.coreMap f).lockCount ∧
    (0 < (s.coreMap f).lockCount → (s.coreMap f).virtPage ≠ none → (s'.coreMap f).virtPage ≠ none)

/-- Some user frame that is allocated is locked more often than before. -/
def Raised (s s' : Memory π) : Prop :=
  ∃ f, f ≠ 0 ∧ (s'.coreMap f).virtPage ≠ none ∧ (s.coreMap f).lockCount < (s'.coreMap f).lockCount

theorem Steady.refl (s : Memory π) : Steady s s := fun _ _ => ⟨rfl, fun _ h => h⟩

theorem Steady.above (h : Steady s s') : Above s s' := fun f hf => ⟨Int.le_of_eq (h f hf).1.symm, (h f hf).2⟩

theorem Steady.trans (h : Steady s s') (h' : Steady s' s'') : Steady s s'' := by
  intro f hf
  obtain ⟨hl, hv⟩ := h f hf
  obtain ⟨hl', hv'⟩ := h' f hf
  exact ⟨hl'.trans hl, fun hp ho => hv' (hl.symm ▸ hp) (hv hp ho)⟩

theorem Above.trans (h : Above s s') (h' : Above s' s'') : Above s s'' := by
  intro f hf
  obtain ⟨hl, hv⟩ := h f hf
  obtain ⟨hl', hv'⟩ := h' f hf
  exact ⟨Int.le_trans hl hl', fun hp ho => hv' (by omega) (hv hp ho)⟩

theorem Raised.above (h : Raised s s') (h' : Above s' s'') (hs : Sound s) : Raised s s'' := by
  obtain ⟨f, hf, ho, hl⟩ := h
  obtain ⟨hl', hv'⟩ := h' f hf
  have := hs.linked.locks f hf
  exact ⟨f, hf, hv' (by omega) ho, by omega⟩

theorem Raised.steady (h : Steady s s') (h' : Raised s' s'') : Raised s s'' := by
  obtain ⟨f, hf, ho, hl⟩ := h'
  exact ⟨f, hf, ho, (h f hf).1 ▸ hl⟩

/-- What an operation does to the locks if they are given back on the condition that `P`. -/
structure Outcome (P : Prop) (s s' : Memory π) : Prop where
  above : Above s s'
  steady : P → Steady s s'
  raised : ¬P → Raised s s'

theorem Steady.outcome (h : Steady s s') {P : Prop} (hp : P) : Outcome P s s' :=
  ⟨h.above, fun _ => h, fun hn => absurd hp hn⟩

theorem Outcome.trans {P Q : Prop} (h : Outcome P s s') (h' : Outcome Q s' s'') (hs : Sound s) :
    Outcome (P ∧ Q) s s'' where
  above := h.above.trans h'.above
  steady := fun hpq => (h.steady hpq.1).trans (h'.steady hpq.2)
  raised := by
    intro hn
    by_cases hp : P
    · exact Raised.steady (h.steady hp) (h'.raised fun hq => hn ⟨hp, hq⟩)
    · exact (h.raised hp).above h'.above hs

/-- A frame allocated afterwards is locked as often as before; one allocated meanwhile was not locked. -/
def Balanced (s s' : Memory π) : Prop :=
  ∀ f, (s'.coreMap f).virtPage ≠ none → (s'.coreMap f).lockCount = (s.coreMap f).lockCount

theorem Outcome.balanced {P : Prop} (h : Outcome P s s') (hs : Sound s') : Balanced s s' ↔ P := by
  constructor
  · intro hb
    by_contra hp
    obtain ⟨f, -, ho, hl⟩ := h.raised hp
    have := hb f ho
    omega
  · intro hp f ho
    have hf : f ≠ 0 := by
      rintro rfl
      exact ho hs.linked.noFrame
    exact (h.steady hp f hf).1

/-- Only entries change, and nothing in them that a frame has to do with. -/
structure Light (s s' : Memory π) : Prop where
  core : s'.coreMap = s.coreMap
  lists : ∀ i, (s'.infos i).cowList.Sublist (s.infos i).cowList
  pages : ∀ k q, (s'.pte k q).physRes = (s.pte k q).physRes ∧
    ((s.pte k q).physRes = true → (s'.pte k q).pageFrame = (s.pte k q).pageFrame) ∧
    ((s.pte k q).Sound → (s'.pte k q).Sound)

namespace Light

theorem of_same (hp : s'.pte = s.pte) (hc : s'.coreMap = s.coreMap)
    (hl : ∀ i, (s'.infos i).cowList.Sublist (s.infos i).cowList) : Light s s' where
  core := hc
  lists := hl
  pages := by
    intro k q
    rw [hp]
    exact ⟨rfl, fun _ => rfl, id⟩

theorem refl (s : Memory π) : Light s s := of_same rfl rfl fun _ => List.Sublist.refl _

theorem trans (h : Light s s') (h' : Light s' s'') : Light s s'' where
  core := h'.core.trans h.core
  lists := fun i => (h'.lists i).trans (h.lists i)
  pages := by
    intro k q
    obtain ⟨hr, hf, hs⟩ := h.pages k q
    obtain ⟨hr', hf', hs'⟩ := h'.pages k q
    exact ⟨hr'.trans hr, fun hp => (hf' (hr.trans hp)).trans (hf hp), hs' ∘ hs⟩

theorem sound (h : Light s s') (hs : Sound s) : Sound s' where
  linked := by
    rw [h.core]
    exact hs.linked.retouch fun k q => ⟨(h.pages k q).1, (h.pages k q).2.1, (h.pages k q).2.2 (hs.linked.sound k q)⟩
  chains := fun i => (h.lists i).nodup (hs.chains i)

theorem steady (h : Light s s') : Steady s s' := by
  intro f _
  rw [h.core]
  exact ⟨rfl, fun _ ho => ho⟩

theorem after (h : Light s' s'') (hs : Sound s' ∧ Steady s s') : Sound s'' ∧ Steady s s'' :=
  ⟨h.sound hs.1, hs.2.trans h.steady⟩

theorem recount (s : Memory π) (n : Nat) (a b c : Int) (i : Option Nat) :
    Light s (s.setSeg n ⟨(s.segs n).toSegment, a, b, c, i⟩) :=
  of_same (pte_recount s n a b c i) rfl fun _ => List.Sublist.refl _

theorem leaveChain (s : Memory π) (n : Nat) : Light s (s.leaveChain n) := by
  unfold Memory.leaveChain
  split
  · exact refl s
  next i _ =>
    apply of_same
    · exact pte_recount s n _ _ _ none
    · rfl
    · intro j
      by_cases hj : j = i
      · subst hj
        simp only [update_self]
        exact List.erase_sublist
      · simp only [update_of_ne hj]
        exact List.Sublist.refl _

theorem leaveIfDone (s : Memory π) (n : Nat) : Light s (s.leaveIfDone n) := by
  unfold Memory.leaveIfDone
  split
  · exact leaveChain s n
  · exact refl s

theorem setPte (n : Nat) (p : Int) (x : Pte) (hr : x.physRes = (s.pte n p).physRes)
    (hf : (s.pte n p).physRes = true → x.pageFrame = (s.pte n p).pageFrame)
    (hs : (s.pte n p).Sound → x.Sound) : Light s (s.setPte n p x) where
  core := rfl
  lists := fun _ => List.Sublist.refl _
  pages := by
    intro k q
    rw [pte_setPte]
    by_cases hk : k = n ∧ q = p
    · obtain ⟨rfl, rfl⟩ := hk
      rw [setEntry_self]
      exact ⟨hr, hf, hs⟩
    · rw [setEntry_of_ne hk]
      exact ⟨rfl, fun _ => rfl, id⟩

theorem clearCow (s : Memory π) (n : Nat) (p : Int) : Light s (s.setPte n p { s.pte n p with cow := false }) := by
  apply setPte
  · rfl
  · exact fun _ => rfl
  · intro hs
    exact ⟨fun hc => ⟨(hs.cor hc).1, (hs.cor hc).2.1, rfl⟩, fun hr ho => hs.absent hr (.inr (by simpa using ho))⟩

theorem seeIfLastCOR (s : Memory π) (n : Nat) (p : Int) : Light s (s.seeIfLastCOR n p) := by
  unfold Memory.seeIfLastCOR
  split
  · exact refl s
  · exact ((clearCow s n p).trans (recount _ n _ _ _ _)).trans (leaveIfDone _ n)

theorem resetLast (s : Memory π) (m : Params) (k : Nat) : Light s (s.resetLast m k) where
  core := rfl
  lists := fun _ => List.Sublist.refl _
  pages := by
    intro j q
    by_cases hj : j = k
    · subst hj
      simp only [Memory.pte, Memory.resetLast, setSeg, update_self, Segment.pte]
      split
      · exact ⟨rfl, fun _ => rfl, fun hs => ⟨fun h => (by cases h), fun hr ho => hs.absent hr (.inr (by simpa using ho))⟩⟩
      · simp
    · simp [Memory.pte, Memory.resetLast, setSeg, hj]

theorem cowEnd (s : Memory π) (m : Params) (n : Nat) : Light s (s.cowEnd m n) := by
  unfold Memory.cowEnd
  split
  · exact refl s
  · dsimp only
    split
    · split
      · exact (leaveIfDone s n).trans (resetLast _ m _)
      · exact leaveIfDone s n
    · exact leaveIfDone s n

end Light

end SpriteKernel.Vm.Memory
