import SpriteKernel.Vm.PageWait

/- What the routines of the page module do to those that sleep in VmPageFreeInt. -/
namespace SpriteKernel.Vm

open Function
namespace Pages
open Custody
variable {P : PageParams} {s t u : Pages} {f : Nat} {v : VirtPage}

theorem waited_congr_mem (hd : f ∈ t.lists .dirty ↔ f ∈ s.lists .dirty) (hc : f ∈ t.cleaning ↔ f ∈ s.cleaning)
    (hdf : (t.coreMap f).dontFreeUntilClean = (s.coreMap f).dontFreeUntilClean)
    (hw : (t.coreMap f).segPageoutWait = (s.coreMap f).segPageoutWait) : t.Waited f ↔ s.Waited f := by
  unfold Waited
  rw [hd, hc, hdf, hw]

theorem waited_congr (hd : t.lists .dirty = s.lists .dirty) (hc : t.cleaning = s.cleaning)
    (hdf : (t.coreMap f).dontFreeUntilClean = (s.coreMap f).dontFreeUntilClean)
    (hw : (t.coreMap f).segPageoutWait = (s.coreMap f).segPageoutWait) : t.Waited f ↔ s.Waited f :=
  waited_congr_mem (by rw [hd]) (by rw [hc]) hdf hw

theorem Attended.sub (ha : s.Attended P) {l : List Waiter} (hl : ∀ w, w ∈ l → w ∈ s.waiters) :
    ({ s with waiters := l } : Pages).Attended P where
  asleep w hw := ha.asleep w (hl w hw)
  owed w hw := ha.owed w (hl w hw)
  began w hw := ha.began w (hl w hw)
  unflushed w hw := ha.unflushed w (hl w hw)
  range w hw := ha.range w (hl w hw)

theorem Attended.sleep (ha : s.Attended P) (hw : s.Waited f) {n : Nat} (hn : n ≤ s.given f)
    (hfree : s.given f ≤ n → (s.coreMap f).freePage = true) (hf : f < P.numPhysPages) :
    ({ s with waiters := s.waiters ++ [⟨f, (s.coreMap f).virtPage.segPtr, false, none, n⟩] } : Pages).Attended P := by
  have hnew : ∀ w, w ∈ s.waiters ++ [(⟨f, (s.coreMap f).virtPage.segPtr, false, none, n⟩ : Waiter)] →
      w ∈ s.waiters ∨ w = ⟨f, (s.coreMap f).virtPage.segPtr, false, none, n⟩ := by
    simpa using hw
  refine ⟨fun w hm hwk => ?_, fun w hm hg => ?_, fun w hm => ?_, fun w hm => ?_, fun w hm => ?_⟩
  all_goals rcases hnew w hm with hold | rfl
  · exact ha.asleep w hold hwk
  · exact ⟨hw, rfl⟩
  · exact ha.owed w hold hg
  · exact ⟨hw, hfree hg⟩
  · exact ha.began w hold
  · exact hn
  · exact ha.unflushed w hold
  · rfl
  · exact ha.range w hold
  · exact hf

/-- A frame that is to be cleaned before it is freed may be slept for, once it says so. -/
theorem Conserved.waited (h : s.Conserved P) (hf : f < P.numPhysPages)
    (hwait : ((s.coreMap f).beingCleaned || (s.coreMap f).dontFreeUntilClean) = true) {c : VmCore}
    (hd : c.dontFreeUntilClean = (s.coreMap f).dontFreeUntilClean) (hs : c.segPageoutWait = true) :
    (s.setCore f c).Waited f := by
  have hc : (s.setCore f c).coreMap f = c := update_self _ _ _
  unfold Waited
  rw [hc]
  refine ⟨?_, hs⟩
  rcases h.waits_place hf hwait with hdl | hcl
  · rw [(h.agrees (.on .dirty) f hdl).2.1, Bool.false_or] at hwait
    exact .inr ⟨hdl, hd.trans hwait⟩
  · exact .inl hcl

theorem Conserved.not_waited (h : s.Conserved P)
    (hwait : ¬ ((s.coreMap f).beingCleaned || (s.coreMap f).dontFreeUntilClean) = true) : ¬ s.Waited f := by
  rw [Bool.or_eq_true, not_or] at hwait
  rintro ⟨hc | ⟨-, hd⟩, -⟩
  · exact hwait.1 (h.agrees .cleaned f hc).2.1
  · exact hwait.2 hd

section
variable (ha : s.Attended P)
include ha

theorem Attended.pageFreeInt (h : s.Conserved P) (hf : f < P.numPhysPages)
    (hheld : (∀ p, f ∉ s.kept p) ∨ s.UserHeld f) (ht : s.pageFreeInt f none = .ok t) : t.Attended P := by
  obtain ⟨m, hm⟩ : ∃ m, s.setCore f { s.coreMap f with freePage := true, lockCount := 0 } = m := ⟨_, rfl⟩
  have hcore : m.coreMap f = { s.coreMap f with freePage := true, lockCount := 0 } := hm ▸ update_self _ _ _
  have hkept : m.kept = s.kept := hm ▸ rfl
  have hap : Apart m.kept := hkept ▸ h.apart
  have hma : m.Attended P := hm ▸ ha.setCore rfl id id fun _ => rfl
  obtain ⟨hn, rfl⟩ | ⟨-, ⟨hwait, rfl⟩ | ⟨hwait, m', hoff, hw, rfl⟩⟩ := h.pageFreeInt_cases hf hheld hm ht
  · exact hma.freed hap ⟨hap.stay hn, fun _ _ => rfl, rfl⟩ (Pages.not_waited hn) rfl rfl
  · have hset : (m.setCore f { m.coreMap f with segPageoutWait := true }).Attended P :=
      hma.setCore rfl (fun _ => rfl) id id
    have hself : (m.setCore f { m.coreMap f with segPageoutWait := true }).coreMap f
        = { m.coreMap f with segPageoutWait := true } := update_self _ _ _
    have hwt : (m.setCore f { m.coreMap f with segPageoutWait := true }).Waited f := by
      refine (waited_congr (s := s.setCore f { m.coreMap f with segPageoutWait := true }) ?_ ?_ ?_ ?_).2
        (h.waited hf hwait (by rw [hcore]) rfl)
      · rw [← hm]; rfl
      · rw [← hm]; rfl
      all_goals rw [hself]; exact congrArg _ (update_self f _ s.coreMap).symm
    have hsleep := hset.sleep hwt (Nat.le_refl _) (fun _ => by rw [hself, hcore]) hf
    rw [hself] at hsleep
    exact hsleep
  · have hnw : ¬ m.Waited f := by
      intro hw
      refine h.not_waited hwait ((waited_congr (by rw [← hm]; rfl) (by rw [← hm]; rfl) ?_ ?_).1 hw) <;> rw [hcore]
    obtain rfl | rfl := hoff
    · exact hma.freed (t := m.takeOffDirtyList f) hap hw hnw rfl rfl
    · exact hma.freed (t := m.takeOffAllocList f) hap hw hnw rfl rfl

/-- A process that has been woken sleeps again only while its frame is not clean. -/
theorem Attended.resume (h : s.Conserved P) {w : Waiter} (hw : w ∈ s.waiters) :
    (s.resume w).Attended P := by
  have hsub : ({ s with waiters := s.waiters.erase w } : Pages).Attended P := ha.sub fun _ => List.mem_of_mem_erase
  unfold Pages.resume
  dsimp only
  split
  · next hwait =>
    have hset : (Pages.setCore { s with waiters := s.waiters.erase w } w.frame
        { s.coreMap w.frame with segPageoutWait := true }).Attended P := hsub.setCore rfl (fun _ => rfl) id id
    have hself : (Pages.setCore { s with waiters := s.waiters.erase w } w.frame
        { s.coreMap w.frame with segPageoutWait := true }).coreMap w.frame
          = { s.coreMap w.frame with segPageoutWait := true } := update_self _ _ _
    have hwt := h.waited (ha.range w hw) hwait (c := { s.coreMap w.frame with segPageoutWait := true }) rfl rfl
    have hsleep := hset.sleep (f := w.frame) (n := w.given) hwt (ha.began w hw)
      (fun hg => by rw [hself]; exact (ha.owed w hw hg).2) (ha.range w hw)
    rw [hself] at hsleep
    rw [ha.unflushed w hw]
    exact hsleep
  · rw [ha.unflushed w hw]
    exact hsub

theorem Attended.toDirty (hap : Apart s.kept) (hf : f ∈ s.lists .alloc) :
    ((s.takeOffAllocList f).putOnDirtyList P f).Attended P :=
  ha.searched (searched_toDirty hap hf)

theorem Attended.vmPutOnDirtyList (h : s.Conserved P) (hu : s.UserHeld f) :
    (s.vmPutOnDirtyList P f).Attended P := by
  unfold Pages.vmPutOnDirtyList
  by_cases hd : (s.coreMap f).dirtyPage = true
  · rw [if_pos hd]
    exact ha.setCore rfl id (fun _ => rfl) id
  · rw [if_neg hd]
    have hal := h.alloc_of_flag hu (Bool.eq_false_iff.2 hd)
    exact (ha.toDirty h.apart hal).setCore rfl id (fun _ => rfl) id

end

end Pages

end SpriteKernel.Vm
