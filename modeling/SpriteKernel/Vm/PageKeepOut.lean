import SpriteKernel.Vm.PageKeepClean

/- The page-out processes, faults and accesses, and the pages they are about. -/
namespace SpriteKernel.Vm

open Function
namespace Pages
open Custody
variable {P : PageParams} {s t u : Pages} {f : Nat} {v : VirtPage}

theorem Mapped.freeDead (hm : s.Mapped) (h : s.Conserved P) (hf : f ∈ s.lists .dirty)
    (hdead : s.segDead (s.coreMap f).virtPage.segPtr = true) : (s.freeDead f).Mapped := by
  have hw := went_listRemove h.apart hf
  obtain ⟨m, hmm⟩ : ∃ m, m = (s.takeOffDirtyList f).pageInvalidateInt (s.coreMap f).virtPage := ⟨_, rfl⟩
  have hgo : Went s m f none := by
    rw [hmm]
    unfold Pages.pageInvalidateInt
    split <;> exact ⟨hw.moved, hw.core, hw.hand⟩
  have hrest : m.unsaved = s.unsaved ∧ m.since = s.since ∧ m.segDead = s.segDead := by
    rw [hmm]
    unfold Pages.pageInvalidateInt
    split <;> exact ⟨rfl, rfl, rfl⟩
  have hu : s.UserHeld f := .inr (.inl hf)
  have hmap : m.Mapped := by
    refine hm.left hgo hu (fun w hw => ?_) (fun g hg => ?_) (fun _ _ => by rw [hrest.2.1]) (fun _ _ => by rw [hrest.1])
      hrest.2.2 (fun hal => ?_)
    · rw [hmm]
      unfold Pages.pageInvalidateInt
      split
      · exact update_of_ne hw _ _
      · rfl
    · rw [hmm]
      unfold Pages.pageInvalidateInt
      split
      · next hr =>
        refine update_of_ne (fun hgf => hg ?_) _ _
        exact hgf.trans (hm.names f hu hr)
      · rfl
    · rw [Alive, hrest.2.2, hdead] at hal
      nomatch hal.2
  have hfree : s.freeDead f = m.putOnFreeList f := by rw [hmm]; rfl
  rw [hfree]
  exact hmap.putOnFreeList (hgo.moved.apart h.apart) hgo.none_kept

/-- The modified bits are cleared; from here on, a modification is seen in the hardware. -/
theorem Mapped.startCleaning (hm : u.Mapped) (h : u.Conserved P) (hf : f ∈ u.lists .dirty) :
    ((u.listRemove f).startCleaning f).Mapped := by
  have hw := went_startCleaning h.apart hf
  obtain ⟨m, hmm⟩ : ∃ m, m = (u.listRemove f).startCleaning f := ⟨_, rfl⟩
  have hpte : (∀ w, w ≠ (u.coreMap f).virtPage → m.pte w = u.pte w) ∧
      (m.pte (u.coreMap f).virtPage).physRes = (u.pte (u.coreMap f).virtPage).physRes ∧
      (m.pte (u.coreMap f).virtPage).pageFrame = (u.pte (u.coreMap f).virtPage).pageFrame ∧
      ∀ g, g ≠ f → m.hard g = u.hard g := by
    rw [hmm]
    unfold Pages.startCleaning
    dsimp only
    split
    · refine ⟨fun w hw => (update_of_ne hw _ _).trans (update_of_ne hw _ _), ?_⟩
      rw [show Pages.pte _ = update (update u.pte (u.coreMap f).virtPage _)
        (u.coreMap f).virtPage _ from rfl, update_self]
      rw [show Pages.pte (Pages.setPte (u.listRemove f) _ _) = update u.pte _ _ from rfl,
        update_self]
      exact ⟨rfl, rfl, fun g hg => update_of_ne hg _ _⟩
    · refine ⟨fun w hw => update_of_ne hw _ _, ?_⟩
      rw [show Pages.pte _ = update u.pte (u.coreMap f).virtPage _ from rfl, update_self]
      exact ⟨rfl, rfl, fun _ _ => rfl⟩
  rw [← hmm] at hw ⊢
  obtain ⟨pte, hard, heq⟩ := startCleaning_eq (u.listRemove f) f
  replace hmm := hmm.trans heq
  have hself : m.coreMap f = { u.coreMap f with beingCleaned := true } := hmm ▸ update_self ..
  have hu : u.UserHeld f := .inr (.inl hf)
  have huns : m.unsaved = u.unsaved := hmm ▸ rfl
  have hsince : m.since = update u.since f false := hmm ▸ rfl
  refine hm.stays hw.samePlaces hw.core hu (.inr (.inr ((hw.moved.self .cleaned).2 rfl))) (by rw [hself]) hpte.1
    ⟨hpte.2.1, hpte.2.2.1⟩ hpte.2.2.2 (fun g hg => by rw [hsince, update_of_ne hg]) (fun _ _ => by rw [huns]) (hmm ▸ rfl)
    (fun hfr _ => .inl (by rw [hself] at hfr; exact hfr)) (fun hal hun => ?_)
  rw [huns] at hun
  refine ⟨(hm.known hu hal hun).1, ?_, fun _ hs => ?_⟩
  · exact fun ha => by cases (hw.moved.self (.on .alloc)).1 ha
  · rw [hsince, update_self] at hs
    cases hs

theorem Mapped.getDirty (hm : s.Mapped) (h : s.Conserved P) (ht : s.getDirty = .ok t) : t.Mapped := by
  have hnext := nextDirty_rule (I := fun u => u.Conserved P ∧ u.Mapped)
    (fun u f hu hf hdead => ⟨hu.1.freeDead hf, hu.2.freeDead hu.1 hf hdead⟩) _ s rfl ⟨h, hm⟩
  unfold Pages.getDirty at ht
  split at ht
  · next m f hr =>
    rw [hr] at hnext
    obtain ⟨u, ⟨hu, hum⟩, hf, rfl⟩ := hnext
    exact Except.ok.inj ht ▸ hum.startCleaning hu hf
  · next m hr =>
    rw [hr] at hnext
    dsimp only at ht
    split at ht
    · nomatch ht
    · cases ht
      exact Mapped.congr (s := m) hnext.1.2 (samePlaces_rfl rfl) (fun _ _ => ⟨rfl, id⟩) (fun _ => ⟨rfl, rfl, id⟩)
        (fun _ _ => id) rfl rfl rfl

theorem Mapped.requeue (hm : s.Mapped) (h : s.Conserved P) (hf : f ∈ s.cleaning) : (s.requeue f).Mapped := by
  have hw := went_requeue h hf
  have hu : s.UserHeld f := .inr (.inr hf)
  have hself : (s.requeue f).coreMap f = { s.coreMap f with beingCleaned := false } := by
    rw [coreMap_requeue, update_self]
  refine hm.stays hw.samePlaces hw.core hu (.inr (.inl ((hw.moved.self (.on .dirty)).2 rfl))) (by rw [hself])
    (fun _ _ => rfl) ⟨rfl, rfl⟩ (fun _ _ => rfl) (fun _ _ => rfl) (fun _ _ => rfl) rfl
    (fun hfr _ => .inl (by rw [hself] at hfr; exact hfr)) (fun hal hun => ⟨(hm.known hu hal hun).1, ?_, ?_⟩)
  · exact fun ha => nomatch (hw.moved.self (.on .alloc)).1 ha
  · exact fun hc => nomatch (hw.moved.self .cleaned).1 hc

end Pages

end SpriteKernel.Vm
