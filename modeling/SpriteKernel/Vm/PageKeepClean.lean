import SpriteKernel.Vm.PageKeepStep

/- Frames given back and written to swap, and the pages they are for. -/
namespace SpriteKernel.Vm

open Function
namespace Pages
open Custody
variable {P : PageParams} {s t u : Pages} {f : Nat} {v : VirtPage}

/-- What is changed of the core map entry of a frame where it stays does not matter, but that it is
    to be freed. -/
theorem Mapped.setCore (h : s.Mapped) {c : VmCore} (hv : c.virtPage = (s.coreMap f).virtPage)
    (hfree : s.UserHeld f → c.freePage = true → s.Alive (s.coreMap f).virtPage → (s.coreMap f).freePage = true ∨
      (s.pte (s.coreMap f).virtPage).physRes = false) : (s.setCore f c).Mapped := by
  by_cases hu : s.UserHeld f
  · refine h.stays (fun _ _ => ⟨Iff.rfl, Iff.rfl, Iff.rfl⟩) (fun g hg => update_of_ne hg _ _) hu hu ?_
      (fun _ _ => rfl) ⟨rfl, rfl⟩ (fun _ _ => rfl) (fun _ _ => rfl) (fun _ _ => rfl) rfl (fun hfr hal => ?_)
      (fun hal hun => h.known hu hal hun)
    · rw [show (s.setCore f c).coreMap f = c from update_self _ _ _, hv]
    · rw [show (s.setCore f c).coreMap f = c from update_self _ _ _] at hfr
      exact hfree hu hfr hal
  · refine h.congr (fun _ => ⟨Iff.rfl, Iff.rfl, Iff.rfl⟩) (fun g hg => ?_) (fun _ => ⟨rfl, rfl, id⟩) (fun _ _ => id) rfl rfl rfl
    have hgf : g ≠ f := fun hgf => hu (hgf ▸ hg)
    rw [show (s.setCore f c).coreMap g = s.coreMap g from update_of_ne hgf _ _]
    exact ⟨rfl, id⟩

theorem Conserved.other_page (h : s.Conserved P) (hheld : (∀ p, f ∉ s.kept p) ∨ s.UserHeld f)
    (hf : f < P.numPhysPages) : s.UserHeld f ∧ (s.coreMap f).virtPage = (s.coreMap f).virtPage ∨
      ¬ s.UserHeld f ∧ ∀ g, s.UserHeld g → (s.coreMap g).virtPage ≠ (s.coreMap f).virtPage := by
  rcases hheld with hn | hu
  · refine .inr ⟨not_userHeld hn, fun g hg hgv => h.userHeld_segPtr hg ?_⟩
    rw [hgv]
    exact (h.kernel f hn hf).1
  · exact .inl ⟨hu, rfl⟩

section give
variable (h : s.Conserved P) (hm : s.Mapped) (hf : f < P.numPhysPages)
variable (hheld : (∀ p, f ∉ s.kept p) ∨ s.UserHeld f)
include h hm hf hheld

theorem Mapped.giveUp (deleted : Bool) (hgive : deleted = true ∨ (s.Alive (s.coreMap f).virtPage →
    (s.pte (s.coreMap f).virtPage).physRes = false)) :
    let m := (if deleted then s.deletePage (s.coreMap f).virtPage else s).setHard f ⟨false, false, false⟩
    m.Mapped ∧ m.Conserved P ∧ m.lists = s.lists ∧ m.cleaning = s.cleaning ∧ m.coreMap = s.coreMap ∧
      m.kept = s.kept ∧ (m.Alive (s.coreMap f).virtPage → (m.pte (s.coreMap f).virtPage).physRes = false) := by
  have hold := h.other_page hheld hf
  cases deleted with
  | true =>
    have hgone : ((s.deletePage (s.coreMap f).virtPage).pte (s.coreMap f).virtPage).physRes = false := by
      show (update s.pte _ Pte.zero _).physRes = false
      rw [update_self]
      rfl
    refine ⟨?_, h.frame rfl rfl rfl rfl rfl rfl rfl rfl rfl, rfl, rfl, rfl, rfl, fun _ => hgone⟩
    refine hm.change f (s.coreMap f).virtPage (fun _ _ => ⟨Iff.rfl, Iff.rfl, Iff.rfl⟩) (fun _ _ => rfl)
      (fun g hg => update_of_ne hg _ _) (fun _ _ => rfl) (fun w hw => update_of_ne hw _ _)
      (fun w hw => update_of_ne hw _ _) rfl hold (fun _ => rfl) (fun hr => ?_) (fun _ _ _ => hgone)
      (fun _ hun => ?_)
    · exact Bool.noConfusion (hgone.symm.trans hr)
    · have hnone : update s.unsaved (s.coreMap f).virtPage false (s.coreMap f).virtPage = false :=
        update_self _ _ _
      exact Bool.noConfusion (hnone.symm.trans hun)
  | false =>
    have hgive := hgive.resolve_left (by decide)
    refine ⟨?_, h.frame rfl rfl rfl rfl rfl rfl rfl rfl rfl, rfl, rfl, rfl, rfl, hgive⟩
    refine hm.change f (s.coreMap f).virtPage (fun _ _ => ⟨Iff.rfl, Iff.rfl, Iff.rfl⟩) (fun _ _ => rfl)
      (fun g hg => update_of_ne hg _ _) (fun _ _ => rfl) (fun _ _ => rfl) (fun _ _ => rfl) rfl hold
      (fun _ => rfl) (fun hr => ⟨fun hu => hm.names f hu hr, fun hal => ?_⟩) (fun _ _ hal => hgive hal)
      (fun hal hun => ?_)
    · exact Bool.noConfusion ((hgive hal).symm.trans hr)
    · exact Bool.noConfusion ((hgive hal).symm.trans (hm.saved _ hal hun).1)

theorem Mapped.pageFreeInt (hgive : s.Alive (s.coreMap f).virtPage → (s.pte (s.coreMap f).virtPage).physRes = false)
    (ht : s.pageFreeInt f none = .ok t) : t.Mapped := by
  obtain ⟨m, hmm⟩ : ∃ m, s.setCore f { s.coreMap f with freePage := true, lockCount := 0 } = m := ⟨_, rfl⟩
  have hmap : m.Mapped := hmm ▸ hm.setCore rfl fun _ _ hal => .inr (hgive hal)
  have hkept : m.kept = s.kept := hmm ▸ rfl
  have hap : Apart m.kept := hkept ▸ h.apart
  obtain ⟨hn, rfl⟩ | ⟨hu, ⟨-, rfl⟩ | ⟨-, m', hoff, hw, rfl⟩⟩ := h.pageFreeInt_cases hf hheld hmm ht
  · exact hmap.putOnFreeList hap hn
  · have hset : (m.setCore f { m.coreMap f with segPageoutWait := true }).Mapped :=
      hmap.setCore rfl fun _ hfr _ => .inl hfr
    exact hset.congr (samePlaces_rfl rfl) (fun _ _ => ⟨rfl, id⟩) (fun _ => ⟨rfl, rfl, id⟩) (fun _ _ => id) rfl rfl rfl
  · have hum : m.UserHeld f := (samePlaces_rfl hkept f).userHeld.2 hu
    have hgone : m.Alive (m.coreMap f).virtPage →
        (m.pte (m.coreMap f).virtPage).physRes = false ∧ m.unsaved (m.coreMap f).virtPage = false := by
      rw [← hmm, show ((s.setCore f _).coreMap f) = _ from update_self _ _ _]
      intro hal
      refine ⟨hgive hal, Bool.eq_false_iff.2 fun hun => ?_⟩
      have hr := (hm.saved _ hal hun).1
      rw [hgive hal] at hr
      cases hr
    refine Mapped.putOnFreeList ?_ (hw.moved.apart hap) hw.none_kept
    obtain rfl | rfl := hoff
    · exact hmap.left hw hum (fun _ _ => rfl) (fun _ _ => rfl) (fun _ _ => rfl) (fun _ _ => rfl) rfl hgone
    · exact hmap.left hw hum (fun _ _ => rfl) (fun _ _ => rfl) (fun _ _ => rfl) (fun _ _ => rfl) rfl hgone

end give

theorem Mapped.vmPutOnDirtyList (hm : s.Mapped) (h : s.Conserved P) (hu : s.UserHeld f) :
    (s.vmPutOnDirtyList P f).Mapped := by
  unfold Pages.vmPutOnDirtyList
  by_cases hd : (s.coreMap f).dirtyPage = true
  · rw [if_pos hd]
    exact hm.setCore rfl fun _ hfr _ => .inl hfr
  · rw [if_neg hd]
    have ha := h.alloc_of_flag hu (Bool.eq_false_iff.2 hd)
    exact (hm.dirtied h.apart ha).setCore rfl fun _ hfr _ => .inl hfr

theorem doneCleaning_rest : (s.doneCleaning f).pte = s.pte ∧ (s.doneCleaning f).hard = s.hard ∧
    (s.doneCleaning f).since = s.since ∧ (s.doneCleaning f).unsaved = s.unsaved ∧
    (s.doneCleaning f).segDead = s.segDead := by
  unfold doneCleaning
  split <;> exact ⟨rfl, rfl, rfl, rfl, rfl⟩

/-- A page has been written to swap. If modified meanwhile, the hardware says so, and the page is kept. -/
theorem Mapped.putOnFront (hm : s.Mapped) (h : s.Conserved P) (hf : f ∈ s.cleaning)
    (ht : (({ s with cleaning := s.cleaning.erase f, starting := s.starting + 1 } : Pages).saved f).putOnFront P f
      = .ok t) : t.Mapped := by
  obtain ⟨w, hw⟩ : ∃ w, w = ({ s with cleaning := s.cleaning.erase f, starting := s.starting + 1 } : Pages).saved f :=
    ⟨_, rfl⟩
  obtain ⟨v, hv⟩ : ∃ v, v = (s.coreMap f).virtPage := ⟨_, rfl⟩
  have hwr := h.written hf
  have hwent : Went s w f none := by rw [hw]; exact ⟨hwr.moved, hwr.core, hwr.hand⟩
  have hwcore : w.coreMap = s.coreMap := by rw [hw]; rfl
  have hwuns : w.unsaved = update s.unsaved v (s.unsaved v && s.since f) := by rw [hw, hv]; rfl
  have hrest : w.pte = s.pte ∧ w.hard = s.hard ∧ w.since = s.since ∧ w.segDead = s.segDead := by
    rw [hw]; exact ⟨rfl, rfl, rfl, rfl⟩
  obtain ⟨d, hd⟩ : ∃ d, d = w.doneCleaning f := ⟨_, rfl⟩
  have hout : Went s d f none := hd ▸ hwent.doneCleaning
  have hdcore : d.coreMap f = { s.coreMap f with
      dirtyPage := false, beingCleaned := false, segPageoutWait := false, dontFreeUntilClean := false } := by
    rw [hd, coreMap_doneCleaning, update_self, hwcore]
  obtain ⟨h1, h2, h3, h4, h5⟩ := doneCleaning_rest (s := w) (f := f)
  rw [← hd] at h1 h2 h3 h4 h5
  rw [hrest.1] at h1
  rw [hrest.2.1] at h2
  rw [hrest.2.2.1] at h3
  rw [hwuns] at h4
  rw [hrest.2.2.2] at h5
  have hu : s.UserHeld f := .inr (.inr hf)
  have hsince : ∀ g, g ≠ f → d.since g = s.since g := fun _ _ => by rw [h3]
  have huns : ∀ x, x ≠ v → d.unsaved x = s.unsaved x := fun x hx => by rw [h4, update_of_ne hx]
  -- what is unsaved has been modified while it was written, and is seen in the hardware
  have hlate : s.Alive v → d.unsaved v = true → (s.pte v).physRes = true ∧ (s.hard f).modified = true := by
    intro hal hun
    rw [h4, update_self, Bool.and_eq_true] at hun
    have hk := hm.known hu (hv ▸ hal) (hv ▸ hun.1)
    exact ⟨hv ▸ hk.1, hk.2.2 hf hun.2⟩
  rw [← hw] at ht
  unfold Pages.putOnFront at ht
  dsimp only at ht
  rw [← hd, hwcore, ← hv] at ht
  split at ht
  · next hfree =>
    cases ht
    rw [hdcore] at hfree
    refine Mapped.putOnFreeList ?_ (hout.moved.apart h.apart) hout.none_kept
    refine hm.left hout hu (fun _ _ => by rw [h1]) (fun _ _ => by rw [h2]) hsince (by rw [← hv]; exact huns) h5
      (fun hal => ?_)
    have hals : s.Alive (s.coreMap f).virtPage := ⟨hal.1, h5 ▸ hal.2⟩
    have hgone := hm.givenUp f hu hfree hals
    refine ⟨by rw [h1]; exact hgone, ?_⟩
    rw [Bool.eq_false_iff]
    intro hun
    rw [← hv] at hun hals hgone
    exact Bool.noConfusion (hgone.symm.trans (hlate hals hun).1)
  · next hfree =>
    have hpull : (d.pullBits f).pte = update s.pte v { s.pte v with
        referenced := (s.pte v).referenced || (s.hard f).referenced || (s.hard f).modified
        modified := (s.pte v).modified || (s.hard f).modified } := by
      have hvirt : (d.coreMap f).virtPage = v := by rw [hdcore, hv]
      show update d.pte (d.coreMap f).virtPage _ = _
      rw [hvirt, h1, h2]
    split at ht
    · next hclean =>
      split at ht
      · cases ht
        have hgo : Went s ((d.pullBits f).clearResident v) f none := ⟨hout.moved, hout.core, hout.hand⟩
        refine Mapped.putOnFreeList ?_ (hgo.moved.apart h.apart) hgo.none_kept
        have hpte : ((d.pullBits f).clearResident v).pte
            = update (d.pullBits f).pte v { (d.pullBits f).pte v with physRes := false, pageFrame := 0 } := rfl
        refine hm.left hgo hu (fun x hx => ?_) (fun g _ => congrFun h2 g) hsince (by rw [← hv]; exact huns) h5
          (fun hal => ?_)
        · rw [← hv] at hx
          rw [hpte, update_of_ne hx, hpull, update_of_ne hx]
        · have hals : s.Alive v := by rw [hv]; exact ⟨hal.1, h5 ▸ hal.2⟩
          rw [← hv]
          refine ⟨by rw [hpte, update_self], ?_⟩
          rw [Bool.eq_false_iff]
          intro hun
          have hmod := (hlate hals hun).2
          have href := hclean.2.2
          rw [hpull, update_self, hmod, Bool.or_true] at href
          nomatch href
      · nomatch ht
    · cases ht
      have hgo := hout.putOnFront h.apart
      have hpte : ((d.pullBits f).putOnAllocListFront f).pte = (d.pullBits f).pte := rfl
      refine hm.stays hgo.samePlaces hgo.core hu (.inl ((hgo.moved.self (.on .alloc)).2 rfl)) ?_ (fun x hx => ?_) ?_
        (fun g _ => congrFun h2 g) hsince (by rw [← hv]; exact huns) h5 (fun hfr => ?_) (fun hal hun => ?_)
      · show (d.coreMap f).virtPage = _
        rw [hdcore]
      · rw [← hv] at hx
        rw [hpte, hpull, update_of_ne hx]
      · rw [← hv, hpte, hpull, update_self]
        exact ⟨rfl, rfl⟩
      · exact absurd hfr hfree
      · rw [← hv] at hal hun ⊢
        obtain ⟨hr, hmod⟩ := hlate hal hun
        refine ⟨hr, fun _ => .inr ?_, fun hc => nomatch (hgo.moved.self .cleaned).1 hc⟩
        show (d.hard f).modified = true
        rw [h2]
        exact hmod

end Pages

end SpriteKernel.Vm
