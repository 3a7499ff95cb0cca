import SpriteKernel.Vm.PageWaitOut

/- Page cleaning in runs of the page module: no modification is lost, and nobody stays asleep in VmPageFreeInt for a
   frame that was cleaned. But a write to swap that fails for good is taken for done, and a frame whose write finds
   the swap server down goes back on the dirty list without a broadcast. -/
namespace SpriteKernel.Vm

open Function
namespace Pages
open Custody Transition
variable {P : PageParams} {s t u : Pages} {f : Nat} {v : VirtPage} {status : SwapStatus}

theorem coreMap_putOnFreeList : ∃ c : VmCore, c.segPageoutWait = false ∧
    (s.putOnFreeList f).coreMap = update s.coreMap f c := by
  unfold putOnFreeList
  dsimp only
  split <;> exact ⟨_, rfl, rfl⟩

theorem wait_putOnFreeList {g : Nat} (hg : g ≠ f → (s.coreMap g).segPageoutWait = false) :
    ((s.putOnFreeList f).coreMap g).segPageoutWait = false := by
  obtain ⟨c, hc, hcore⟩ := coreMap_putOnFreeList (s := s) (f := f)
  rw [hcore]
  by_cases hgf : g = f
  · subst hgf
    rw [update_self]
    exact hc
  · rw [update_of_ne hgf]
    exact hg hgf

theorem went_putOnFront (hap : Apart s.kept) (hw : Went s u f none) (ht : u.putOnFront P f = .ok t) :
    ∃ l, l ≠ .dirty ∧ Went s t f (some (.on l)) ∧ t.segDead = u.segDead ∧ (t.coreMap f).segPageoutWait = false := by
  obtain ⟨d, hd⟩ : ∃ d, d = u.doneCleaning f := ⟨_, rfl⟩
  have hout : Went s d f none := hd ▸ hw.doneCleaning
  have hdead : d.segDead = u.segDead := by rw [hd]; exact doneCleaning_rest.2.2.2.2
  have hfreed : ∀ m : Pages, Went s m f none → m.segDead = d.segDead →
      ∃ l, l ≠ .dirty ∧ Went s (m.putOnFreeList f) f (some (.on l)) ∧ (m.putOnFreeList f).segDead = u.segDead ∧
        ((m.putOnFreeList f).coreMap f).segPageoutWait = false := by
    intro m hm hmd
    obtain ⟨l, hl, hput, hag⟩ := went_putOnFreeList (hm.moved.apart hap) hm.none_kept
    refine ⟨l, ?_, hm.trans hput, (frame_putOnFreeList f).2.2.1.trans (hmd.trans hdead), wait_putOnFreeList fun hne => ?_⟩
    · rcases hl with rfl | rfl <;> decide
    · exact absurd rfl hne
  unfold Pages.putOnFront at ht
  dsimp only at ht
  rw [← hd] at ht
  split at ht
  · cases ht
    exact hfreed d hout rfl
  · split at ht
    · split at ht
      · cases ht
        exact hfreed ((d.pullBits f).clearResident _) ⟨hout.moved, hout.core, hout.hand⟩ rfl
      · nomatch ht
    · cases ht
      refine ⟨.alloc, by decide, hout.putOnFront hap, hdead, ?_⟩
      show (d.coreMap f).segPageoutWait = false
      rw [hd, coreMap_doneCleaning, update_self]

theorem DeadAlone.away (ha : s.DeadAlone) {l : PageList} (hl : l ≠ .dirty) (hw : Went s t f (some (.on l)))
    (hdead : t.segDead = s.segDead) : t.DeadAlone := by
  intro g hg hdg
  have hgf : g ≠ f := by
    rintro rfl
    exact hl (Place.on.inj (Option.some.inj ((hw.moved.self (.on .dirty)).1 hg)))
  rw [hdead, hw.core g hgf] at hdg
  rw [hw.core g hgf]
  exact ha g ((hw.samePlaces g hgf).dirty.1 hg) hdg

theorem nextDirty_wait (g : Nat) : ∀ (l : List Nat) (s : Pages), (s.coreMap g).segPageoutWait = false →
    ((nextDirty l s).1.coreMap g).segPageoutWait = false
  | [], _, hg => hg
  | f :: rest, s, hg => by
    have hfree : ((s.freeDead f).coreMap g).segPageoutWait = false := by
      refine wait_putOnFreeList fun _ => ?_
      unfold pageInvalidateInt
      split <;> exact hg
    unfold nextDirty
    split
    · exact nextDirty_wait g rest _ hfree
    · exact hg

theorem getDirty_wait {g : Nat} (hg : (s.coreMap g).segPageoutWait = false) (ht : s.getDirty = .ok t) :
    (t.coreMap g).segPageoutWait = false := by
  have hnext := nextDirty_wait g (s.lists .dirty) s hg
  unfold getDirty at ht
  split at ht
  · next m f hr =>
    cases ht
    rw [hr] at hnext
    obtain ⟨pte, hard, heq⟩ := startCleaning_eq m f
    rw [heq]
    dsimp only
    by_cases hgf : g = f
    · subst hgf
      rw [update_self]
      exact hnext
    · rw [update_of_ne hgf]
      exact hnext
  · next m hr =>
    rw [hr] at hnext
    dsimp only at ht
    split at ht
    · nomatch ht
    · cases ht
      exact hnext

theorem pageOut_start (hm : s.Mapped) (ha : s.Attended P) (h : s.Conserved P) (hal : s.DeadAlone)
    (ht : s.pageOutPutAndGet P none status = .ok t) : t.Mapped ∧ t.Attended P := by
  unfold pageOutPutAndGet at ht
  dsimp only at ht
  split at ht
  · cases ht
    exact ⟨hm.frame rfl rfl rfl rfl rfl rfl rfl rfl, ha.congr rfl (fun _ hw => ⟨hw, rfl, id⟩) fun _ => Nat.le_refl _⟩
  · exact ⟨hm.getDirty h ht, ha.getDirty h hal ht⟩

/-- A page-out process that has written a page: nobody waits for its frame any more. -/
theorem pageOut_done (hm : s.Mapped) (ha : s.Attended P) (h : s.Conserved P) (hal : s.DeadAlone)
    (hf : f ∈ s.cleaning) (hother : status ≠ .other)
    (hdown : status.down = true → (s.coreMap f).segPageoutWait = false)
    (ht : s.pageOutPutAndGet P (some f) status = .ok t) :
    t.Mapped ∧ t.Attended P ∧ (t.coreMap f).segPageoutWait = false := by
  unfold pageOutPutAndGet at ht
  dsimp only at ht
  by_cases hd : status.down = true
  · rw [if_pos hd] at ht
    cases ht
    refine ⟨hm.requeue h hf, ha.requeue h hf (hdown hd), ?_⟩
    rw [coreMap_requeue, update_self]
    exact hdown hd
  · have hok : status = .success := by cases status <;> first | rfl | exact absurd rfl hother | exact absurd rfl hd
    rw [if_neg hd, if_pos hok] at ht
    obtain ⟨w, hw⟩ : ∃ w, w = ({ s with cleaning := s.cleaning.erase f, starting := s.starting + 1 } : Pages).saved f :=
      ⟨_, rfl⟩
    rw [← hw] at ht
    have hwent : Went s w f none := by
      have hwr := h.written hf
      rw [hw]
      exact ⟨hwr.moved, hwr.core, hwr.hand⟩
    have hrest : w.coreMap = s.coreMap ∧ w.waiters = s.waiters ∧ w.given = s.given ∧ w.segDead = s.segDead := by
      rw [hw]; exact ⟨rfl, rfl, rfl, rfl⟩
    cases hfront : w.putOnFront P f with
    | error e =>
      rw [hfront] at ht
      nomatch ht
    | ok m =>
      rw [hfront] at ht
      obtain ⟨hmc, -⟩ := h.putOnFront hf (.inr hw) hfront
      obtain ⟨l, hl, hgo, hdead, hwait⟩ := went_putOnFront h.apart hwent hfront
      have hma := ha.putOnFront h hwent hrest.1 hrest.2.1 hrest.2.2.1 hfront
      have hmal : m.DeadAlone := hal.away hl hgo (hdead.trans hrest.2.2.2)
      rw [hw] at hfront
      exact ⟨(hm.putOnFront h hf hfront).getDirty hmc ht, hma.getDirty hmc hmal ht, getDirty_wait hwait ht⟩

end Pages

end SpriteKernel.Vm
