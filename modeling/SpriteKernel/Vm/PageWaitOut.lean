import SpriteKernel.Vm.PageWaitStep

/- The page-out processes, and those that sleep for the frames they clean. -/
namespace SpriteKernel.Vm

open Function List
namespace Pages
open Custody
variable {P : PageParams} {s t u : Pages} {f : Nat} {v : VirtPage}

/-- A frame comes back from swap: those that sleep for it have been woken, and if it was to be freed
    it has been. -/
theorem Attended.cleaned (ha : s.Attended P) {d : Option Place} (hgo : Went s t f d)
    (hw : ∀ w', w' ∈ t.waiters → ∃ w, w ∈ s.waiters ∧ w'.frame = w.frame ∧ w'.given = w.given ∧
      w'.flushed = w.flushed ∧ (w'.woken = false → w' = w ∧ w.frame ≠ f))
    (hg : ∀ g, s.given g ≤ t.given g) (hfree : (s.coreMap f).freePage = true → s.given f < t.given f) :
    t.Attended P := by
  -- the other frames are slept for as before
  have hsame : ∀ g, g ≠ f → s.Waited g → t.Waited g := by
    intro g hgf hwt
    have hp := hgo.samePlaces g hgf
    refine (waited_congr_mem hp.dirty hp.cleaned ?_ ?_).2 hwt <;> rw [hgo.core g hgf]
  refine ⟨fun w' hm hwk => ?_, fun w' hm hgv => ?_, fun w' hm => ?_, fun w' hm => ?_, fun w' hm => ?_⟩
  all_goals obtain ⟨w, hws, hfr, hgiven, hfl, hwoken⟩ := hw w' hm
  · obtain ⟨rfl, hne⟩ := hwoken hwk
    obtain ⟨hwt, hseg⟩ := ha.asleep _ hws hwk
    exact ⟨hsame _ hne hwt, by rw [hgo.core _ hne]; exact hseg⟩
  · rw [hfr, hgiven] at hgv
    obtain ⟨hwt, hf⟩ := ha.owed w hws (Nat.le_trans (hg _) hgv)
    have hne : w.frame ≠ f := by
      intro he
      rw [he] at hgv hf
      have hlt := hfree hf
      have hbegan := ha.began w hws
      rw [he] at hbegan
      omega
    rw [hfr]
    exact ⟨hsame _ hne hwt, by rw [hgo.core _ hne]; exact hf⟩
  · rw [hfr, hgiven]
    exact Nat.le_trans (ha.began w hws) (hg _)
  · exact hfl.trans (ha.unflushed w hws)
  · rw [hfr]
    exact ha.range w hws

/-- Whom `PutOnFront` wakes: those that wait for the frame, and all others on its segment. -/
theorem waiters_doneCleaning (ha : s.Attended P) (hcore : u.coreMap = s.coreMap) (hwt : u.waiters = s.waiters) :
    ∀ w', w' ∈ (u.doneCleaning f).waiters → ∃ w, w ∈ s.waiters ∧ w'.frame = w.frame ∧ w'.given = w.given ∧
      w'.flushed = w.flushed ∧ (w'.woken = false → w' = w ∧ w.frame ≠ f) := by
  intro w' hm
  unfold doneCleaning at hm
  rw [hcore] at hm
  split at hm
  · obtain ⟨w, hw, rfl⟩ := mem_map.1 (show w' ∈ u.waiters.map _ from hm)
    rw [hwt] at hw
    by_cases hseg : w.segPtr = (s.coreMap f).virtPage.segPtr
    · rw [if_pos hseg]
      exact ⟨w, hw, rfl, rfl, rfl, nofun⟩
    · rw [if_neg hseg]
      refine ⟨w, hw, rfl, rfl, rfl, fun hwk => ⟨rfl, fun hf => hseg ?_⟩⟩
      rw [← hf]
      exact (ha.asleep w hw hwk).2
  · next hflag =>
    have hw : w' ∈ s.waiters := hwt ▸ hm
    refine ⟨w', hw, rfl, rfl, rfl, fun hwk => ⟨rfl, fun hf => hflag ?_⟩⟩
    rw [← hf]
    exact (ha.asleep w' hw hwk).1.2

theorem given_doneCleaning : (s.doneCleaning f).given = s.given := by
  unfold doneCleaning
  split <;> rfl

theorem given_putOnFreeList_self : (s.putOnFreeList f).given f = s.given f + 1 := by
  rw [given_putOnFreeList.1, update_self]

theorem Attended.putOnFront (ha : s.Attended P) (h : s.Conserved P) (hw : Went s u f none)
    (hcore : u.coreMap = s.coreMap) (hwt : u.waiters = s.waiters) (hg : u.given = s.given)
    (ht : u.putOnFront P f = .ok t) : t.Attended P := by
  obtain ⟨d, hd⟩ : ∃ d, d = u.doneCleaning f := ⟨_, rfl⟩
  have hout : Went s d f none := hd ▸ hw.doneCleaning
  have hwoken := waiters_doneCleaning (f := f) ha hcore hwt
  have hgd : d.given = s.given := by rw [hd, given_doneCleaning, hg]
  have hfree : (d.coreMap f).freePage = (s.coreMap f).freePage := by
    rw [hd, coreMap_doneCleaning, update_self, hcore]
  rw [← hd] at hwoken
  -- a frame that is put on the free list has been given back once more
  have hgiven : ∀ m : Pages, Went s m f none → m.waiters = d.waiters → m.given = d.given →
      (m.putOnFreeList f).Attended P := by
    intro m hm hmw hmg
    obtain ⟨l, -, hput, -⟩ := went_putOnFreeList (hm.moved.apart h.apart) hm.none_kept
    refine ha.cleaned (hm.trans hput) ?_ (fun g => ?_) (fun _ => ?_)
    · rw [given_putOnFreeList.2, hmw]
      exact hwoken
    · rw [← hgd, ← hmg]
      exact given_le g
    · rw [given_putOnFreeList_self, hmg, hgd]
      exact Nat.lt_succ_self _
  unfold Pages.putOnFront at ht
  dsimp only at ht
  rw [← hd] at ht
  split at ht
  · cases ht
    exact hgiven d hout rfl rfl
  · next hno =>
    split at ht
    · split at ht
      · cases ht
        exact hgiven ((d.pullBits f).clearResident _) ⟨hout.moved, hout.core, hout.hand⟩ rfl rfl
      · nomatch ht
    · cases ht
      refine ha.cleaned (hout.putOnFront h.apart) hwoken (fun g => ?_) (fun hfr => ?_)
      · show s.given g ≤ d.given g
        exact Nat.le_of_eq (by rw [hgd])
      · rw [hfree] at hno
        exact absurd hfr hno

theorem Attended.freeDead (ha : s.Attended P) (h : s.Conserved P) (hf : f ∈ s.lists .dirty)
    (hw : (s.coreMap f).segPageoutWait = false) : (s.freeDead f).Attended P := by
  have hgo := went_listRemove h.apart hf
  have hn : ¬ s.Waited f := fun hwt => Bool.noConfusion (hw.symm.trans hwt.2)
  unfold Pages.freeDead Pages.pageInvalidateInt
  split
  · exact ha.freed (t := Pages.setPte _ _ _) h.apart ⟨hgo.moved, hgo.core, hgo.hand⟩ hn rfl rfl
  · exact ha.freed (t := s.takeOffDirtyList f) h.apart ⟨hgo.moved, hgo.core, hgo.hand⟩ hn rfl rfl

def DeadAlone (s : Pages) : Prop :=
  ∀ f, f ∈ s.lists .dirty → s.segDead (s.coreMap f).virtPage.segPtr = true → (s.coreMap f).segPageoutWait = false

theorem went_freeDead (h : s.Conserved P) (hf : f ∈ s.lists .dirty) :
    ∃ l, (l = .free ∨ l = .reserve) ∧ Went s (s.freeDead f) f (some (.on l)) := by
  have hw := went_listRemove h.apart hf
  have hgo : Went s ((s.takeOffDirtyList f).pageInvalidateInt (s.coreMap f).virtPage) f none := by
    unfold Pages.pageInvalidateInt
    split <;> exact ⟨hw.moved, hw.core, hw.hand⟩
  obtain ⟨l, hl, hput, -⟩ := went_putOnFreeList (hgo.moved.apart h.apart) hgo.none_kept
  exact ⟨l, hl, hgo.trans hput⟩

theorem segDead_freeDead : (s.freeDead f).segDead = s.segDead := by
  unfold freeDead putOnFreeList pageInvalidateInt
  dsimp only
  split <;> split <;> rfl

theorem DeadAlone.freeDead (ha : s.DeadAlone) (h : s.Conserved P) (hf : f ∈ s.lists .dirty) :
    (s.freeDead f).DeadAlone := by
  obtain ⟨l, hl, hw⟩ := went_freeDead h hf
  intro g hg hdead
  have hgf : g ≠ f := by
    rintro rfl
    have hto := (hw.moved.self (.on .dirty)).1 hg
    rcases hl with rfl | rfl <;> nomatch hto
  rw [segDead_freeDead, hw.core g hgf] at hdead
  rw [hw.core g hgf]
  exact ha g ((hw.samePlaces g hgf).dirty.1 hg) hdead

/-- A frame that is slept for goes from the dirty list to the process that cleans it. -/
theorem Attended.startCleaning (ha : u.Attended P) (h : u.Conserved P) (hf : f ∈ u.lists .dirty) :
    ((u.listRemove f).startCleaning f).Attended P := by
  obtain ⟨pte, hard, heq⟩ := startCleaning_eq (u.listRemove f) f
  rw [heq]
  refine ha.congr rfl (fun g hwt => ?_) (fun _ => Nat.le_refl _)
  unfold Waited at hwt ⊢
  dsimp only
  by_cases hgf : g = f
  · subst hgf
    rw [update_self]
    exact ⟨⟨.inl (mem_append_right _ mem_cons_self), hwt.2⟩, rfl, id⟩
  · rw [update_of_ne hgf]
    refine ⟨⟨hwt.1.imp (mem_append_left _) (And.imp_left fun hd => ?_), hwt.2⟩, rfl, id⟩
    exact ((went_listRemove h.apart hf).samePlaces g hgf).dirty.2 hd

theorem Attended.getDirty (ha : s.Attended P) (h : s.Conserved P) (hal : s.DeadAlone) (ht : s.getDirty = .ok t) :
    t.Attended P := by
  have hnext := nextDirty_rule (I := fun u => u.Conserved P ∧ u.DeadAlone ∧ u.Attended P)
    (fun u f hu hf hdead => ⟨hu.1.freeDead hf, hu.2.1.freeDead hu.1 hf, hu.2.2.freeDead hu.1 hf (hu.2.1 f hf hdead)⟩) _ s rfl
    ⟨h, hal, ha⟩
  unfold Pages.getDirty at ht
  split at ht
  · next m f hr =>
    rw [hr] at hnext
    obtain ⟨u, ⟨hu, -, hua⟩, hf, rfl⟩ := hnext
    exact Except.ok.inj ht ▸ hua.startCleaning hu hf
  · next m hr =>
    rw [hr] at hnext
    dsimp only at ht
    split at ht
    · nomatch ht
    · cases ht
      exact Attended.congr (s := m) hnext.1.2.2 rfl (fun _ hwt => ⟨hwt, rfl, id⟩) fun _ => Nat.le_refl _

theorem Attended.requeue (ha : s.Attended P) (h : s.Conserved P) (hf : f ∈ s.cleaning)
    (hw : (s.coreMap f).segPageoutWait = false) : (s.requeue f).Attended P :=
  ha.went (went_requeue h hf) (fun hwt => Bool.noConfusion (hw.symm.trans hwt.2)) rfl fun _ => Nat.le_refl _

end Pages

end SpriteKernel.Vm
