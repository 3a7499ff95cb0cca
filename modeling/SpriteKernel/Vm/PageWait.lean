import SpriteKernel.Vm.PageKeepRun

/- Those that sleep in VmPageFreeInt. A frame that is slept for is being cleaned, or is to be
   cleaned before it is freed, and says that somebody waits; a call whose frame has not been given
   back since it began finds it still so. -/
namespace SpriteKernel.Vm

open Function
namespace Pages
open Custody
variable {P : PageParams} {s t u : Pages} {f : Nat} {v : VirtPage}

/-- A frame that a process may sleep for. -/
def Waited (s : Pages) (f : Nat) : Prop :=
  (f ∈ s.cleaning ∨ f ∈ s.lists .dirty ∧ (s.coreMap f).dontFreeUntilClean = true) ∧
    (s.coreMap f).segPageoutWait = true

structure Attended (P : PageParams) (s : Pages) : Prop where
  asleep : ∀ w, w ∈ s.waiters → w.woken = false →
    s.Waited w.frame ∧ w.segPtr = (s.coreMap w.frame).virtPage.segPtr
  owed : ∀ w, w ∈ s.waiters → s.given w.frame ≤ w.given →
    s.Waited w.frame ∧ (s.coreMap w.frame).freePage = true
  began : ∀ w, w ∈ s.waiters → w.given ≤ s.given w.frame
  unflushed : ∀ w, w ∈ s.waiters → w.flushed = none
  range : ∀ w, w ∈ s.waiters → w.frame < P.numPhysPages

theorem Waited.userHeld (h : s.Waited f) : s.UserHeld f := by
  rcases h.1 with hc | ⟨hd, -⟩
  · exact .inr (.inr hc)
  · exact .inr (.inl hd)

section
variable (h : s.Attended P)
include h

/-- A step after which the frames that are slept for are as they were. -/
theorem Attended.congr (hw : t.waiters = s.waiters)
    (hf : ∀ f, s.Waited f → t.Waited f ∧ (t.coreMap f).virtPage.segPtr = (s.coreMap f).virtPage.segPtr ∧
      ((s.coreMap f).freePage = true → (t.coreMap f).freePage = true))
    (hg : ∀ f, s.given f ≤ t.given f) : t.Attended P where
  asleep w hm hwk := by
    rw [hw] at hm
    obtain ⟨ha, hseg⟩ := h.asleep w hm hwk
    obtain ⟨hwt, hv, -⟩ := hf _ ha
    exact ⟨hwt, hseg.trans hv.symm⟩
  owed w hm hgv := by
    rw [hw] at hm
    obtain ⟨ha, hfree⟩ := h.owed w hm (Nat.le_trans (hg _) hgv)
    obtain ⟨hwt, -, hfr⟩ := hf _ ha
    exact ⟨hwt, hfr hfree⟩
  began w hm := Nat.le_trans (h.began w (hw ▸ hm)) (hg _)
  unflushed w hm := h.unflushed w (hw ▸ hm)
  range w hm := h.range w (hw ▸ hm)

theorem Attended.frame (hw : t.waiters = s.waiters) (hg : t.given = s.given)
    (hl : ∀ f, s.UserHeld f → SamePlaces s t f)
    (hc : ∀ f, s.UserHeld f → ∃ n, t.coreMap f = { s.coreMap f with lockCount := n }) : t.Attended P := by
  refine h.congr hw (fun f ha => ?_) (fun f => Nat.le_of_eq (by rw [hg]))
  obtain ⟨n, hn⟩ := hc f ha.userHeld
  have hp := hl f ha.userHeld
  unfold Waited
  rw [hn, hp.cleaned, hp.dirty]
  exact ⟨ha, rfl, id⟩

theorem Attended.went {d : Option Place} (hgo : Went s t f d) (hn : ¬ s.Waited f)
    (hw : t.waiters = s.waiters) (hg : ∀ f, s.given f ≤ t.given f) : t.Attended P := by
  refine h.congr hw (fun g ha => ?_) hg
  have hgf : g ≠ f := fun hgf => hn (hgf ▸ ha)
  have hp := hgo.samePlaces g hgf
  unfold Waited
  rw [hgo.core g hgf, hp.cleaned, hp.dirty]
  exact ⟨ha, rfl, id⟩

theorem Attended.setCore {c : VmCore} (hv : c.virtPage = (s.coreMap f).virtPage)
    (hwt : (s.coreMap f).segPageoutWait = true → c.segPageoutWait = true)
    (hdf : (s.coreMap f).dontFreeUntilClean = true → c.dontFreeUntilClean = true)
    (hfr : (s.coreMap f).freePage = true → c.freePage = true) : (s.setCore f c).Attended P := by
  refine h.congr rfl (fun g ha => ?_) (fun _ => Nat.le_refl _)
  by_cases hgf : g = f
  · subst hgf
    have hc : (s.setCore g c).coreMap g = c := update_self _ _ _
    unfold Waited
    rw [hc, hv]
    exact ⟨⟨ha.1.imp_right fun hd => ⟨hd.1, hdf hd.2⟩, hwt ha.2⟩, rfl, hfr⟩
  · have hc : (s.setCore f c).coreMap g = s.coreMap g := update_of_ne hgf _ _
    unfold Waited
    rw [hc]
    exact ⟨ha, rfl, id⟩

theorem Attended.searched (hs : Searched s t) : t.Attended P := by
  refine h.congr hs.waiters (fun g ha => ?_) (fun g => Nat.le_of_eq (by rw [hs.given]))
  have hcore : ∀ (Q : VmCore → Prop), Q (s.coreMap g) → Q { s.coreMap g with dirtyPage := true } → Q (t.coreMap g) := by
    intro Q h1 h2
    rcases hs.core g with hc | hc <;> rw [hc]
    · exact h1
    · exact h2
  have hwait : t.Waited g := by
    refine ⟨ha.1.imp (fun hc => hs.cleaning ▸ hc) fun hd => ⟨hs.dirty g hd.1, ?_⟩, ?_⟩
    · exact hcore (fun c => c.dontFreeUntilClean = true) hd.2 hd.2
    · exact hcore (fun c => c.segPageoutWait = true) ha.2 ha.2
  exact ⟨hwait, by rw [hs.virtPage], fun hfr => hcore (fun c => c.freePage = true) hfr hfr⟩

end

theorem not_waited (hn : ∀ p, f ∉ s.kept p) : ¬ s.Waited f := fun ha => not_userHeld hn ha.userHeld

theorem waiters_hand : (s.hand f v).waiters = s.waiters ∧ (s.hand f v).given = s.given := by
  unfold hand
  split <;> exact ⟨rfl, rfl⟩

theorem Attended.hand (h : s.Attended P) (hap : Apart s.kept) (hn : ∀ p, f ∉ s.kept p) : (s.hand f v).Attended P := by
  have hcore : ∀ g, g ≠ f → (s.hand f v).coreMap g = s.coreMap g := by
    intro g hg
    unfold Pages.hand
    split <;> exact update_of_ne hg _ _
  have hgo : ∃ d, Moved s.kept (s.hand f v).kept f d := by
    unfold Pages.hand
    split
    · exact ⟨none, hap.stay hn⟩
    · exact ⟨_, (went_insertRear (l := .alloc) hap hn).moved⟩
  obtain ⟨d, hmove⟩ := hgo
  refine h.congr waiters_hand.1 (fun g ha => ?_) (fun g => Nat.le_of_eq (by rw [waiters_hand.2]))
  have hgf : g ≠ f := fun hgf => not_waited hn (hgf ▸ ha)
  have hp : SamePlaces s (s.hand f v) g := SamePlaces.of_kept fun p => hmove.other p g hgf
  unfold Waited
  rw [hcore g hgf, hp.cleaned, hp.dirty]
  exact ⟨ha, rfl, id⟩

theorem Attended.pageAllocateInt (ha : s.Attended P) (h : s.Conserved P) (hm : s.Mapped) (mayWait : Bool) :
    (s.pageAllocateInt P v mayWait).1.Attended P := by
  unfold Pages.pageAllocateInt
  split
  · next f rest hl =>
    have hf : f ∈ s.lists .free := hl ▸ List.mem_cons_self
    have hw := went_takeOffFreeList h hf
    exact (ha.searched (mapped_takeOffFreeList h hm hf).2).hand (hw.moved.apart h.apart) hw.none_kept
  · obtain ⟨-, hs⟩ := search_mapped mayWait 0 s h hm
    have hsearch := search_conserved mayWait 0 s h
    split
    · next hr => rw [hr] at hs; exact ha.searched hs
    · next t f hr =>
      rw [hr] at hs hsearch
      obtain ⟨u, hu, -, hw, -⟩ := hsearch
      exact (ha.searched hs).hand (hw.moved.apart hu.apart) hw.none_kept

theorem given_putOnFreeList : (s.putOnFreeList f).given = update s.given f (s.given f + 1) ∧
    (s.putOnFreeList f).waiters = s.waiters := by
  unfold putOnFreeList
  dsimp only
  split <;> exact ⟨rfl, rfl⟩

theorem given_le (g : Nat) : s.given g ≤ (s.putOnFreeList f).given g := by
  rw [given_putOnFreeList.1]
  by_cases hg : g = f
  · subst hg
    rw [update_self]
    exact Nat.le_succ _
  · exact Nat.le_of_eq (update_of_ne hg _ _).symm

theorem Attended.freed (ha : s.Attended P) (h : Apart s.kept) (hw : Went s t f none) (hn : ¬ s.Waited f)
    (hwt : t.waiters = s.waiters) (hg : t.given = s.given) : (t.putOnFreeList f).Attended P := by
  obtain ⟨l, -, hput, -⟩ := went_putOnFreeList (hw.moved.apart h) hw.none_kept
  refine ha.went (hw.trans hput) hn (given_putOnFreeList.2.trans hwt) (fun g => ?_)
  rw [← hg]
  exact given_le g

end Pages

end SpriteKernel.Vm
