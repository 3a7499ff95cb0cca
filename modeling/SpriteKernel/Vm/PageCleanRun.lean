import SpriteKernel.Vm.PageClean

/- Runs of the page module: what every step keeps, and what is so in every state reached. -/
namespace SpriteKernel.Vm

open List
namespace Pages
open Custody Transition
variable {P : PageParams} {s t u : Pages} {f : Nat} {v : VirtPage}

/-- The callers keep their promises, and nothing disturbs the writes to swap. -/
def Met (P : PageParams) (s : Pages) (l : PageStep) : Prop := s.Promised P l ∧ s.Faulted l ∧ s.Undisturbed l

structure Kept (P : PageParams) (s : Pages) : Prop where
  conserved : s.Conserved P
  mapped : s.Mapped
  attended : s.Attended P

section
variable (ha : s.Attended P)
include ha

/-- A step that leaves the core map and those that wait alone. -/
theorem Attended.same (hw : t.waiters = s.waiters) (hg : t.given = s.given)
    (hl : t.lists = s.lists) (hcl : t.cleaning = s.cleaning) (hc : t.coreMap = s.coreMap) : t.Attended P :=
  ha.frame hw hg (fun f _ => ⟨by rw [hl], by rw [hl], by rw [hcl]⟩) fun f _ => ⟨(s.coreMap f).lockCount, by rw [hc]⟩

theorem Attended.locked (n : Int) : (s.setCore f { s.coreMap f with lockCount := n }).Attended P :=
  ha.setCore rfl id id id

section
variable (h : s.Conserved P)
include h

theorem Attended.toKernel {l : PageList} (hl : l = .free ∨ l = .reserve)
    (hf : f ∈ s.lists l) {c : VmCore} (hk : t.kept = (s.listRemove f).kept)
    (hcore : t.coreMap = Function.update s.coreMap f c) (hh : t.clockHand = s.clockHand)
    (hw : t.waiters = s.waiters) (hg : t.given = s.given) : t.Attended P := by
  have hgo : Went s t f none := (went_listRemove h.apart hf).setCore (c := c) hk hcore hh
  refine ha.went hgo (fun hwt => ?_) hw (fun _ => Nat.le_of_eq (by rw [hg]))
  rcases hwt.1 with hc | ⟨hd, -⟩
  · nomatch h.apart.one (.on l) .cleaned f hf hc
  · have heq := h.apart.one (.on l) (.on .dirty) f hf hd
    rcases hl with rfl | rfl <;> nomatch heq

theorem Attended.getRefTime (hm : s.Mapped) : s.getRefTime.Attended P := by
  unfold Pages.getRefTime
  split
  · next f rest hl =>
    have hf : f ∈ s.lists .free := hl ▸ mem_cons_self
    exact (ha.searched (mapped_takeOffFreeList h hm hf).2).same rfl rfl rfl rfl rfl
  · exact ha

theorem Attended.putOnAllocList (hf : f ∈ s.inHand) : (s.putOnAllocList v f).Attended P := by
  have hw := went_fromHand h hf
  have hin : ({ s with inHand := s.inHand.erase f } : Pages).Attended P := ha.same rfl rfl rfl rfl rfl
  exact hin.hand (hw.moved.apart h.apart) hw.none_kept

theorem Attended.getReservePage : (s.getReservePage v).Attended P := by
  unfold Pages.getReservePage
  split
  · next f rest hl =>
    have hf : f ∈ s.lists .reserve := hl ▸ mem_cons_self
    exact ha.toKernel h (.inr rfl) hf (c := { s.coreMap f with virtPage := v }) rfl rfl rfl rfl rfl
  · exact ha

theorem Attended.reservePage (hf : f < P.numPhysPages → f ∈ s.lists .free) : (s.reservePage P f).Attended P := by
  unfold Pages.reservePage
  split
  · next hlt =>
    exact ha.toKernel h (.inl rfl) (hf hlt) (c := { (s.coreMap f).noFlags with
      virtPage := ⟨sysSegPtr, (s.coreMap f).virtPage.page⟩, lockCount := 1 }) rfl rfl rfl rfl rfl
  · exact ha

end

end

theorem callPageOuts_attended : ∀ (n : Nat) (s : Pages), s.Attended P → (callPageOuts P n s).Attended P
  | 0, _, ha => ha
  | n + 1, s, ha => by
    unfold callPageOuts
    split
    · exact callPageOuts_attended n _ (ha.same rfl rfl rfl rfl rfl)
    · exact ha

theorem searched_clockPage (h : s.Conserved P) (hf : f < P.numPhysPages) : Searched s (s.clockPage P f) := by
  unfold clockPage
  split
  · exact .refl s
  · next hskip =>
    split
    · exact (searched_moveToRear h.apart (h.clock_alloc hf hskip)).trans searched_clearRef
    · exact .refl s

theorem searched_clockLoop : ∀ (n : Nat) (s : Pages), s.Conserved P → Searched s (clockLoop P n s)
  | 0, s, _ => .refl s
  | n + 1, s, h => by
    have hc := h.clockTick
    have htick : Searched s { s with clockHand :=
        if s.clockHand = P.numPhysPages - 1 then P.firstFreePage else s.clockHand + 1 } :=
      ⟨rfl, rfl, rfl, rfl, fun _ => id, fun _ => .inl rfl, fun _ => id⟩
    exact (htick.trans (searched_clockPage hc h.hand)).trans (searched_clockLoop n _ (hc.clockPage h.hand))

theorem perform_kept (h : s.Kept P) (l : PageStep) (hmet : Met P s l) (hr : s.Ready l) (ht : s.perform P l = .ok t) :
    t.Mapped ∧ t.Attended P := by
  obtain ⟨hc, hm, ha⟩ := h
  obtain ⟨hp, hfa, hu⟩ := hmet
  cases l with
  | getRefTime =>
    cases ht
    exact ⟨hm.getRefTime hc, ha.getRefTime hc hm⟩
  | pageFromFS f =>
    cases ht
    exact ⟨hm.frame rfl rfl rfl rfl rfl rfl rfl rfl, ha.same rfl rfl rfl rfl rfl⟩
  | putOnAllocList v f =>
    cases ht
    exact ⟨hm.putOnAllocList hc hr hfa, ha.putOnAllocList hc hr⟩
  | allocateInt v mayWait =>
    cases ht
    exact ⟨hm.pageAllocateInt hc hfa mayWait, ha.pageAllocateInt hc hm mayWait⟩
  | getReservePage v =>
    cases ht
    exact ⟨hm.getReservePage hc, ha.getReservePage hc⟩
  | reservePage f =>
    cases ht
    exact ⟨hm.reservePage hc hp, ha.reservePage hc hp⟩
  | freePage f deleted =>
    obtain ⟨hmm, hmc, hml, hmcl, hmcore, hmk, hmg⟩ := hm.giveUp hc hp.1 hp.2 deleted hfa
    have hma : ((if deleted then s.deletePage (s.coreMap f).virtPage else s).setHard f ⟨false, false, false⟩).Attended P :=
      ha.same (by cases deleted <;> rfl) (by cases deleted <;> rfl) hml hmcl hmcore
    refine ⟨hmm.pageFreeInt hmc hp.1 (by rw [UserHeld, hml, hmcl, hmk]; exact hp.2) (by rw [hmcore]; exact hmg) ht, ?_⟩
    exact hma.pageFreeInt hmc hp.1 (by rw [UserHeld, hml, hmcl, hmk]; exact hp.2) ht
  | resume w =>
    cases ht
    exact ⟨hm.resume (ha.unflushed w hr.1), ha.resume hc hr.1⟩
  | putOnDirtyList f =>
    cases ht
    exact ⟨hm.vmPutOnDirtyList hc hp, ha.vmPutOnDirtyList hc hp⟩
  | flushPage v => exact hu.elim
  | pageOut found status =>
    cases found with
    | none =>
      have ht : s.pageOutPutAndGet P none status = .ok t := ht
      exact pageOut_start hm ha hc hu.2 ht
    | some f =>
      have hdone := pageOut_done hm ha hc hu.2 hr (hu.1 f rfl).1 (hu.1 f rfl).2 ht
      exact ⟨hdone.1, hdone.2.1⟩
  | recovery =>
    cases ht
    exact ⟨callPageOuts_mapped _ _ (hm.frame rfl rfl rfl rfl rfl rfl rfl rfl),
      callPageOuts_attended _ _ (ha.same rfl rfl rfl rfl rfl)⟩
  | clock =>
    cases ht
    exact ⟨clockLoop_mapped _ _ hc hm, ha.searched (searched_clockLoop _ _ hc)⟩
  | lock f =>
    cases ht
    exact ⟨hm.setCore rfl fun _ hfr _ => .inl hfr, ha.locked _⟩
  | unlock f =>
    unfold perform unlockPage at ht
    dsimp only at ht
    split at ht
    · cases ht
    · cases ht
      exact ⟨hm.setCore rfl fun _ hfr _ => .inl hfr, ha.locked _⟩
  | finishPage v f modified =>
    cases ht
    exact ⟨hm.finishPage hfa.1 hfa.2 hc modified, (ha.locked _).same rfl rfl rfl rfl rfl⟩
  | quickFault v =>
    cases ht
    exact ⟨hm.quickFault hfa, ha.same rfl rfl rfl rfl rfl⟩
  | touch f write =>
    cases ht
    exact ⟨hm.touch hfa.1 hfa.2.2.1 write, ha.same rfl rfl rfl rfl rfl⟩
  | killSegment n =>
    cases ht
    exact ⟨hm.killSegment n, ha.same rfl rfl rfl rfl rfl⟩
  | newSegment n =>
    cases ht
    exact ⟨hm.newSegment hfa, ha.same rfl rfl rfl rfl rfl⟩

theorem cleaning_hand : (s.hand f v).cleaning = s.cleaning := by
  unfold hand
  split <;> rfl

theorem cleaning_pageFreeInt (ht : s.pageFreeInt f none = .ok t) : t.cleaning = s.cleaning := by
  unfold pageFreeInt at ht
  dsimp only at ht
  split at ht
  · split at ht
    · nomatch ht
    · exact Except.ok.inj ht ▸ (frame_putOnFreeList f).1
  · split at ht
    · exact Except.ok.inj ht ▸ rfl
    · cases ht
      refine (frame_putOnFreeList f).1.trans ?_
      split <;> rfl

theorem cleaning_afterFree (fl : Option VirtPage) : (s.afterFree fl).cleaning = s.cleaning := by
  cases fl with
  | none => rfl
  | some v =>
    unfold afterFree pageInvalidateInt
    dsimp only
    split <;> rfl

theorem cleaning_callPageOuts : ∀ (n : Nat) (s : Pages), (callPageOuts P n s).cleaning = s.cleaning
  | 0, _ => rfl
  | n + 1, s => by
    unfold callPageOuts
    split
    · exact cleaning_callPageOuts n _
    · rfl

theorem cleaning_nextDirty : ∀ (l : List Nat) (s : Pages), (nextDirty l s).1.cleaning = s.cleaning
  | [], _ => rfl
  | f :: rest, s => by
    unfold nextDirty
    split
    · refine (cleaning_nextDirty rest _).trans ((frame_putOnFreeList f).1.trans ?_)
      unfold pageInvalidateInt
      split <;> rfl
    · rfl

theorem cleaning_getDirty (ht : s.getDirty = .ok t) (hf : f ∈ s.cleaning) : f ∈ t.cleaning := by
  have hnext := cleaning_nextDirty (s.lists .dirty) s
  unfold getDirty at ht
  split at ht
  · next m g hr =>
    cases ht
    rw [hr] at hnext
    obtain ⟨pte, hard, heq⟩ := startCleaning_eq m g
    rw [heq, hnext]
    exact mem_append_left _ hf
  · next m hr =>
    rw [hr] at hnext
    dsimp only at ht
    split at ht
    · nomatch ht
    · cases ht
      rw [hnext]
      exact hf

theorem cleaning_putOnFront (ht : s.putOnFront P f = .ok t) : t.cleaning = s.cleaning := by
  have hdone : (s.doneCleaning f).cleaning = s.cleaning := by
    unfold doneCleaning
    split <;> rfl
  unfold putOnFront at ht
  dsimp only at ht
  split at ht
  · exact Except.ok.inj ht ▸ (frame_putOnFreeList f).1.trans hdone
  · split at ht
    · split at ht
      · exact Except.ok.inj ht ▸ (frame_putOnFreeList f).1.trans hdone
      · nomatch ht
    · exact Except.ok.inj ht ▸ hdone

theorem cleaning_pageOut {proc : Option Nat} {status : SwapStatus} (hne : proc ≠ some f) (hf : f ∈ s.cleaning)
    (ht : s.pageOutPutAndGet P proc status = .ok t) : f ∈ t.cleaning := by
  unfold pageOutPutAndGet at ht
  split at ht
  · split at ht
    · exact Except.ok.inj ht ▸ hf
    · exact cleaning_getDirty ht hf
  · next g =>
    have hfg : f ∈ s.cleaning.erase g := (mem_erase_of_ne fun hfg => hne (congrArg some hfg.symm)).2 hf
    split at ht
    · exact Except.ok.inj ht ▸ hfg
    · dsimp only at ht
      obtain ⟨w, hw⟩ : ∃ w, w = (if status = .success then
          ({ s with cleaning := s.cleaning.erase g, starting := s.starting + 1 } : Pages).saved g
          else { s with cleaning := s.cleaning.erase g, starting := s.starting + 1 }) := ⟨_, rfl⟩
      rw [← hw] at ht
      have hwc : w.cleaning = s.cleaning.erase g := by rw [hw]; split <;> rfl
      cases hfront : w.putOnFront P g with
      | error e =>
        rw [hfront] at ht
        nomatch ht
      | ok m =>
        rw [hfront] at ht
        have ht : m.getDirty = .ok t := ht
        exact cleaning_getDirty ht (by rw [cleaning_putOnFront hfront, hwc]; exact hfg)

/-- A frame stays with the process that cleans it until that process is done. -/
theorem cleaning_perform (h : s.Kept P) (l : PageStep) (hu : s.Undisturbed l) (hl : ∀ status, l ≠ .pageOut (some f) status)
    (hf : f ∈ s.cleaning) (ht : s.perform P l = .ok t) : f ∈ t.cleaning := by
  match l with
  | .getRefTime =>
    cases ht
    unfold getRefTime
    split <;> exact hf
  | .putOnAllocList v g =>
    cases ht
    show f ∈ (Pages.hand _ g v).cleaning
    rw [cleaning_hand]
    exact hf
  | .allocateInt v mayWait =>
    cases ht
    have hs := (search_mapped mayWait 0 s h.conserved h.mapped).2
    unfold pageAllocateInt
    split
    · rw [cleaning_hand]
      exact hf
    · split
      · next hr => rw [hr] at hs; exact hs.cleaning ▸ hf
      · next hr => rw [hr] at hs; rw [cleaning_hand]; exact hs.cleaning ▸ hf
  | .getReservePage v =>
    cases ht
    unfold getReservePage
    split <;> exact hf
  | .reservePage g =>
    cases ht
    unfold reservePage
    split <;> exact hf
  | .freePage g deleted =>
    rw [cleaning_pageFreeInt ht]
    cases deleted <;> exact hf
  | .resume w =>
    cases ht
    unfold resume
    dsimp only
    split
    · exact hf
    · rw [cleaning_afterFree]
      exact hf
  | .putOnDirtyList g =>
    cases ht
    unfold vmPutOnDirtyList
    split
    · exact hf
    · show f ∈ (Pages.putOnDirtyList P _ g).cleaning
      rw [(frame_putOnDirtyList g).1]
      exact hf
  | .flushPage v => exact hu.elim
  | .pageOut proc status => exact cleaning_pageOut (fun hp => hl status (hp ▸ rfl)) hf ht
  | .recovery =>
    cases ht
    unfold recovery
    rw [cleaning_callPageOuts]
    exact hf
  | .clock =>
    cases ht
    exact (searched_clockLoop _ _ h.conserved).cleaning ▸ hf
  | .unlock g =>
    unfold perform unlockPage at ht
    dsimp only at ht
    split at ht
    · nomatch ht
    · exact Except.ok.inj ht ▸ hf
  | .pageFromFS _ | .lock _ | .finishPage _ _ _ | .quickFault _ | .touch _ _ | .killSegment _ | .newSegment _ =>
    exact Except.ok.inj ht ▸ hf

end Pages

end SpriteKernel.Vm
