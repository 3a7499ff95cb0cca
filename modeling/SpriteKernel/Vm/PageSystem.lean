import SpriteKernel.Vm.PageRun

/- The runs of the page module: what its callers promise about the frames they name, and that in
   every state reached each frame is in one place. -/
namespace SpriteKernel.Vm

open List
namespace Pages
open Custody Transition
variable {P : PageParams} {s t u : Pages} {f : Nat}

/-- The file system gives up the kernel's frames, VmPageFree is for allocated ones, Vm_ReservePage for free ones, the
    others for user pages'. -/
def Promised (P : PageParams) (s : Pages) : PageStep → Prop
  | .pageFromFS f => f < P.numPhysPages ∧ ∀ p, f ∉ s.kept p
  | .getReservePage v => v.segPtr = sysSegPtr
  | .reservePage f => f < P.numPhysPages → f ∈ s.lists .free
  | .freePage f _ => f < P.numPhysPages ∧ ((∀ p, f ∉ s.kept p) ∨ s.UserHeld f)
  | .flushPage v => (s.pte v).physRes = true → s.UserHeld (s.pte v).pageFrame
  | .putOnDirtyList f | .lock f | .unlock f | .finishPage _ f _ => s.UserHeld f
  | .getRefTime | .putOnAllocList _ _ | .allocateInt _ _ | .resume _ | .pageOut _ _ | .recovery
  | .clock | .quickFault _ | .touch _ _ | .killSegment _ | .newSegment _ => True

theorem starting_doneCleaning : (s.doneCleaning f).starting = s.starting := by
  unfold doneCleaning
  split <;> rfl

theorem starting_putOnFront (ht : s.putOnFront P f = .ok t) : t.starting = s.starting := by
  unfold putOnFront at ht
  dsimp only at ht
  split at ht
  · cases ht
    rw [(frame_putOnFreeList f).2.1, starting_doneCleaning]
  · split at ht
    · split at ht
      · cases ht
        rw [(frame_putOnFreeList f).2.1]
        exact starting_doneCleaning
      · nomatch ht
    · cases ht
      exact starting_doneCleaning

theorem putOnFront_error {e : Panic} (ht : s.putOnFront P f = .error e) : e = .residentBitNotSet := by
  unfold putOnFront at ht
  dsimp only at ht
  split at ht
  · nomatch ht
  · split at ht
    · split at ht
      · nomatch ht
      · exact (Except.error.inj ht).symm
    · nomatch ht

theorem Conserved.written (h : s.Conserved P) (hf : f ∈ s.cleaning) :
    Went s { s with cleaning := s.cleaning.erase f } f none where
  moved := by
    refine h.apart.take (i := .cleaned) hf (fun j => ?_) rfl
    cases j with
    | cleaned => exact .inr rfl
    | on l => exact .inl rfl
    | inHand => exact .inl rfl
  core _ _ := rfl
  hand := rfl

/-- The swap server is down: the frame goes back on the dirty list. -/
theorem went_requeue (h : s.Conserved P) (hf : f ∈ s.cleaning) : Went s (s.requeue f) f (some (.on .dirty)) := by
  have hout := h.written hf
  have hput := went_insertRear (l := .dirty) (hout.moved.apart h.apart) hout.none_kept
  exact (hout.trans hput).setCore (c := { s.coreMap f with beingCleaned := false }) rfl rfl rfl

theorem coreMap_requeue : (s.requeue f).coreMap = Function.update s.coreMap f { s.coreMap f with beingCleaned := false } :=
  rfl

section
variable (h : s.Conserved P)
include h

theorem Conserved.requeue (hf : f ∈ s.cleaning) : (s.requeue f).Conserved P := by
  obtain ⟨hd, -, hseg⟩ := h.agrees .cleaned f hf
  have hpos := length_pos_of_mem hf
  have hlen := length_erase_of_mem hf
  refine h.went (went_requeue h hf) (h.range .cleaned f hf) ?_ ?_
  · rw [coreMap_requeue, Function.update_self]
    exact ⟨hd, rfl, hseg⟩
  · refine ⟨h.counted.free, h.counted.reserve, h.counted.user, ?_, ?_⟩
    · show s.numDirtyPages = ((s.lists .dirty ++ [f]).length : Int) + (s.cleaning.erase f).length
      rw [h.counted.dirty, length_append, length_singleton, hlen]
      omega
    · show s.numPageOutProcs - 1 = (s.starting : Int) + (s.cleaning.erase f).length
      rw [h.counted.procs, hlen]
      omega

/-- What `PutOnFront` makes of a frame that has been written, whether the write succeeded or not. -/
theorem Conserved.putOnFront (hf : f ∈ s.cleaning) {w : Pages}
    (hw : w = ({ s with cleaning := s.cleaning.erase f, starting := s.starting + 1 } : Pages) ∨
      w = ({ s with cleaning := s.cleaning.erase f, starting := s.starting + 1 } : Pages).saved f)
    (hfront : w.putOnFront P f = .ok t) : t.Conserved P ∧ t.starting = s.starting + 1 := by
  have hpos := length_pos_of_mem hf
  have hlen := length_erase_of_mem hf
  have hcore : w.coreMap = s.coreMap ∧ w.starting = s.starting + 1 := by
    rcases hw with rfl | rfl <;> exact ⟨rfl, rfl⟩
  have hout : Went s w f none := by
    have hwr := h.written hf
    rcases hw with rfl | rfl <;> exact ⟨hwr.moved, hwr.core, hwr.hand⟩
  have hcount : ({ w with numDirtyPages := w.numDirtyPages - 1 } : Pages).Counted := by
    have hdirty : s.numDirtyPages - 1 = ((s.lists .dirty).length : Int) + (s.cleaning.erase f).length := by
      rw [h.counted.dirty, hlen]
      omega
    have hprocs : s.numPageOutProcs = ((s.starting + 1 : Nat) : Int) + (s.cleaning.erase f).length := by
      rw [h.counted.procs, hlen]
      omega
    rcases hw with rfl | rfl <;> exact ⟨h.counted.free, h.counted.reserve, h.counted.user, hdirty, hprocs⟩
  obtain ⟨-, -, hseg⟩ := h.agrees .cleaned f hf
  refine ⟨putOnFront_conserved h hout (h.range .cleaned f hf) (by rw [hcore.1]; exact hseg) hcount hfront, ?_⟩
  rw [starting_putOnFront hfront, hcore.2]

theorem pageOut_conserved (proc : Option Nat) (status : SwapStatus)
    (hready : s.Ready (.pageOut proc status)) :
    (∃ t, s.pageOutPutAndGet P proc status = .ok t ∧ t.Conserved P) ∨
      s.pageOutPutAndGet P proc status = .error .residentBitNotSet := by
  cases proc with
  | none =>
    have hstart : 0 < s.starting := hready
    refine .inl ?_
    unfold Pages.pageOutPutAndGet
    dsimp only
    split
    · refine ⟨_, rfl, h.congr rfl rfl ⟨h.counted.free, h.counted.reserve, h.counted.user, h.counted.dirty, ?_⟩ rfl⟩
      show s.numPageOutProcs - 1 = ((s.starting - 1 : Nat) : Int) + s.cleaning.length
      rw [h.counted.procs]
      omega
    · exact getDirty_conserved h hstart
  | some f =>
    have hf : f ∈ s.cleaning := hready
    unfold Pages.pageOutPutAndGet
    dsimp only
    by_cases hdown : status.down = true
    · rw [if_pos hdown]
      exact .inl ⟨_, rfl, h.requeue hf⟩
    rw [if_neg hdown]
    obtain ⟨w, hw⟩ : ∃ w, w = (if status = .success then
        ({ s with cleaning := s.cleaning.erase f, starting := s.starting + 1 } : Pages).saved f
        else { s with cleaning := s.cleaning.erase f, starting := s.starting + 1 }) := ⟨_, rfl⟩
    rw [← hw]
    cases hfront : w.putOnFront P f with
    | error e => exact .inr (by rw [putOnFront_error hfront]; rfl)
    | ok t =>
      have hwr : w = ({ s with cleaning := s.cleaning.erase f, starting := s.starting + 1 } : Pages) ∨
          w = ({ s with cleaning := s.cleaning.erase f, starting := s.starting + 1 } : Pages).saved f := by
        rw [hw]
        split
        · exact .inr rfl
        · exact .inl rfl
      obtain ⟨ht, hstart⟩ := h.putOnFront hf hwr hfront
      exact .inl (getDirty_conserved ht (by rw [hstart]; exact Nat.succ_pos _))

theorem Conserved.locked (hu : s.UserHeld f) (n : Int) :
    (s.setCore f { s.coreMap f with lockCount := n }).Conserved P := by
  refine h.recore hu rfl rfl ?_ (h.counted.congr rfl rfl rfl rfl rfl rfl rfl rfl) rfl
  rintro p (rfl | rfl | rfl) hag <;> exact hag

theorem freePage_conserved (hf : f < P.numPhysPages)
    (hheld : (∀ p, f ∉ s.kept p) ∨ s.UserHeld f) (deleted : Bool) :
    ∃ t, s.freePage f deleted = .ok t ∧ t.Conserved P := by
  cases deleted with
  | false =>
    have hs : (s.setHard f ⟨false, false, false⟩).Conserved P := h.frame rfl rfl rfl rfl rfl rfl rfl rfl rfl
    exact pageFreeInt_conserved hs hf hheld none
  | true =>
    have hs : ((s.deletePage (s.coreMap f).virtPage).setHard f ⟨false, false, false⟩).Conserved P :=
      h.frame rfl rfl rfl rfl rfl rfl rfl rfl rfl
    exact pageFreeInt_conserved hs hf hheld none

theorem unlockPage_conserved (hu : s.UserHeld f) :
    (∃ t, s.unlockPage f = .ok t ∧ t.Conserved P) ∨ s.unlockPage f = .error .lockCountNegative := by
  unfold Pages.unlockPage
  dsimp only
  split
  · exact .inr rfl
  · exact .inl ⟨_, rfl, h.locked hu _⟩

theorem Conserved.finishPage (hu : s.UserHeld f) (v : VirtPage) (modified : Bool) :
    (s.finishPage v f modified).Conserved P :=
  (h.locked hu ((s.coreMap f).lockCount - 1)).frame rfl rfl rfl rfl rfl rfl rfl rfl rfl

theorem perform_conserved (l : PageStep) (hp : s.Promised P l) (hr : s.Ready l) :
    (∃ t, s.perform P l = .ok t ∧ t.Conserved P) ∨ s.perform P l = .error .residentBitNotSet ∨
      s.perform P l = .error .lockCountNegative := by
  match l with
  | .getRefTime => exact .inl ⟨_, rfl, h.getRefTime⟩
  | .pageFromFS f => exact .inl ⟨_, rfl, h.pageFromFS hp.1 hp.2⟩
  | .putOnAllocList v f => exact .inl ⟨_, rfl, h.putOnAllocList hr v⟩
  | .allocateInt v mayWait => exact .inl ⟨_, rfl, h.pageAllocateInt v mayWait⟩
  | .getReservePage v => exact .inl ⟨_, rfl, h.getReservePage hp⟩
  | .reservePage f => exact .inl ⟨_, rfl, h.reservePage hp⟩
  | .freePage f deleted => exact .inl (freePage_conserved h hp.1 hp.2 deleted)
  | .resume w => exact .inl ⟨_, rfl, h.resume w⟩
  | .putOnDirtyList f => exact .inl ⟨_, rfl, h.vmPutOnDirtyList hp⟩
  | .flushPage v => exact .inl (flushPage_conserved h hp)
  | .pageOut proc status => exact (pageOut_conserved h proc status hr).imp_right .inl
  | .recovery => exact .inl ⟨_, rfl, h.recovery⟩
  | .clock => exact .inl ⟨_, rfl, clockLoop_conserved _ _ h⟩
  | .lock f => exact .inl ⟨_, rfl, h.locked hp _⟩
  | .unlock f => exact (unlockPage_conserved h hp).imp_right .inr
  | .finishPage v f modified => exact .inl ⟨_, rfl, h.finishPage hp v modified⟩
  | .quickFault v => exact .inl ⟨_, rfl, h.frame rfl rfl rfl rfl rfl rfl rfl rfl rfl⟩
  | .touch f write => exact .inl ⟨_, rfl, h.frame rfl rfl rfl rfl rfl rfl rfl rfl rfl⟩
  | .killSegment n => exact .inl ⟨_, rfl, h.frame rfl rfl rfl rfl rfl rfl rfl rfl rfl⟩
  | .newSegment n => exact .inl ⟨_, rfl, h.frame rfl rfl rfl rfl rfl rfl rfl rfl rfl⟩

end

theorem step_conserved (l : PageStep) (h : s.Conserved P) (hp : s.Promised P l) (hs : step P s l = some t) :
    t.Conserved P := by
  unfold step at hs
  split at hs
  · next hr =>
    rcases perform_conserved h l hp hr with ⟨m, hm, hc⟩ | he | he
    · rw [hm] at hs
      exact Option.some.inj hs ▸ hc
    · rw [he] at hs
      nomatch hs
    · rw [he] at hs
      nomatch hs
  · nomatch hs

theorem blank_conserved (P : PageParams) : blank.Conserved P where
  apart := ⟨fun p => by cases p <;> exact nodup_nil, fun p _ x hx => by cases p <;> nomatch hx⟩
  range p x hx := by cases p <;> nomatch hx
  agrees p x hx := by cases p <;> nomatch hx
  kernel _ _ _ := ⟨rfl, ⟨rfl, rfl, rfl, rfl, rfl⟩, Int.one_pos⟩
  counted := ⟨rfl, rfl, rfl, rfl, rfl⟩
  hand := by
    have hroom := P.room
    show 0 < P.numPhysPages
    omega

theorem Conserved.putOnReserveList (h : s.Conserved P) (hf : f < P.numPhysPages) (hn : ∀ p, f ∉ s.kept p) :
    (s.putOnReserveList f).Conserved P ∧ ∀ g p, g ≠ f → g ∉ s.kept p → g ∉ (s.putOnReserveList f).kept p := by
  have hin := went_insertRear (l := .reserve) h.apart hn
  have hwent : Went s (s.putOnReserveList f) f (some (.on .reserve)) :=
    hin.setCore (c := { (s.coreMap f).noFlags with lockCount := 1 }) rfl rfl rfl
  refine ⟨h.went hwent hf ?_ h.counted.putOnReserveList, fun g p hg hgn hk => hgn ((hwent.moved.other p g hg).1 hk)⟩
  show VmCore.Agrees (Function.update s.coreMap f { (s.coreMap f).noFlags with lockCount := 1 } f) (.on .reserve)
  rw [Function.update_self]
  exact ⟨VmCore.plain_noFlags (s.coreMap f), Int.one_pos⟩

theorem Conserved.putOnFreeList (h : s.Conserved P) (hf : f < P.numPhysPages) (hn : ∀ p, f ∉ s.kept p) :
    (s.putOnFreeList f).Conserved P ∧ ∀ g p, g ≠ f → g ∉ s.kept p → g ∉ (s.putOnFreeList f).kept p := by
  obtain ⟨l, -, hwent, -⟩ := went_putOnFreeList h.apart hn
  refine ⟨h.freed ⟨h.apart.stay hn, fun _ _ => rfl, rfl⟩ hf h.counted, fun g p hg hgn hk => ?_⟩
  exact hgn ((hwent.moved.other p g hg).1 hk)

theorem conserved_foldl {put : Pages → Nat → Pages}
    (hput : ∀ (s : Pages) f, s.Conserved P → f < P.numPhysPages → (∀ p, f ∉ s.kept p) →
      (put s f).Conserved P ∧ ∀ g p, g ≠ f → g ∉ s.kept p → g ∉ (put s f).kept p) :
    ∀ (l : List Nat) (s : Pages), l.Nodup → s.Conserved P → (∀ f ∈ l, f < P.numPhysPages ∧ ∀ p, f ∉ s.kept p) →
      (l.foldl put s).Conserved P ∧ ∀ g p, g ∉ l → g ∉ s.kept p → g ∉ (l.foldl put s).kept p
  | [], _, _, h, _ => ⟨h, fun _ _ _ hg => hg⟩
  | f :: rest, s, hnd, h, hl => by
    obtain ⟨hfr, hnd⟩ := nodup_cons.1 hnd
    obtain ⟨hlt, hn⟩ := hl f mem_cons_self
    obtain ⟨hc, hout⟩ := hput s f h hlt hn
    have hrest : ∀ g ∈ rest, g < P.numPhysPages ∧ ∀ p, g ∉ (put s f).kept p := by
      intro g hg
      obtain ⟨hglt, hgn⟩ := hl g (mem_cons_of_mem f hg)
      exact ⟨hglt, fun p => hout g p (fun hgf => hfr (hgf ▸ hg)) (hgn p)⟩
    obtain ⟨hfold, hkeep⟩ := conserved_foldl hput rest (put s f) hnd hc hrest
    refine ⟨hfold, fun g p hg hgn => ?_⟩
    rw [mem_cons, not_or] at hg
    exact hkeep g p hg.2 (hout g p hg.1 hgn)

theorem coreMapInit_conserved (P : PageParams) : (coreMapInit P).Conserved P := by
  have hroom := P.room
  have hblank : ∀ (f : Nat) (p : Place), f ∉ blank.kept p := fun f p hf => by cases p <;> nomatch hf
  obtain ⟨hres, hkeep⟩ := conserved_foldl (P := P) (fun s f h hf hn => h.putOnReserveList hf hn)
    (List.range' P.firstFreePage 3) blank nodup_range' (blank_conserved P)
    (fun f hf => ⟨by rw [mem_range'_1] at hf; omega, hblank f⟩)
  refine (conserved_foldl (fun s f h hf hn => h.putOnFreeList hf hn) _ _ nodup_range' hres ?_).1
  intro f hf
  rw [mem_range'_1] at hf
  refine ⟨by omega, fun p => hkeep f p (fun hr => ?_) (hblank f p)⟩
  rw [mem_range'_1] at hr
  omega

theorem run_conserved (hrun : Run (step P) (fun s l => s.Promised P l) (coreMapInit P) s) : s.Conserved P :=
  hrun.invariant (fun _ l _ hi hc hs => step_conserved l hi hc hs) (coreMapInit_conserved P)

/-- Where a frame is; `none` is with the kernel. -/
def HeldIn (s : Pages) (f : Nat) : Option Place → Prop
  | some p => f ∈ s.kept p
  | none => (s.coreMap f).KernelHeld ∧ ∀ p, f ∉ s.kept p

theorem Conserved.heldIn_unique (h : s.Conserved P) (hf : f < P.numPhysPages) : ∃! p, s.HeldIn f p := by
  rcases h.somewhere hf with ⟨p, hp⟩ | hker
  · refine ⟨some p, hp, fun q hq => ?_⟩
    cases q with
    | none => exact absurd hp (hq.2 p)
    | some q => exact congrArg some (h.apart.one q p f hq hp)
  · refine ⟨none, hker, fun q hq => ?_⟩
    cases q with
    | none => rfl
    | some q => exact absurd hq (hker.2 q)

/-- Five frames, the first of them the kernel's. -/
def fiveFrames : PageParams :=
  ⟨5, 1, 3, 1, 100, true, false, fun _ => false, by decide⟩

end Pages

end SpriteKernel.Vm
