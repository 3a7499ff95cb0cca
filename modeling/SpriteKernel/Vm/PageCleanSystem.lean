import SpriteKernel.Vm.PageCleanRun

/- What page cleaning keeps in every run that nothing disturbs, and how a write that finds the
   swap server down strands the process that sleeps for the frame. -/
namespace SpriteKernel.Vm

open Function List
namespace Pages
open Custody Transition
variable {P : PageParams} {s t u : Pages} {f : Nat} {v : VirtPage} {l : PageStep}

theorem step_eq_some (h : step P s l = some t) : s.Ready l ∧ s.perform P l = .ok t := by
  unfold step at h
  split at h
  · next hr =>
    refine ⟨hr, ?_⟩
    cases hp : s.perform P l with
    | error e =>
      rw [hp] at h
      nomatch h
    | ok m =>
      rw [hp] at h
      exact congrArg Except.ok (Option.some.inj h)
  · nomatch h

theorem step_kept (h : s.Kept P) (hmet : Met P s l) (hs : step P s l = some t) : t.Kept P := by
  obtain ⟨hr, ht⟩ := step_eq_some hs
  obtain ⟨hm, ha⟩ := perform_kept h l hmet hr ht
  exact ⟨step_conserved l h.conserved hmet.1 hs, hm, ha⟩

/-- No user page, and nobody that waits. -/
structure Fresh (s : Pages) : Prop where
  alloc : s.lists .alloc = []
  dirty : s.lists .dirty = []
  cleaning : s.cleaning = []
  waiters : s.waiters = []
  pte : ∀ v, s.pte v = .zero
  unsaved : ∀ v, s.unsaved v = false

theorem Fresh.put (h : s.Fresh) {l : PageList} (hl : l = .free ∨ l = .reserve)
    (hlists : t.lists = update s.lists l (s.lists l ++ [f])) (hcl : t.cleaning = s.cleaning)
    (hw : t.waiters = s.waiters) (hp : t.pte = s.pte) (hu : t.unsaved = s.unsaved) : t.Fresh := by
  have hother : ∀ k, k = .alloc ∨ k = .dirty → t.lists k = s.lists k := by
    intro k hk
    rw [hlists]
    rcases hl with rfl | rfl <;> rcases hk with rfl | rfl <;> exact update_of_ne (by decide) _ _
  exact ⟨(hother _ (.inl rfl)).trans h.alloc, (hother _ (.inr rfl)).trans h.dirty, hcl.trans h.cleaning,
    hw.trans h.waiters, fun v => by rw [hp, h.pte], fun v => by rw [hu, h.unsaved]⟩

theorem Fresh.putOnReserveList (h : s.Fresh) (f : Nat) : (s.putOnReserveList f).Fresh :=
  h.put (.inr rfl) rfl rfl rfl rfl rfl

theorem Fresh.putOnFreeList (h : s.Fresh) (f : Nat) : (s.putOnFreeList f).Fresh := by
  unfold Pages.putOnFreeList
  dsimp only
  split
  · exact h.put (f := f) (.inr rfl) rfl rfl rfl rfl rfl
  · exact h.put (f := f) (.inl rfl) rfl rfl rfl rfl rfl

theorem fresh_foldl {put : Pages → Nat → Pages} (hput : ∀ (s : Pages) f, s.Fresh → (put s f).Fresh) :
    ∀ (l : List Nat) (s : Pages), s.Fresh → (l.foldl put s).Fresh
  | [], _, h => h
  | f :: rest, s, h => fresh_foldl hput rest _ (hput s f h)

theorem coreMapInit_fresh (P : PageParams) : (coreMapInit P).Fresh :=
  fresh_foldl (fun _ f h => h.putOnFreeList f) _ _
    (fresh_foldl (fun _ f h => h.putOnReserveList f) _ _ ⟨rfl, rfl, rfl, rfl, fun _ => rfl, fun _ => rfl⟩)

theorem Fresh.not_userHeld (h : s.Fresh) : ¬ s.UserHeld f := by
  rintro (ha | hd | hc)
  · rw [h.alloc] at ha
    nomatch ha
  · rw [h.dirty] at hd
    nomatch hd
  · rw [h.cleaning] at hc
    nomatch hc

theorem Fresh.mapped (h : s.Fresh) : s.Mapped where
  unique _ _ hf := absurd hf h.not_userHeld
  names _ hf := absurd hf h.not_userHeld
  resident v _ hr := by
    rw [h.pte v] at hr
    cases hr
  givenUp _ hf := absurd hf h.not_userHeld
  saved v _ hu := by
    rw [h.unsaved v] at hu
    cases hu

theorem Fresh.attended (h : s.Fresh) : s.Attended P := by
  have hnone : ∀ w, w ∉ s.waiters := fun w hw => by
    rw [h.waiters] at hw
    nomatch hw
  exact ⟨fun w hw => absurd hw (hnone w), fun w hw => absurd hw (hnone w), fun w hw => absurd hw (hnone w),
    fun w hw => absurd hw (hnone w), fun w hw => absurd hw (hnone w)⟩

theorem run_kept (hrun : Run (step P) (Met P) (coreMapInit P) s) : s.Kept P :=
  hrun.invariant (fun _ _ _ hi hmet hs => step_kept hi hmet hs)
    ⟨coreMapInit_conserved P, (coreMapInit_fresh P).mapped, (coreMapInit_fresh P).attended⟩

theorem mem_putOnFreeList : f ∈ (s.putOnFreeList f).lists .free ∨ f ∈ (s.putOnFreeList f).lists .reserve := by
  unfold putOnFreeList
  dsimp only
  split
  · refine .inr ?_
    exact mem_append_right _ mem_cons_self
  · refine .inl ?_
    exact mem_append_right _ mem_cons_self

theorem pageFreeInt_frees (ht : s.pageFreeInt f none = .ok t) :
    (f ∈ t.lists .free ∨ f ∈ t.lists .reserve) ∨ ∃ w, t.waiters = s.waiters ++ [w] ∧ w.frame = f ∧ w.woken = false := by
  unfold pageFreeInt at ht
  dsimp only at ht
  split at ht
  · split at ht
    · nomatch ht
    · exact .inl (Except.ok.inj ht ▸ mem_putOnFreeList)
  · split at ht
    · exact .inr (Except.ok.inj ht ▸ ⟨_, rfl, rfl, rfl⟩)
    · exact .inl (Except.ok.inj ht ▸ mem_putOnFreeList)

theorem step_asleep (h : s.Kept P) (hmet : Met P s l) (hs : step P s l = some t) {w : Waiter}
    (hw : w ∈ t.waiters) (hwk : w.woken = false) (hf : w.frame ∈ s.cleaning) : w.frame ∈ t.cleaning := by
  obtain ⟨hr, ht⟩ := step_eq_some hs
  have ha := (step_kept h hmet hs).attended
  by_cases hl : ∃ status, l = .pageOut (some w.frame) status
  · obtain ⟨status, rfl⟩ := hl
    obtain ⟨hq, hal⟩ := hmet.2.2
    have hdone := pageOut_done h.mapped h.attended h.conserved hal hf (hq _ rfl).1 (hq _ rfl).2 ht
    exact Bool.noConfusion (hdone.2.2.symm.trans (ha.asleep w hw hwk).1.2)
  · exact cleaning_perform h l hmet.2.2 (fun status he => hl ⟨status, he⟩) hf ht

/-- As long as no write to swap is disturbed, page cleaning loses nothing and strands nobody. -/
theorem cleaning_keeps (P : PageParams) (s : Pages) (hrun : Run (step P) (Met P) (coreMapInit P) s) :
    (∀ v, s.Alive v → s.unsaved v = true → (s.pte v).physRes = true ∧ s.UserHeld (s.pte v).pageFrame ∧
      (s.coreMap (s.pte v).pageFrame).virtPage = v) ∧
    (∀ w, w ∈ s.waiters → w.woken = false →
      w.frame ∈ s.cleaning ∨ w.frame ∈ s.lists .dirty ∧ (s.coreMap w.frame).dontFreeUntilClean = true) ∧
    (∀ l t, Met P s l → step P s l = some t → ∀ w, w ∈ t.waiters → w.woken = false →
      w.frame ∈ s.cleaning → w.frame ∈ t.cleaning) ∧
    (∀ f deleted t, step P s (.freePage f deleted) = some t → (f ∈ t.lists .free ∨ f ∈ t.lists .reserve) ∨
      ∃ w, t.waiters = s.waiters ++ [w] ∧ w.frame = f ∧ w.woken = false) ∧
    ∀ w, w ∈ s.waiters → (s.coreMap w.frame).beingCleaned = false → (s.coreMap w.frame).dontFreeUntilClean = false →
      w.given < s.given w.frame := by
  have h := run_kept hrun
  refine ⟨fun v hv hun => ?_, fun w hw hwk => (h.attended.asleep w hw hwk).1.1,
    fun l t hmet hs w hw hwk hf => step_asleep h hmet hs hw hwk hf, fun f deleted t hs => ?_, fun w hw hb hd => ?_⟩
  · have hr := (h.mapped.saved v hv hun).1
    exact ⟨hr, h.mapped.resident v hv hr⟩
  · have hfree := pageFreeInt_frees (step_eq_some hs).2
    cases deleted <;> exact hfree
  · rw [← Nat.not_le]
    intro hg
    refine h.conserved.not_waited ?_ (h.attended.owed w hw hg).1
    rw [hb, hd]
    decide

/-- A page of segment 1 that is allocated the one free frame and modified. -/
def pageIn : Pages :=
  ((coreMapInit fiveFrames).pageAllocateInt fiveFrames ⟨1, 0⟩ true).1.finishPage ⟨1, 0⟩ 4 true

theorem run_pageIn {C : Pages → PageStep → Prop}
    (hC : ∀ s l, Met fiveFrames s l → C s l) : Run (step fiveFrames) C (coreMapInit fiveFrames) pageIn := by
  refine Run.mono hC ?_
  have halloc : Met fiveFrames (coreMapInit fiveFrames) (.allocateInt ⟨1, 0⟩ true) :=
    ⟨trivial, fun _ => ⟨⟨by decide, rfl⟩, fun g hg => absurd hg (coreMapInit_fresh fiveFrames).not_userHeld⟩, trivial⟩
  refine ((Run.refl _ _).snoc (l := .allocateInt ⟨1, 0⟩ true) halloc rfl).snoc (l := .finishPage ⟨1, 0⟩ 4 true) ?_ rfl
  exact ⟨.inl (by decide), ⟨rfl, by decide⟩, trivial⟩

theorem cleaning_keeps_modified : (pageIn.pte ⟨1, 0⟩).physRes = true ∧ pageIn.UserHeld (pageIn.pte ⟨1, 0⟩).pageFrame ∧
    (pageIn.coreMap (pageIn.pte ⟨1, 0⟩).pageFrame).virtPage = ⟨1, 0⟩ :=
  (cleaning_keeps fiveFrames pageIn (run_pageIn fun _ _ => id)).1 ⟨1, 0⟩ ⟨by decide, rfl⟩ rfl

theorem search_dirty (hl : s.lists .alloc = [f]) (hfew : ¬ s.numDirtyPages > P.maxDirtyPages)
    (hlock : (s.coreMap f).lockCount = 0) (href : s.isReferenced f = false) (hmod : s.isModified f = true) :
    search P true 0 s = (((s.allocCheck f).takeOffAllocList f).putOnDirtyList P f, none) := by
  have hnone : (((s.allocCheck f).takeOffAllocList f).putOnDirtyList P f).lists .alloc = [] := by
    rw [lists_putOnDirtyList, update_of_ne (by decide)]
    show ((s.allocCheck f).lists .alloc).erase f = []
    rw [lists_allocCheck, hl, erase_cons_head]
  unfold search
  split
  · next h =>
    rw [hl] at h
    cases h
  · next g rest h =>
    rw [hl] at h
    obtain ⟨rfl, rfl⟩ := List.cons.inj h
    rw [dif_neg (by rw [hl]; rintro (⟨-, h⟩ | h); exact hfew h; exact absurd h (Nat.not_le.2 Nat.one_pos)),
      if_neg (by rw [hlock]; decide), dif_neg (by rw [href]; decide), if_pos hmod]
    unfold search
    split
    · rfl
    · next h =>
      rw [hnone] at h
      cases h

theorem search_referenced {rest : List Nat} (hl : s.lists .alloc = f :: rest) (hfew : ¬ s.numDirtyPages > P.maxDirtyPages)
    (hlock : (s.coreMap f).lockCount = 0) (href : s.isReferenced f = true) :
    search P true 0 s = search P true 0 ((s.clearRef P f).moveToRear f) := by
  conv => lhs; unfold search
  split
  · next h =>
    rw [hl] at h
    cases h
  · next g tail h =>
    rw [hl] at h
    obtain ⟨rfl, rfl⟩ := List.cons.inj h
    rw [dif_neg (by rw [hl]; rintro (⟨-, h⟩ | h); exact hfew h; exact absurd h (Nat.not_le.2 (Nat.succ_pos _))),
      if_neg (by rw [hlock]; decide), dif_pos href]

/-- Somebody looks for a frame, and finds the one there is to be cleaned first. -/
def pageDirty : Pages :=
  (((((pageIn.clearRef fiveFrames 4).moveToRear 4).allocCheck 4).takeOffAllocList 4).putOnDirtyList fiveFrames 4)

theorem step_pageDirty : step fiveFrames pageIn (.allocateInt ⟨2, 0⟩ true) = some pageDirty := by
  have hsearch : search fiveFrames true 0 pageIn = (pageDirty, none) := by
    rw [search_referenced (show pageIn.lists .alloc = 4 :: [] from rfl) (by decide) rfl rfl]
    exact search_dirty rfl (by decide) rfl rfl rfl
  have halloc : pageIn.pageAllocateInt fiveFrames ⟨2, 0⟩ true = (pageDirty, none) := by
    unfold pageAllocateInt
    rw [show pageIn.lists .free = [] from rfl]
    rw [hsearch]
  show some (pageIn.pageAllocateInt fiveFrames ⟨2, 0⟩ true).1 = some pageDirty
  rw [halloc]

def pageWritten : Pages := (pageDirty.listRemove 4).startCleaning 4

/-- Its segment shrinks meanwhile, and the process that frees the frame sleeps for it. -/
def pageAsleep : Pages :=
  let s := (pageWritten.deletePage ⟨1, 0⟩).setHard 4 ⟨false, false, false⟩
  let s := s.setCore 4 { s.coreMap 4 with freePage := true, lockCount := 0 }
  let s := s.setCore 4 { s.coreMap 4 with segPageoutWait := true }
  { s with waiters := [⟨4, 1, false, none, 1⟩] }

/-- The write of a frame that a process sleeps for finds the swap server down, and the process is not woken. -/
theorem swap_down_strands : ∃ s t, Run (step fiveFrames) (fun s l => s.Promised fiveFrames l ∧ s.Faulted l)
      (coreMapInit fiveFrames) s ∧ step fiveFrames s (.pageOut (some 4) .rpcTimeout) = some t ∧
    ∃ w, w ∈ s.waiters ∧ w ∈ t.waiters ∧ w.woken = false ∧ w.frame ∈ s.cleaning ∧ w.frame ∉ t.cleaning ∧
      w.frame ∈ t.lists .dirty ∧ (t.coreMap w.frame).dontFreeUntilClean = false := by
  have hrun := run_pageIn (C := fun s l => s.Promised fiveFrames l ∧ s.Faulted l) fun _ _ h => ⟨h.1, h.2.1⟩
  have hwanted : pageIn.Wanted ⟨2, 0⟩ := by
    refine fun _ => ⟨⟨by decide, rfl⟩, fun g hg => ?_⟩
    have hg4 : g = 4 := by
      rcases hg with ha | hd | hc
      · exact mem_singleton.1 ha
      · nomatch hd
      · nomatch hc
    subst hg4
    decide
  have hsearch : pageIn.Promised fiveFrames (.allocateInt ⟨2, 0⟩ true) ∧ pageIn.Faulted (.allocateInt ⟨2, 0⟩ true) :=
    ⟨trivial, hwanted⟩
  have hout : pageDirty.Promised fiveFrames (.pageOut none .success) ∧ pageDirty.Faulted (.pageOut none .success) :=
    ⟨trivial, trivial⟩
  have hfree : pageWritten.Promised fiveFrames (.freePage 4 true) ∧ pageWritten.Faulted (.freePage 4 true) :=
    ⟨⟨by decide, .inr (.inr (.inr (mem_singleton.2 rfl)))⟩, .inl rfl⟩
  have hwritten : step fiveFrames pageDirty (.pageOut none .success) = some pageWritten := rfl
  have hasleep : step fiveFrames pageWritten (.freePage 4 true) = some pageAsleep := rfl
  refine ⟨pageAsleep, pageAsleep.requeue 4, ?_, rfl, ⟨4, 1, false, none, 1⟩, ?_⟩
  · exact ((hrun.snoc hsearch step_pageDirty).snoc hout hwritten).snoc hfree hasleep
  · exact ⟨mem_singleton.2 rfl, mem_singleton.2 rfl, rfl, mem_singleton.2 rfl, not_mem_nil,
      mem_singleton.2 rfl, rfl⟩

end Pages

end SpriteKernel.Vm
