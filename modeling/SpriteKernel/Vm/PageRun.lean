import SpriteKernel.Vm.PageReach

/- Frames given back and cleaned, and the runs of the page module: what its callers promise about
   the frames they name, that every step conserves the frames, and that none panics for want of
   a place. -/
namespace SpriteKernel.Vm

open Function List
namespace Pages
open Custody
variable {P : PageParams} {s t u : Pages} {f : Nat}

/-- Only the core map entry of a frame that the kernel holds changes on its way out. -/
theorem Conserved.out (h : s.Conserved P) (hn : ∀ p, f ∉ s.kept p) (c : VmCore) : Went s (s.setCore f c) f none :=
  ⟨h.apart.stay hn, fun _ hg => update_of_ne hg _ _, rfl⟩

section free
variable (h : s.Conserved P) (hf : f < P.numPhysPages) (hheld : (∀ p, f ∉ s.kept p) ∨ s.UserHeld f)
include h hf hheld

theorem pageFreeInt_conserved (fl : Option VirtPage) : ∃ t, s.pageFreeInt f fl = .ok t ∧ t.Conserved P := by
  have hcore : (s.setCore f { s.coreMap f with freePage := true, lockCount := 0 }).coreMap f
      = { s.coreMap f with freePage := true, lockCount := 0 } := update_self _ _ _
  unfold Pages.pageFreeInt
  simp only [hcore]
  by_cases hsys : (s.coreMap f).virtPage.segPtr = sysSegPtr
  · rcases hheld with hn | hu
    · obtain ⟨-, ⟨-, hd, -, hb, -⟩, -⟩ := h.kernel f hn hf
      rw [if_pos hsys, if_neg (by rw [hd, hb]; simp)]
      exact ⟨_, rfl, (h.freed (h.out hn _) hf (h.counted.congr rfl rfl rfl rfl rfl rfl rfl rfl)).afterFree fl⟩
    · exact absurd hsys (h.userHeld_segPtr hu)
  rw [if_neg hsys]
  have hu : s.UserHeld f := hheld.resolve_left fun hn => hsys (h.kernel f hn hf).1
  -- the frame stays where it is until it comes off its list
  have hstay : ∀ (c : VmCore), c.dirtyPage = (s.coreMap f).dirtyPage → c.beingCleaned = (s.coreMap f).beingCleaned →
      c.virtPage = (s.coreMap f).virtPage → f ∉ s.lists .alloc → (s.setCore f c).Conserved P := by
    intro c hd hb hv hna
    refine h.setCore rfl rfl (fun p hp => ?_) (fun hn _ => ?_) (h.counted.congr rfl rfl rfl rfl rfl rfl rfl rfl) rfl
    · have hag := h.agrees p f hp
      rcases hu with ha | hdl | hcl
      · exact absurd ha hna
      · rw [h.apart.one p (.on .dirty) f hp hdl] at hag ⊢
        exact ⟨hd ▸ hag.1, hb ▸ hag.2.1, hv ▸ hag.2.2⟩
      · rw [h.apart.one p .cleaned f hp hcl] at hag ⊢
        exact ⟨hd ▸ hag.1, hb ▸ hag.2.1, hv ▸ hag.2.2⟩
    · rcases hu with ha | hdl | hcl
      · exact absurd ha (hn (.on .alloc))
      · exact absurd hdl (hn (.on .dirty))
      · exact absurd hcl (hn .cleaned)
  by_cases hwait : ((s.coreMap f).beingCleaned || (s.coreMap f).dontFreeUntilClean) = true
  · rw [if_pos hwait]
    have hna : f ∉ s.lists .alloc := by
      intro ha
      rcases h.waits_place hf hwait with hdl | hcl
      · nomatch h.apart.one (.on .alloc) (.on .dirty) f ha hdl
      · nomatch h.apart.one (.on .alloc) .cleaned f ha hcl
    refine ⟨_, rfl, ?_⟩
    have hset := hstay { s.coreMap f with freePage := true, lockCount := 0, segPageoutWait := true } rfl rfl rfl hna
    refine hset.frame rfl ?_ rfl rfl rfl rfl rfl rfl rfl
    exact Function.update_idem _ _ _
  rw [if_neg hwait]
  refine ⟨_, rfl, Conserved.afterFree ?_ fl⟩
  rw [Bool.or_eq_true, not_or] at hwait
  rcases hu with ha | hdl | hcl
  · have hd := (h.agrees (.on .alloc) f ha).1.2.1
    have hw := went_listRemove h.apart (l := .alloc) ha
    rw [if_neg (by rw [hd]; decide)]
    refine h.freed (t := Pages.takeOffAllocList _ f) ⟨hw.moved, fun g hg => ?_, rfl⟩ hf ?_
    · exact update_of_ne hg _ _
    · exact (Counted.takeOffAllocList h.apart h.counted ha).congr rfl rfl rfl rfl rfl rfl rfl rfl
  · have hd := (h.agrees (.on .dirty) f hdl).1
    have hw := went_listRemove h.apart (l := .dirty) hdl
    rw [if_pos hd]
    refine h.freed (t := Pages.takeOffDirtyList _ f) ⟨hw.moved, fun g hg => ?_, rfl⟩ hf ?_
    · exact update_of_ne hg _ _
    · exact (Counted.takeOffDirtyList h.apart h.counted hdl).congr rfl rfl rfl rfl rfl rfl rfl rfl
  · exact absurd (h.agrees .cleaned f hcl).2.1 hwait.1

end free

section
variable (h : s.Conserved P)
include h

theorem Conserved.resume (w : Waiter) : (s.resume w).Conserved P := by
  have herase : ({ s with waiters := s.waiters.erase w } : Pages).Conserved P :=
    h.frame rfl rfl rfl rfl rfl rfl rfl rfl rfl
  unfold Pages.resume
  dsimp only
  split
  · next hwait =>
    -- only a frame that is to be cleaned is waited for again
    have hset : (s.setCore w.frame { s.coreMap w.frame with segPageoutWait := true }).Conserved P := by
      refine h.setCore rfl rfl (fun p hp => ?_) (fun hn hf => ?_)
        (h.counted.congr rfl rfl rfl rfl rfl rfl rfl rfl) rfl
      · have hag := h.agrees p _ hp
        rcases h.waits_place (h.range p _ hp) hwait with hdl | hcl
        · rw [h.apart.one p (.on .dirty) _ hp hdl] at hag ⊢
          exact hag
        · rw [h.apart.one p .cleaned _ hp hcl] at hag ⊢
          exact hag
      · rcases h.waits_place hf hwait with hdl | hcl
        · exact absurd hdl (hn (.on .dirty))
        · exact absurd hcl (hn .cleaned)
    exact hset.frame rfl rfl rfl rfl rfl rfl rfl rfl rfl
  · exact herase.afterFree _

theorem Conserved.dontFree (hd : f ∈ s.lists .dirty ∨ f ∈ s.cleaning) :
    (s.setCore f { s.coreMap f with dontFreeUntilClean := true }).Conserved P := by
  refine h.setCore rfl rfl (fun p hp => ?_) (fun hn _ => ?_) (h.counted.congr rfl rfl rfl rfl rfl rfl rfl rfl) rfl
  · have hag := h.agrees p f hp
    rcases hd with hdl | hcl
    · rw [h.apart.one p (.on .dirty) f hp hdl] at hag ⊢
      exact hag
    · rw [h.apart.one p .cleaned f hp hcl] at hag ⊢
      exact hag
  · rcases hd with hdl | hcl
    · exact absurd hdl (hn (.on .dirty))
    · exact absurd hcl (hn .cleaned)

theorem Conserved.dirty_of_flag (hu : s.UserHeld f) (hd : (s.coreMap f).dirtyPage = true) :
    f ∈ s.lists .dirty ∨ f ∈ s.cleaning := by
  refine hu.resolve_left fun ha => ?_
  have hplain := (h.agrees (.on .alloc) f ha).1.2.1
  rw [hd] at hplain
  nomatch hplain

theorem Conserved.alloc_of_flag (hu : s.UserHeld f) (hd : (s.coreMap f).dirtyPage = false) :
    f ∈ s.lists .alloc := by
  rcases hu with ha | hdl | hcl
  · exact ha
  · exact absurd ((h.agrees (.on .dirty) f hdl).1) (by rw [hd]; decide)
  · exact absurd ((h.agrees .cleaned f hcl).1) (by rw [hd]; decide)

/-- A frame that nobody has, or that a user page is in: given back, waited for, or taken off its list and given back. -/
theorem Conserved.pageFreeInt_cases {m : Pages} (hf : f < P.numPhysPages)
    (hheld : (∀ p, f ∉ s.kept p) ∨ s.UserHeld f) (hm : s.setCore f { s.coreMap f with freePage := true, lockCount := 0 } = m)
    (ht : s.pageFreeInt f none = .ok t) :
    (∀ p, f ∉ m.kept p) ∧ t = m.putOnFreeList f ∨
    s.UserHeld f ∧ (((s.coreMap f).beingCleaned || (s.coreMap f).dontFreeUntilClean) = true ∧
        t = { m.setCore f { m.coreMap f with segPageoutWait := true } with
          waiters := m.waiters ++ [⟨f, (m.coreMap f).virtPage.segPtr, false, none, m.given f⟩] } ∨
      ¬ ((s.coreMap f).beingCleaned || (s.coreMap f).dontFreeUntilClean) = true ∧
        ∃ m', (m' = m.takeOffDirtyList f ∨ m' = m.takeOffAllocList f) ∧ Went m m' f none ∧ t = m'.putOnFreeList f) := by
  have hcore : m.coreMap f = { s.coreMap f with freePage := true, lockCount := 0 } := hm ▸ update_self _ _ _
  have hlists : m.lists = s.lists := hm ▸ rfl
  have hkept : m.kept = s.kept := hm ▸ rfl
  have hap : Apart m.kept := hkept ▸ h.apart
  unfold Pages.pageFreeInt at ht
  rw [hm] at ht
  dsimp only at ht
  split at ht
  · next hsys =>
    rw [hcore] at hsys
    split at ht
    · cases ht
    · cases ht
      exact .inl ⟨fun p => hkept ▸ hheld.resolve_right (fun hu => h.userHeld_segPtr hu hsys) p, rfl⟩
  next hsys =>
  rw [hcore] at hsys
  have hu : s.UserHeld f := hheld.resolve_left fun hn => hsys (h.kernel f hn hf).1
  refine .inr ⟨hu, ?_⟩
  split at ht
  · next hwait =>
    cases ht
    exact .inl ⟨by rwa [hcore] at hwait, rfl⟩
  next hwait =>
  rw [hcore] at hwait
  cases ht
  refine .inr ⟨hwait, ?_⟩
  split
  · next hd =>
    rw [hcore] at hd
    rw [Bool.or_eq_true, not_or] at hwait
    have hdl := (h.dirty_of_flag hu hd).resolve_right fun hc => hwait.1 (h.agrees .cleaned f hc).2.1
    have hw := went_listRemove hap (l := .dirty) (hlists ▸ hdl)
    exact ⟨_, .inl rfl, ⟨hw.moved, hw.core, hw.hand⟩, rfl⟩
  · next hd =>
    rw [hcore] at hd
    have hw := went_listRemove hap (l := .alloc) (by rw [hlists]; exact h.alloc_of_flag hu (Bool.eq_false_iff.2 hd))
    exact ⟨_, .inr rfl, ⟨hw.moved, hw.core, hw.hand⟩, rfl⟩

end

theorem mem_putOnDirtyList : f ∈ (s.putOnDirtyList P f).lists .dirty := by
  rw [lists_putOnDirtyList, update_self]
  exact mem_append_right _ mem_cons_self

theorem Conserved.vmPutOnDirtyList (h : s.Conserved P) (hu : s.UserHeld f) : (s.vmPutOnDirtyList P f).Conserved P := by
  unfold Pages.vmPutOnDirtyList
  by_cases hd : (s.coreMap f).dirtyPage = true
  · rw [if_pos hd]
    exact h.dontFree (h.dirty_of_flag hu hd)
  · rw [if_neg hd]
    have ha := h.alloc_of_flag hu (Bool.eq_false_iff.2 hd)
    exact (h.toDirty ha).dontFree (.inl mem_putOnDirtyList)

theorem flushPage_conserved (h : s.Conserved P) {v : VirtPage}
    (hu : (s.pte v).physRes = true → s.UserHeld (s.pte v).pageFrame) :
    ∃ t, s.flushPage P v = .ok t ∧ t.Conserved P := by
  unfold Pages.flushPage
  by_cases hskip : (s.pte v).physRes = false ∨ (s.coreMap (s.pte v).pageFrame).lockCount > 0
  · rw [if_pos hskip]
    exact ⟨s, rfl, h⟩
  rw [if_neg hskip]
  rw [not_or, Bool.not_eq_false] at hskip
  have hu := hu hskip.1
  have hf := h.userHeld_range hu
  by_cases hd : (s.coreMap (s.pte v).pageFrame).dirtyPage = true
  · rw [if_pos hd]
    have hplace := h.dirty_of_flag hu hd
    exact pageFreeInt_conserved (h.dontFree hplace) hf (.inr (.inr hplace)) _
  rw [if_neg hd]
  have ha := h.alloc_of_flag hu (Bool.eq_false_iff.2 hd)
  by_cases hm : ((s.pte v).modified || (s.hard (s.pte v).pageFrame).modified) = true
  · rw [if_pos hm]
    have hmem : (s.pte v).pageFrame ∈ ((s.takeOffAllocList (s.pte v).pageFrame).putOnDirtyList P
        (s.pte v).pageFrame).lists .dirty := mem_putOnDirtyList
    exact pageFreeInt_conserved ((h.toDirty ha).dontFree (.inl hmem)) hf (.inr (.inr (.inl hmem))) _
  · rw [if_neg hm]
    exact pageFreeInt_conserved h hf (.inr hu) _

theorem coreMap_doneCleaning : (s.doneCleaning f).coreMap = update s.coreMap f { s.coreMap f with
    dirtyPage := false, beingCleaned := false, segPageoutWait := false, dontFreeUntilClean := false } := by
  unfold doneCleaning
  split <;> rfl

theorem kept_doneCleaning : (s.doneCleaning f).kept = s.kept := by
  unfold doneCleaning
  split <;> rfl

theorem Went.doneCleaning (hw : Went u s f none) : Went u (s.doneCleaning f) f none :=
  hw.setCore kept_doneCleaning coreMap_doneCleaning (by unfold Pages.doneCleaning; split <;> rfl)

theorem Counted.doneCleaning (hc : ({ s with numDirtyPages := s.numDirtyPages - 1 } : Pages).Counted) :
    (s.doneCleaning f).Counted := by
  unfold Pages.doneCleaning
  split
  · exact hc.congr rfl rfl rfl rfl rfl rfl rfl rfl
  · exact hc.congr rfl rfl rfl rfl rfl rfl rfl rfl

/-- A frame has come back from swap, out of the hands of the process that wrote it; it counts as
    dirty until now. -/
theorem putOnFront_conserved (hu : u.Conserved P) (hw : Went u s f none) (hf : f < P.numPhysPages)
    (hseg : (s.coreMap f).virtPage.segPtr ≠ sysSegPtr)
    (hc : ({ s with numDirtyPages := s.numDirtyPages - 1 } : Pages).Counted)
    (ht : s.putOnFront P f = .ok t) : t.Conserved P := by
  have hout := hw.doneCleaning
  have hdone : (s.doneCleaning f).Counted := hc.doneCleaning
  have hcore : ((s.doneCleaning f).coreMap f) = { s.coreMap f with
      dirtyPage := false, beingCleaned := false, segPageoutWait := false, dontFreeUntilClean := false } := by
    rw [coreMap_doneCleaning, update_self]
  unfold Pages.putOnFront at ht
  dsimp only at ht
  split at ht
  · cases ht
    exact hu.freed hout hf hdone
  · next hfree =>
    split at ht
    · split at ht
      · cases ht
        exact hu.freed (t := (((s.doneCleaning f).pullBits f).clearResident _)) ⟨hout.moved, hout.core, hout.hand⟩ hf
          (hdone.congr rfl rfl rfl rfl rfl rfl rfl rfl)
      · nomatch ht
    · cases ht
      refine hu.went (hout.putOnFront hu.apart) hf ?_
        ((hdone.putOnAllocListFront (f := f)).congr rfl rfl rfl rfl rfl rfl rfl rfl)
      show VmCore.Agrees ((s.doneCleaning f).coreMap f) (.on .alloc)
      rw [hcore] at hfree ⊢
      exact ⟨⟨Bool.eq_false_iff.2 hfree, rfl, rfl, rfl, rfl⟩, hseg⟩

theorem lists_putOnFreeList_dirty : (s.putOnFreeList f).lists .dirty = s.lists .dirty := by
  unfold putOnFreeList
  dsimp only
  split
  · show update s.lists .reserve (s.lists .reserve ++ [f]) .dirty = _
    rw [update_of_ne (by decide)]
  · show update s.lists .free (s.lists .free ++ [f]) .dirty = _
    rw [update_of_ne (by decide)]

theorem lists_pageInvalidateInt (v : VirtPage) : (s.pageInvalidateInt v).lists = s.lists := by
  unfold pageInvalidateInt
  split <;> rfl

theorem starting_freeDead : (s.freeDead f).starting = s.starting := by
  unfold freeDead putOnFreeList pageInvalidateInt
  dsimp only
  split <;> split <;> rfl

theorem Conserved.freeDead (h : s.Conserved P) (hf : f ∈ s.lists .dirty) : (s.freeDead f).Conserved P := by
  have hw := went_listRemove h.apart hf
  have hc := Counted.takeOffDirtyList h.apart h.counted hf
  unfold Pages.freeDead Pages.pageInvalidateInt
  split
  · exact h.freed (t := Pages.setPte _ _ _) ⟨hw.moved, hw.core, hw.hand⟩ (h.range (.on .dirty) f hf)
      (hc.congr rfl rfl rfl rfl rfl rfl rfl rfl)
  · exact h.freed (t := s.takeOffDirtyList f) ⟨hw.moved, hw.core, hw.hand⟩ (h.range (.on .dirty) f hf) hc

/-- The frames of dead segments are freed, up to the first one that is not. -/
theorem nextDirty_rule {I : Pages → Prop}
    (hstep : ∀ s f, I s → f ∈ s.lists .dirty → s.segDead (s.coreMap f).virtPage.segPtr = true → I (s.freeDead f)) :
    ∀ (l : List Nat) (s : Pages), s.lists .dirty = l → I s →
    match nextDirty l s with
    | (t, none) => I t ∧ t.lists .dirty = []
    | (t, some f) => ∃ u : Pages, I u ∧ f ∈ u.lists .dirty ∧ t = u.listRemove f
  | [], s, hl, h => ⟨h, hl⟩
  | f :: rest, s, hl, h => by
    have hf : f ∈ s.lists .dirty := hl ▸ mem_cons_self
    unfold nextDirty
    by_cases hdead : s.segDead (s.coreMap f).virtPage.segPtr = true
    · rw [if_pos hdead]
      have hrest : (s.freeDead f).lists .dirty = rest := by
        unfold Pages.freeDead
        rw [lists_putOnFreeList_dirty, lists_pageInvalidateInt]
        show (s.lists .dirty).erase f = rest
        rw [hl, erase_cons_head]
      exact nextDirty_rule hstep rest _ hrest (hstep s f h hf hdead)
    · rw [if_neg hdead]
      exact ⟨s, h, hf, rfl⟩

theorem startCleaning_eq (u : Pages) (f : Nat) : ∃ pte hard, u.startCleaning f = { u with
    pte, hard, coreMap := update u.coreMap f { u.coreMap f with beingCleaned := true }
    cleaning := u.cleaning ++ [f], starting := u.starting - 1, since := update u.since f false } := by
  unfold startCleaning
  dsimp only
  split <;> exact ⟨_, _, rfl⟩

theorem went_startCleaning (h : Apart u.kept) (hf : f ∈ u.lists .dirty) :
    Went u ((u.listRemove f).startCleaning f) f (some .cleaned) := by
  have hw := went_listRemove h hf
  obtain ⟨pte, hard, heq⟩ := startCleaning_eq (u.listRemove f) f
  rw [heq]
  refine ⟨hw.moved.trans ?_, fun g hg => update_of_ne hg _ _, rfl⟩
  show Moved _ (Pages.kept { u.listRemove f with cleaning := u.cleaning ++ [f] }) f _
  rw [kept_cleaning (u.cleaning ++ [f])]
  exact (hw.moved.apart h).put hw.none_kept (perm_append_singleton f _)

/-- A frame comes off the dirty list and is the process's that writes it. -/
theorem startCleaning_conserved (h : u.Conserved P) (hf : f ∈ u.lists .dirty) (hstart : 0 < u.starting) :
    ((u.listRemove f).startCleaning f).Conserved P := by
  obtain ⟨hd, -, hseg⟩ := h.agrees (.on .dirty) f hf
  have hwent := went_startCleaning h.apart hf
  have hrem := lists_listRemove h.apart hf
  have hpos := length_pos_of_mem hf
  obtain ⟨pte, hard, heq⟩ := startCleaning_eq (u.listRemove f) f
  rw [heq] at hwent ⊢
  refine h.went hwent (h.range (.on .dirty) f hf) ?_ ⟨?_, ?_, ?_, ?_, ?_⟩
  · dsimp only
    rw [update_self]
    exact ⟨hd, rfl, hseg⟩
  · rw [hrem, if_neg (by decide)]
    exact h.counted.free
  · rw [hrem, if_neg (by decide)]
    exact h.counted.reserve
  · rw [hrem, if_neg (by decide)]
    exact h.counted.user
  · show u.numDirtyPages = _ + ((u.cleaning ++ [f]).length : Int)
    rw [hrem, if_pos rfl, length_erase_of_mem hf, length_append, length_singleton, h.counted.dirty]
    omega
  · show u.numPageOutProcs = ((u.starting - 1 : Nat) : Int) + (u.cleaning ++ [f]).length
    rw [length_append, length_singleton, h.counted.procs]
    omega

/-- A process without a frame finds one to write, or leaves. While it is there, a dirty page has one. -/
theorem getDirty_conserved (h : s.Conserved P) (hstart : 0 < s.starting) : ∃ t, s.getDirty = .ok t ∧ t.Conserved P := by
  have hnext := nextDirty_rule (I := fun u => u.Conserved P ∧ u.starting = s.starting)
    (fun u f hu hf _ => ⟨hu.1.freeDead hf, starting_freeDead.trans hu.2⟩) _ s rfl ⟨h, rfl⟩
  unfold getDirty
  split
  · next m f hm =>
    rw [hm] at hnext
    obtain ⟨u, ⟨hu, hs⟩, hf, rfl⟩ := hnext
    exact ⟨_, rfl, startCleaning_conserved hu hf (hs ▸ hstart)⟩
  · next m hm =>
    rw [hm] at hnext
    obtain ⟨⟨hu, hs⟩, hnil⟩ := hnext
    have hprocs := hu.counted.procs
    have hdirty := hu.counted.dirty
    dsimp only
    rw [if_neg]
    · refine ⟨_, rfl, hu.congr rfl rfl ⟨hu.counted.free, hu.counted.reserve, hu.counted.user, hdirty, ?_⟩ rfl⟩
      show m.numPageOutProcs - 1 = ((m.starting - 1 : Nat) : Int) + m.cleaning.length
      omega
    · rw [hnil, length_nil] at hdirty
      omega

theorem callPageOuts_conserved : ∀ (n : Nat) (s : Pages), s.Conserved P → (callPageOuts P n s).Conserved P
  | 0, _, h => h
  | n + 1, s, h => by
    unfold callPageOuts
    split
    · refine callPageOuts_conserved n _ (h.congr rfl rfl ?_ rfl)
      refine ⟨h.counted.free, h.counted.reserve, h.counted.user, h.counted.dirty, ?_⟩
      show s.numPageOutProcs + 1 = ((s.starting + 1 : Nat) : Int) + s.cleaning.length
      rw [h.counted.procs]
      omega
    · exact h

section
variable (h : s.Conserved P)
include h

theorem Conserved.recovery : (s.recovery P).Conserved P :=
  callPageOuts_conserved _ _ (h.frame rfl rfl rfl rfl rfl rfl rfl rfl rfl)

/-- The clock hand passes over every frame that is not on the allocate list. -/
theorem Conserved.clock_alloc (hf : f < P.numPhysPages) (hskip : ¬ ((s.coreMap f).dirtyPage ||
    (s.coreMap f).freePage || decide ((s.coreMap f).lockCount > 0)) = true) : f ∈ s.lists .alloc := by
  simp only [Bool.or_eq_true, decide_eq_true_eq, not_or, Bool.not_eq_true] at hskip
  obtain ⟨⟨hd, hfree⟩, hlock⟩ := hskip
  rcases h.somewhere hf with ⟨p, hp⟩ | ⟨⟨-, -, hl⟩, -⟩
  · have hag := h.agrees p f hp
    match p with
    | .on .alloc => exact hp
    | .on .free => exact absurd hag.1 (by rw [hfree]; decide)
    | .on .reserve => exact absurd hag.2 hlock
    | .on .dirty => exact absurd hag.1 (by rw [hd]; decide)
    | .cleaned => exact absurd hag.1 (by rw [hd]; decide)
    | .inHand =>
      rcases hag.2.2.2 with hfr | hl
      · exact absurd hfr (by rw [hfree]; decide)
      · exact absurd hl hlock
  · exact absurd hl hlock

theorem Conserved.clockPage (hf : f < P.numPhysPages) : (s.clockPage P f).Conserved P := by
  unfold Pages.clockPage
  split
  · exact h
  · next hskip =>
    split
    · exact Conserved.frame (s := s.moveToRear f) (h.moveToRear (h.clock_alloc hf hskip)) rfl rfl rfl rfl rfl rfl rfl rfl rfl
    · exact h

theorem Conserved.clockTick : ({ s with clockHand :=
    if s.clockHand = P.numPhysPages - 1 then P.firstFreePage else s.clockHand + 1 } : Pages).Conserved P where
  apart := h.apart
  range := h.range
  agrees := h.agrees
  kernel := h.kernel
  counted := h.counted.congr rfl rfl rfl rfl rfl rfl rfl rfl
  hand := by
    have hroom := P.room
    have hhand := h.hand
    show (if s.clockHand = P.numPhysPages - 1 then P.firstFreePage else s.clockHand + 1) < P.numPhysPages
    split <;> omega

end

theorem clockLoop_conserved : ∀ (n : Nat) (s : Pages), s.Conserved P → (clockLoop P n s).Conserved P
  | 0, _, h => h
  | n + 1, s, h => by
    exact clockLoop_conserved n _ (h.clockTick.clockPage h.hand)

end Pages

end SpriteKernel.Vm
