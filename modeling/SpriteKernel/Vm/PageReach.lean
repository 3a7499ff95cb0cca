import SpriteKernel.Vm.PageConserve

/- Every step of the page module leaves each frame in one place, with its flags and counters. A routine is followed
   from where it begins: the frame it handles is out of its place, comes to another, and the rest is as it was. -/
namespace SpriteKernel.Vm
open Function (update update_of_ne update_self)

open List
namespace Pages
open Custody
variable {P : PageParams} {s t u : Pages} {f : Nat}

theorem Counted.congr (h : s.Counted) (hl : t.lists = s.lists) (hcl : t.cleaning = s.cleaning)
    (h1 : t.numFreePages = s.numFreePages) (h2 : t.numReservePages = s.numReservePages)
    (h3 : t.numUserPages = s.numUserPages) (h4 : t.numDirtyPages = s.numDirtyPages)
    (h5 : t.numPageOutProcs = s.numPageOutProcs) (h6 : t.starting = s.starting) : t.Counted :=
  ⟨by rw [h1, hl]; exact h.free, by rw [h2, hl]; exact h.reserve, by rw [h3, hl]; exact h.user,
   by rw [h4, hl, hcl]; exact h.dirty, by rw [h5, h6, hcl]; exact h.procs⟩

section
variable (h : s.Conserved P)
include h

theorem Conserved.somewhere (hf : f < P.numPhysPages) :
    (∃ p, f ∈ s.kept p) ∨ (s.coreMap f).KernelHeld ∧ ∀ p, f ∉ s.kept p := by
  by_cases hp : ∃ p, f ∈ s.kept p
  · exact .inl hp
  · have hn : ∀ p, f ∉ s.kept p := fun p hfp => hp ⟨p, hfp⟩
    exact .inr ⟨h.kernel f hn hf, hn⟩

theorem Conserved.userHeld_segPtr (hu : s.UserHeld f) : (s.coreMap f).virtPage.segPtr ≠ sysSegPtr := by
  rcases hu with ha | hd | hc
  · exact (h.agrees (.on .alloc) f ha).2
  · exact (h.agrees (.on .dirty) f hd).2.2
  · exact (h.agrees .cleaned f hc).2.2

theorem Conserved.userHeld_range (hu : s.UserHeld f) : f < P.numPhysPages := by
  rcases hu with ha | hd | hc
  · exact h.range (.on .alloc) f ha
  · exact h.range (.on .dirty) f hd
  · exact h.range .cleaned f hc

theorem Conserved.waits_place (hf : f < P.numPhysPages)
    (hw : ((s.coreMap f).beingCleaned || (s.coreMap f).dontFreeUntilClean) = true) :
    f ∈ s.lists .dirty ∨ f ∈ s.cleaning := by
  rcases h.somewhere hf with ⟨p, hp⟩ | ⟨⟨-, hk, -⟩, -⟩
  · have hag := h.agrees p f hp
    match p with
    | .on .free =>
      obtain ⟨-, -, -, hb, hd, -⟩ := hag
      rw [hb, hd] at hw
      simp at hw
    | .on .reserve =>
      obtain ⟨⟨-, -, -, hb, hd⟩, -⟩ := hag
      rw [hb, hd] at hw
      simp at hw
    | .on .alloc =>
      obtain ⟨⟨-, -, -, hb, hd⟩, -⟩ := hag
      rw [hb, hd] at hw
      simp at hw
    | .inHand =>
      obtain ⟨-, hb, hd, -⟩ := hag
      rw [hb, hd] at hw
      simp at hw
    | .on .dirty => exact .inl hp
    | .cleaned => exact .inr hp
  · obtain ⟨-, -, -, hb, hd⟩ := hk
    rw [hb, hd] at hw
    simp at hw

/-- The core map entry changes of a frame whose page leaves its segment and the flags for where it is. -/
theorem Conserved.recore (hu : s.UserHeld f) {c : VmCore} (hk : t.kept = s.kept)
    (hcore : t.coreMap = update s.coreMap f c)
    (hag : ∀ p, p = .on .alloc ∨ p = .on .dirty ∨ p = .cleaned → (s.coreMap f).Agrees p → c.Agrees p)
    (hc : t.Counted) (hh : t.clockHand = s.clockHand) : t.Conserved P := by
  have hplace : ∀ p, f ∈ s.kept p → p = .on .alloc ∨ p = .on .dirty ∨ p = .cleaned := by
    intro p hp
    rcases hu with ha | hd | hcl
    · exact .inl (h.apart.one p (.on .alloc) f hp ha)
    · exact .inr (.inl (h.apart.one p (.on .dirty) f hp hd))
    · exact .inr (.inr (h.apart.one p .cleaned f hp hcl))
  refine h.setCore hk hcore (fun p hp => hag p (hplace p hp) (h.agrees p f hp)) (fun hn _ => ?_) hc hh
  rcases hu with ha | hd | hcl
  · exact absurd ha (hn (.on .alloc))
  · exact absurd hd (hn (.on .dirty))
  · exact absurd hcl (hn .cleaned)

theorem Conserved.moveToRear (ha : f ∈ s.lists .alloc) : (s.moveToRear f).Conserved P := by
  have hout := went_listRemove h.apart ha
  have hin := went_insertRear (l := .alloc) (hout.moved.apart h.apart) hout.none_kept
  refine h.went (hout.trans hin) (h.range (.on .alloc) f ha) (h.agrees (.on .alloc) f ha) ?_
  have hlen : ∀ l, ((s.moveToRear f).lists l).length = (s.lists l).length := by
    intro l
    have hrem := lists_listRemove h.apart ha
    by_cases hl : l = .alloc
    · subst hl
      have hpos := length_pos_of_mem ha
      simp only [Pages.moveToRear, insertRear, update_self, length_append,
        length_singleton]
      rw [hrem, if_pos rfl, length_erase_of_mem ha]
      omega
    · simp only [Pages.moveToRear, insertRear, update_of_ne hl]
      rw [hrem, if_neg hl]
  exact
    { free := by rw [hlen]; exact h.counted.free
      reserve := by rw [hlen]; exact h.counted.reserve
      user := by rw [hlen]; exact h.counted.user
      dirty := by rw [hlen]; exact h.counted.dirty
      procs := h.counted.procs }

theorem Conserved.toDirty (ha : f ∈ s.lists .alloc) : ((s.takeOffAllocList f).putOnDirtyList P f).Conserved P := by
  have hag := h.agrees (.on .alloc) f ha
  have hout : Went s (s.takeOffAllocList f) f none := by
    have hw := went_listRemove h.apart ha
    exact ⟨hw.moved, hw.core, hw.hand⟩
  exact h.dirtied hout (h.range (.on .alloc) f ha) hag.2 hag.1.2.2.2.1
    (Counted.takeOffAllocList h.apart h.counted ha)

end

theorem Conserved.frame (h : s.Conserved P) (hk : t.kept = s.kept) (hcore : t.coreMap = s.coreMap)
    (h1 : t.numFreePages = s.numFreePages) (h2 : t.numReservePages = s.numReservePages)
    (h3 : t.numUserPages = s.numUserPages) (h4 : t.numDirtyPages = s.numDirtyPages)
    (h5 : t.numPageOutProcs = s.numPageOutProcs) (h6 : t.starting = s.starting)
    (hh : t.clockHand = s.clockHand) : t.Conserved P :=
  h.congr hk hcore
    (h.counted.congr (funext fun l => congrFun hk (.on l)) (congrFun hk .cleaned) h1 h2 h3 h4 h5 h6) hh

theorem Conserved.allocCheck (h : s.Conserved P) (f : Nat) : (s.allocCheck f).Conserved P := by
  unfold Pages.allocCheck
  split
  · exact h
  · exact h.frame rfl rfl rfl rfl rfl rfl rfl rfl rfl

/-- The search leaves everything in its place but the frame that it comes to. -/
theorem search_conserved (mayWait : Bool) (behind : Nat) (s : Pages) (h : s.Conserved P) :
    match search P mayWait behind s with
    | (t, none) => t.Conserved P
    | (t, some f) => ∃ u, u.Conserved P ∧ f ∈ u.lists .alloc ∧ Went u t f none ∧ t.Counted := by
  fun_induction search P mayWait behind s with
  | case1 => exact h
  | case2 => exact h
  | case3 behind s f rest hl _ _ ih => exact ih (h.moveToRear (hl ▸ mem_cons_self))
  | case4 behind s f rest hl _ _ _ ih =>
    have hclear : (s.clearRef P f).Conserved P := h.frame rfl rfl rfl rfl rfl rfl rfl rfl rfl
    exact ih (hclear.moveToRear (show f ∈ s.lists .alloc from hl ▸ mem_cons_self))
  | case5 behind s f rest hl _ _ _ _ ih =>
    refine ih ((h.allocCheck f).toDirty ?_)
    rw [lists_allocCheck, hl]
    exact mem_cons_self
  | case6 behind s f rest hl _ _ _ _ =>
    have hu := h.allocCheck f
    have hf : f ∈ (s.allocCheck f).lists .alloc := by
      rw [lists_allocCheck, hl]
      exact mem_cons_self
    have hclear : ((s.allocCheck f).clearResident (s.coreMap f).virtPage).Conserved P :=
      hu.frame rfl rfl rfl rfl rfl rfl rfl rfl rfl
    have hw := went_listRemove hclear.apart (l := .alloc) hf
    exact ⟨_, hclear, hf, ⟨hw.moved, hw.core, hw.hand⟩,
      Counted.takeOffAllocList hclear.apart hclear.counted hf⟩

theorem Conserved.hand_to (h : s.Conserved P) (hw : Went s t f none) (hf : f < P.numPhysPages)
    (hc : t.Counted) (v : VirtPage) : (t.hand f v).Conserved P := by
  unfold Pages.hand
  split
  · next hsys =>
    have hcore : (t.initCore f v).coreMap
        = update t.coreMap f { (t.coreMap f).noFlags with virtPage := v, lockCount := 1 } := rfl
    refine h.went (hw.setCore rfl hcore rfl) hf ?_ (hc.congr rfl rfl rfl rfl rfl rfl rfl rfl)
    rw [hcore, update_self]
    exact ⟨hsys, ⟨rfl, rfl, rfl, rfl, rfl⟩, Int.one_pos⟩
  · next hsys =>
    have hput : Went t (t.putOnAllocListRear f) f (some (.on .alloc)) := by
      have hi := went_insertRear (l := .alloc) (hw.moved.apart h.apart) hw.none_kept
      exact ⟨hi.moved, hi.core, hi.hand⟩
    have hcore : ((t.putOnAllocListRear f).initCore f v).coreMap
        = update t.coreMap f { (t.coreMap f).noFlags with virtPage := v, lockCount := 1 } := rfl
    refine h.went ((hw.trans hput).setCore rfl hcore rfl) hf ?_
      (hc.putOnAllocListRear.congr rfl rfl rfl rfl rfl rfl rfl rfl)
    rw [hcore, update_self]
    exact ⟨⟨rfl, rfl, rfl, rfl, rfl⟩, hsys⟩

theorem went_takeOffFreeList (h : s.Conserved P) (hf : f ∈ s.lists .free) : Went s (s.takeOffFreeList f) f none := by
  have hw := went_listRemove h.apart hf
  exact ⟨hw.moved, hw.core, hw.hand⟩

theorem Conserved.pageAllocateInt (h : s.Conserved P) (v : VirtPage) (mayWait : Bool) :
    (s.pageAllocateInt P v mayWait).1.Conserved P := by
  unfold Pages.pageAllocateInt
  split
  · next f rest hl =>
    have hf : f ∈ s.lists .free := hl ▸ mem_cons_self
    exact h.hand_to (went_takeOffFreeList h hf) (h.range (.on .free) f hf)
      (Counted.takeOffFreeList h.apart h.counted hf) v
  · have hsearch := search_conserved mayWait 0 s h
    split
    · next hr => rw [hr] at hsearch; exact hsearch
    · next f hr =>
      rw [hr] at hsearch
      obtain ⟨u, hu, hf, hw, hc⟩ := hsearch
      exact hu.hand_to hw (hu.range (.on .alloc) f hf) hc v

theorem kept_inHand (l : List Nat) : ({ s with inHand := l } : Pages).kept = update s.kept .inHand l := by
  funext p
  cases p <;> rfl

theorem kept_cleaning (l : List Nat) : ({ s with cleaning := l } : Pages).kept = update s.kept .cleaned l := by
  funext p
  cases p <;> rfl

section
variable (h : s.Conserved P)
include h

theorem Conserved.getRefTime : s.getRefTime.Conserved P := by
  unfold Pages.getRefTime
  split
  · next f rest hl =>
    have hf : f ∈ s.lists .free := hl ▸ mem_cons_self
    have hout := went_takeOffFreeList h hf
    have hc := Counted.takeOffFreeList h.apart h.counted hf
    obtain ⟨hfree, hd, -, hb, hdf, -⟩ := h.agrees (.on .free) f hf
    refine h.went (d := some .inHand) ⟨hout.moved.trans ?_, hout.core, rfl⟩ (h.range (.on .free) f hf)
      ⟨hd, hb, hdf, .inl hfree⟩ ⟨hc.free, hc.reserve, hc.user, hc.dirty, hc.procs⟩
    rw [show Pages.kept _ = _ from kept_inHand (s := s.takeOffFreeList f) (s.inHand ++ [f])]
    exact (hout.moved.apart h.apart).put hout.none_kept (perm_append_singleton f _)
  · exact h

theorem Conserved.pageFromFS (hf : f < P.numPhysPages) (hn : ∀ p, f ∉ s.kept p) :
    ({ s with inHand := s.inHand ++ [f] } : Pages).Conserved P := by
  obtain ⟨-, ⟨-, hd, -, hb, hdf⟩, hlock⟩ := h.kernel f hn hf
  refine h.went (d := some .inHand) ⟨?_, fun _ _ => rfl, rfl⟩ hf ⟨hd, hb, hdf, .inr hlock⟩
    (h.counted.congr rfl rfl rfl rfl rfl rfl rfl rfl)
  rw [kept_inHand (s.inHand ++ [f])]
  exact h.apart.put hn (perm_append_singleton f _)

theorem went_fromHand (hf : f ∈ s.inHand) :
    Went s { s with inHand := s.inHand.erase f } f none where
  moved := by
    refine h.apart.take (i := .inHand) hf (fun j => ?_) rfl
    cases j with
    | inHand => exact .inr rfl
    | on l => exact .inl rfl
    | cleaned => exact .inl rfl
  core _ _ := rfl
  hand := rfl

theorem Conserved.putOnAllocList (hf : f ∈ s.inHand) (v : VirtPage) : (s.putOnAllocList v f).Conserved P :=
  h.hand_to (went_fromHand h hf) (h.range .inHand f hf) (h.counted.congr rfl rfl rfl rfl rfl rfl rfl rfl) v

theorem Conserved.getReservePage {v : VirtPage} (hv : v.segPtr = sysSegPtr) : (s.getReservePage v).Conserved P := by
  unfold Pages.getReservePage
  split
  · next f rest hl =>
    have hf : f ∈ s.lists .reserve := hl ▸ mem_cons_self
    have hout := went_listRemove h.apart hf
    have hrem := lists_listRemove h.apart hf
    obtain ⟨hplain, hlock⟩ := h.agrees (.on .reserve) f hf
    refine h.went (d := none) (hout.setCore (c := { s.coreMap f with virtPage := v }) rfl rfl rfl)
      (h.range (.on .reserve) f hf) ?_ ?_
    · show VmCore.KernelHeld (update s.coreMap f { s.coreMap f with virtPage := v } f)
      rw [update_self]
      exact ⟨hv, hplain, hlock⟩
    · refine ⟨?_, ?_, ?_, ?_, h.counted.procs⟩
      · show s.numFreePages = ((s.listRemove f).lists .free).length
        rw [hrem, if_neg (by decide), h.counted.free]
      · show s.numReservePages - 1 = ((s.listRemove f).lists .reserve).length
        have hpos := length_pos_of_mem hf
        rw [hrem, if_pos rfl, length_erase_of_mem hf, h.counted.reserve]
        omega
      · show s.numUserPages = ((s.listRemove f).lists .alloc).length
        rw [hrem, if_neg (by decide), h.counted.user]
      · show s.numDirtyPages = ((s.listRemove f).lists .dirty).length + s.cleaning.length
        rw [hrem, if_neg (by decide), h.counted.dirty]
  · exact h

theorem Conserved.reservePage (hf : f < P.numPhysPages → f ∈ s.lists .free) : (s.reservePage P f).Conserved P := by
  unfold Pages.reservePage
  split
  · next hlt =>
    have hout := went_takeOffFreeList h (hf hlt)
    have hc := Counted.takeOffFreeList h.apart h.counted (hf hlt)
    refine h.went (d := none) (hout.setCore (c := { (s.coreMap f).noFlags with
      virtPage := ⟨sysSegPtr, (s.coreMap f).virtPage.page⟩, lockCount := 1 }) rfl rfl rfl) hlt ?_
      (hc.congr rfl rfl rfl rfl rfl rfl rfl rfl)
    show VmCore.KernelHeld (update s.coreMap f { (s.coreMap f).noFlags with
      virtPage := ⟨sysSegPtr, (s.coreMap f).virtPage.page⟩, lockCount := 1 } f)
    rw [update_self]
    exact ⟨rfl, ⟨rfl, rfl, rfl, rfl, rfl⟩, Int.one_pos⟩
  · exact h

theorem Conserved.pageInvalidateInt (v : VirtPage) : (s.pageInvalidateInt v).Conserved P := by
  unfold Pages.pageInvalidateInt
  split
  · exact h.frame rfl rfl rfl rfl rfl rfl rfl rfl rfl
  · exact h

theorem Conserved.afterFree : ∀ fl, (s.afterFree fl).Conserved P
  | some v => h.pageInvalidateInt v
  | none => h

end

end Pages

end SpriteKernel.Vm
