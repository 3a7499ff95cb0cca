import SpriteKernel.Vm.PageKeep

/- What the routines of the page module do to the pages: each takes a frame from its page only when
   the page is on swap as it is, is of a dead segment, or has been given up. -/
namespace SpriteKernel.Vm

open Function List
namespace Pages
open Custody
variable {P : PageParams} {s t u : Pages} {f : Nat} {v : VirtPage}

theorem samePlaces_moveToRear (hap : Apart s.kept) (ha : f ∈ s.lists .alloc) (g : Nat) :
    SamePlaces s (s.moveToRear f) g := by
  have hout := went_listRemove hap ha
  have hin := went_insertRear (l := .alloc) (hout.moved.apart hap) hout.none_kept
  have hmove := (hout.trans hin).moved
  by_cases hg : g = f
  · subst hg
    refine SamePlaces.of_kept fun p => (hmove.self p).trans ⟨fun hp => ?_, fun hp => ?_⟩
    · exact Option.some.inj hp ▸ ha
    · exact congrArg some (hap.one (.on .alloc) p g ha hp)
  · exact SamePlaces.of_kept fun p => hmove.other p g hg

theorem Mapped.moveToRear (h : s.Mapped) (hap : Apart s.kept) (ha : f ∈ s.lists .alloc) : (s.moveToRear f).Mapped :=
  h.congr (samePlaces_moveToRear hap ha) (fun _ _ => ⟨rfl, id⟩) (fun _ => ⟨rfl, rfl, id⟩) (fun _ _ => id) rfl rfl rfl

theorem samePlaces_rfl (hk : t.kept = s.kept) (g : Nat) : SamePlaces s t g :=
  SamePlaces.of_kept fun p => by rw [hk]

theorem Mapped.clearRef (h : s.Mapped) (f : Nat) : (s.clearRef P f).Mapped := by
  refine h.congr (samePlaces_rfl rfl) (fun _ _ => ⟨rfl, id⟩) (fun w => ?_) (fun g _ hm => ?_) rfl rfl rfl
  · by_cases hw : w = (s.coreMap f).virtPage
    · subst hw
      rw [show (s.clearRef P f).pte = update s.pte _ _ from rfl, update_self]
      exact ⟨rfl, rfl, fun hm => Bool.or_eq_true_iff.2 (.inl hm)⟩
    · rw [show (s.clearRef P f).pte = update s.pte _ _ from rfl, update_of_ne hw]
      exact ⟨rfl, rfl, id⟩
  · by_cases hg : g = f
    · subst hg
      rw [show (s.clearRef P g).hard = update s.hard _ _ from rfl, update_self]
      exact hm
    · rw [show (s.clearRef P f).hard = update s.hard _ _ from rfl, update_of_ne hg]
      exact hm

theorem went_toDirty (hap : Apart s.kept) (ha : f ∈ s.lists .alloc) :
    Went s ((s.takeOffAllocList f).putOnDirtyList P f) f (some (.on .dirty)) := by
  have hw := went_listRemove hap ha
  have hout : Went s (s.takeOffAllocList f) f none := ⟨hw.moved, hw.core, hw.hand⟩
  exact hout.trans (went_putOnDirtyList (hout.moved.apart hap) hout.none_kept)

theorem Mapped.toDirty (h : s.Mapped) (hap : Apart s.kept) (ha : f ∈ s.lists .alloc) (hd : HardPage) :
    (((s.setHard f hd).takeOffAllocList f).putOnDirtyList P f).Mapped := by
  have hw : Went s (((s.setHard f hd).takeOffAllocList f).putOnDirtyList P f) f (some (.on .dirty)) := by
    have hgo := went_toDirty (P := P) (s := s.setHard f hd) hap ha
    exact ⟨hgo.moved, hgo.core, hgo.hand⟩
  have hcore : (((s.setHard f hd).takeOffAllocList f).putOnDirtyList P f).coreMap f
      = { s.coreMap f with dirtyPage := true } := by
    rw [coreMap_putOnDirtyList, update_self]
    rfl
  obtain ⟨-, -, -, hdead, hpte, hhard, huns, hsince⟩ :=
    frame_putOnDirtyList (P := P) (s := (s.setHard f hd).takeOffAllocList f) f
  refine h.stays hw.samePlaces hw.core (.inl ha) (.inr (.inl ((hw.moved.self (.on .dirty)).2 rfl)))
    (by rw [hcore]) (fun _ _ => by rw [hpte]; rfl) (by rw [hpte]; exact ⟨rfl, rfl⟩) (fun g hg => ?_)
    (fun _ _ => by rw [hsince]; rfl) (fun _ _ => by rw [huns]; rfl) hdead
    (fun hfree _ => .inl (by rw [hcore] at hfree; exact hfree)) (fun hal hun => ?_)
  · rw [hhard]
    exact update_of_ne hg _ _
  · rw [huns] at hun
    refine ⟨(h.known (.inl ha) hal hun).1, fun hin => ?_, fun hin => ?_⟩
    · nomatch (hw.moved.self (.on .alloc)).1 hin
    · nomatch (hw.moved.self .cleaned).1 hin

theorem setHard_self : s.setHard f (s.hard f) = s := by
  unfold setHard
  rw [update_eq_self]

theorem Mapped.dirtied (h : s.Mapped) (hap : Apart s.kept) (ha : f ∈ s.lists .alloc) :
    ((s.takeOffAllocList f).putOnDirtyList P f).Mapped := by
  have ht := h.toDirty (P := P) hap ha (s.hard f)
  rwa [setHard_self] at ht

/-- The frame that the search comes to has a page that is on swap as it is. -/
theorem Mapped.taken (h : s.Mapped) (hap : Apart s.kept) (ha : f ∈ s.lists .alloc)
    (hmod : s.isModified f = false) :
    (((s.allocCheck f).clearResident (s.coreMap f).virtPage).takeOffAllocList f).Mapped := by
  have hw := went_listRemove hap ha
  obtain ⟨hard, hhard, heq⟩ := allocCheck_eq (s := s) f
  rw [heq]
  refine h.left ⟨hw.moved, hw.core, hw.hand⟩ (.inl ha) (fun w hw => update_of_ne hw _ _) hhard (fun _ _ => rfl)
    (fun _ _ => rfl) rfl (fun hal => ⟨?_, ?_⟩)
  · exact congrArg Pte.physRes (update_self _ _ s.pte)
  · refine Bool.eq_false_iff.2 fun hun => ?_
    have hk := (h.known (.inl ha) hal hun).2.1 ha
    unfold isModified ptePtr at hmod
    rw [Bool.or_eq_false_iff] at hmod
    rcases hk with hk | hk
    · rw [hmod.1] at hk
      cases hk
    · rw [hmod.2] at hk
      cases hk

theorem Mapped.putOnFreeList (h : s.Mapped) (hap : Apart s.kept) (hnone : ∀ p, f ∉ s.kept p) :
    (s.putOnFreeList f).Mapped := by
  have hn := not_userHeld hnone
  obtain ⟨l, hl, hw, -⟩ := went_putOnFreeList hap hnone
  obtain ⟨-, -, hdead, hpte, hhard, huns, hsince⟩ := frame_putOnFreeList (s := s) f
  refine h.away hw hn ?_ hpte (fun _ _ => by rw [hhard]) huns hsince hdead
  rintro (ha | hd | hc)
  · have hto := (hw.moved.self (.on .alloc)).1 ha
    rcases hl with rfl | rfl <;> nomatch hto
  · have hto := (hw.moved.self (.on .dirty)).1 hd
    rcases hl with rfl | rfl <;> nomatch hto
  · nomatch (hw.moved.self .cleaned).1 hc

/-- What the search for a frame does besides: it puts frames of the allocate list on the dirty
    list. -/
structure Searched (s t : Pages) : Prop where
  cleaning : t.cleaning = s.cleaning
  waiters : t.waiters = s.waiters
  given : t.given = s.given
  segDead : t.segDead = s.segDead
  dirty : ∀ g, g ∈ s.lists .dirty → g ∈ t.lists .dirty
  core : ∀ g, t.coreMap g = s.coreMap g ∨ t.coreMap g = { s.coreMap g with dirtyPage := true }
  held : ∀ g, t.UserHeld g → s.UserHeld g

theorem Searched.virtPage (h : Searched s t) (g : Nat) : (t.coreMap g).virtPage = (s.coreMap g).virtPage := by
  rcases h.core g with hc | hc <;> rw [hc]

theorem Searched.refl (s : Pages) : Searched s s :=
  ⟨rfl, rfl, rfl, rfl, fun _ => id, fun _ => .inl rfl, fun _ => id⟩

theorem Searched.trans (h₁ : Searched s t) (h₂ : Searched t u) : Searched s u where
  cleaning := h₂.cleaning.trans h₁.cleaning
  waiters := h₂.waiters.trans h₁.waiters
  given := h₂.given.trans h₁.given
  segDead := h₂.segDead.trans h₁.segDead
  dirty g hg := h₂.dirty g (h₁.dirty g hg)
  core g := by
    rcases h₂.core g with h2 | h2 <;> rcases h₁.core g with h1 | h1
    · exact .inl (h2.trans h1)
    · exact .inr (h2.trans h1)
    · exact .inr (by rw [h2, h1])
    · exact .inr (by rw [h2, h1])
  held g hg := h₁.held g (h₂.held g hg)

theorem searched_moveToRear (hap : Apart s.kept) (ha : f ∈ s.lists .alloc) : Searched s (s.moveToRear f) where
  cleaning := rfl
  waiters := rfl
  given := rfl
  segDead := rfl
  dirty g hg := (samePlaces_moveToRear hap ha g).dirty.2 hg
  core _ := .inl rfl
  held g hg := (samePlaces_moveToRear hap ha g).userHeld.1 hg

theorem searched_toDirty (hap : Apart s.kept) (ha : f ∈ s.lists .alloc) :
    Searched s ((s.takeOffAllocList f).putOnDirtyList P f) := by
  have hw := went_toDirty (P := P) hap ha
  obtain ⟨hcl, hwt, hgv, hdead, -⟩ := frame_putOnDirtyList (P := P) (s := s.takeOffAllocList f) f
  refine ⟨hcl, hwt, hgv, hdead, fun g hg => ?_, fun g => ?_, fun g hg => ?_⟩
  · by_cases hgf : g = f
    · subst hgf
      exact mem_putOnDirtyList
    · exact (hw.samePlaces g hgf).dirty.2 hg
  · by_cases hgf : g = f
    · subst hgf
      rw [coreMap_putOnDirtyList, update_self]
      exact .inr rfl
    · exact .inl (hw.core g hgf)
  · by_cases hgf : g = f
    · subst hgf
      exact .inl ha
    · exact (hw.samePlaces g hgf).userHeld.1 hg

theorem searched_left (hw : Went s t f none) (hcore : t.coreMap = s.coreMap) (hnd : f ∉ s.lists .dirty)
    (hcl : t.cleaning = s.cleaning) (hwt : t.waiters = s.waiters) (hgv : t.given = s.given)
    (hdead : t.segDead = s.segDead) : Searched s t where
  cleaning := hcl
  waiters := hwt
  given := hgv
  segDead := hdead
  dirty g hg := (hw.samePlaces g (fun hgf => hnd (hgf ▸ hg))).dirty.2 hg
  core g := .inl (by rw [hcore])
  held g hg := (hw.samePlaces g (fun hgf => hw.not_userHeld (hgf ▸ hg))).userHeld.1 hg

theorem searched_allocCheck : Searched s (s.allocCheck f) := by
  unfold allocCheck
  split
  · exact .refl s
  · exact ⟨rfl, rfl, rfl, rfl, fun _ => id, fun _ => .inl rfl, fun _ => id⟩

theorem searched_clearRef : Searched s (s.clearRef P f) :=
  ⟨rfl, rfl, rfl, rfl, fun _ => id, fun _ => .inl rfl, fun _ => id⟩

/-- The search loses no page, whatever it does with the frames it passes. -/
theorem search_mapped (mayWait : Bool) (behind : Nat) (s : Pages) (h : s.Conserved P) (hm : s.Mapped) :
    (search P mayWait behind s).1.Mapped ∧ Searched s (search P mayWait behind s).1 := by
  fun_induction search P mayWait behind s with
  | case1 => exact ⟨hm, .refl _⟩
  | case2 => exact ⟨hm, .refl _⟩
  | case3 behind s f rest hl _ _ ih =>
    have ha : f ∈ s.lists .alloc := hl ▸ mem_cons_self
    obtain ⟨hi, hs⟩ := ih (h.moveToRear ha) (hm.moveToRear h.apart ha)
    exact ⟨hi, (searched_moveToRear h.apart ha).trans hs⟩
  | case4 behind s f rest hl _ _ _ ih =>
    have ha : f ∈ s.lists .alloc := hl ▸ mem_cons_self
    have hclear : (s.clearRef P f).Conserved P := h.frame rfl rfl rfl rfl rfl rfl rfl rfl rfl
    obtain ⟨hi, hs⟩ := ih (hclear.moveToRear ha) ((hm.clearRef f).moveToRear hclear.apart ha)
    exact ⟨hi, (searched_clearRef.trans (searched_moveToRear hclear.apart ha)).trans hs⟩
  | case5 behind s f rest hl _ _ hr _ ih =>
    have ha : f ∈ s.lists .alloc := hl ▸ mem_cons_self
    have hcheck := h.allocCheck f
    have hac : f ∈ (s.allocCheck f).lists .alloc := by rw [lists_allocCheck]; exact ha
    have hmap : (((s.allocCheck f).takeOffAllocList f).putOnDirtyList P f).Mapped := by
      unfold Pages.allocCheck
      rw [if_neg hr]
      exact hm.toDirty h.apart ha _
    obtain ⟨hi, hs⟩ := ih (hcheck.toDirty hac) hmap
    exact ⟨hi, (searched_allocCheck.trans (searched_toDirty hcheck.apart hac)).trans hs⟩
  | case6 behind s f rest hl _ _ hr hmod =>
    have ha : f ∈ s.lists .alloc := hl ▸ mem_cons_self
    refine ⟨hm.taken h.apart ha (Bool.eq_false_iff.2 hmod), ?_⟩
    have hnd : f ∉ s.lists .dirty := fun hd => by cases h.apart.one (.on .alloc) (.on .dirty) f ha hd
    have hw := went_listRemove h.apart ha
    obtain ⟨hard, -, heq⟩ := allocCheck_eq (s := s) f
    rw [heq]
    exact searched_left (f := f) ⟨hw.moved, hw.core, hw.hand⟩ rfl hnd rfl rfl rfl rfl

/-- A page of a live segment that has no frame may be allocated one. -/
def Wanted (s : Pages) (v : VirtPage) : Prop :=
  v.segPtr ≠ sysSegPtr → s.Alive v ∧ ∀ g, s.UserHeld g → (s.coreMap g).virtPage ≠ v

theorem Wanted.searched (h : s.Wanted v) (hs : Searched s t) : t.Wanted v :=
  fun hv => ⟨⟨hv, hs.segDead ▸ (h hv).1.2⟩, fun g hg => by rw [hs.virtPage]; exact (h hv).2 g (hs.held g hg)⟩

theorem mapped_takeOffFreeList (h : s.Conserved P) (hm : s.Mapped) (hf : f ∈ s.lists .free) :
    (s.takeOffFreeList f).Mapped ∧ Searched s (s.takeOffFreeList f) := by
  have hw := went_takeOffFreeList h hf
  have hn : ¬ s.UserHeld f := by
    rintro (ha | hd | hc)
    · nomatch h.apart.one (.on .free) (.on .alloc) f hf ha
    · nomatch h.apart.one (.on .free) (.on .dirty) f hf hd
    · nomatch h.apart.one (.on .free) .cleaned f hf hc
  exact ⟨hm.away hw hn hw.not_userHeld rfl (fun _ _ => rfl) rfl rfl rfl,
    searched_left hw rfl (fun hd => hn (.inr (.inl hd))) rfl rfl rfl rfl⟩

theorem Mapped.pageAllocateInt (hm : s.Mapped) (h : s.Conserved P) (hv : s.Wanted v) (mayWait : Bool) :
    (s.pageAllocateInt P v mayWait).1.Mapped := by
  unfold Pages.pageAllocateInt
  split
  · next f rest hl =>
    have hf : f ∈ s.lists .free := hl ▸ mem_cons_self
    have hw := went_takeOffFreeList h hf
    obtain ⟨hm', hs⟩ := mapped_takeOffFreeList h hm hf
    exact hm'.hand (hw.moved.apart h.apart) hw.none_kept (hv.searched hs)
  · obtain ⟨hmap, hs⟩ := search_mapped mayWait 0 s h hm
    have hsearch := search_conserved mayWait 0 s h
    split
    · next hr => rw [hr] at hmap; exact hmap
    · next t f hr =>
      rw [hr] at hmap hs hsearch
      obtain ⟨u, hu, -, hw, -⟩ := hsearch
      exact hmap.hand (hw.moved.apart hu.apart) hw.none_kept (hv.searched hs)

end Pages

end SpriteKernel.Vm
