import SpriteKernel.Vm.PageSystem

/- No page is lost: how page tables and the frames of user pages go together, and where modifications not yet written
   to swap can be seen. A step changes one frame and one page; `Mapped.change` says what is left to show of these. -/
namespace SpriteKernel.Vm
namespace Pages
open Custody
variable {P : PageParams} {s t u : Pages} {f : Nat} {v : VirtPage} {d : Option Place}

/-- The page is one of a user segment that has not been deleted. -/
def Alive (s : Pages) (v : VirtPage) : Prop := v.segPtr ≠ sysSegPtr ∧ s.segDead v.segPtr = false

/-- Who may take a frame can see that its page was modified: on the allocate list and, if in the write, after it. -/
def Known (s : Pages) (f : Nat) (v : VirtPage) : Prop :=
  (f ∈ s.lists .alloc → (s.pte v).modified = true ∨ (s.hard f).modified = true) ∧
    (f ∈ s.cleaning → s.since f = true → (s.hard f).modified = true)

structure Mapped (s : Pages) : Prop where
  /-- No two frames are for one page. -/
  unique : ∀ f g, s.UserHeld f → s.UserHeld g → (s.coreMap f).virtPage = (s.coreMap g).virtPage → f = g
  /-- The entry of a page that is resident names the frame that is for the page. -/
  names : ∀ f, s.UserHeld f → (s.pte (s.coreMap f).virtPage).physRes = true →
    (s.pte (s.coreMap f).virtPage).pageFrame = f
  /-- A page that is resident has a frame. -/
  resident : ∀ v, s.Alive v → (s.pte v).physRes = true →
    s.UserHeld (s.pte v).pageFrame ∧ (s.coreMap (s.pte v).pageFrame).virtPage = v
  /-- A frame that is to be freed has been given up by its page. -/
  givenUp : ∀ f, s.UserHeld f → (s.coreMap f).freePage = true → s.Alive (s.coreMap f).virtPage →
    (s.pte (s.coreMap f).virtPage).physRes = false
  saved : ∀ v, s.Alive v → s.unsaved v = true → (s.pte v).physRes = true ∧ s.Known (s.pte v).pageFrame v

structure SamePlaces (s t : Pages) (f : Nat) : Prop where
  alloc : f ∈ t.lists .alloc ↔ f ∈ s.lists .alloc
  dirty : f ∈ t.lists .dirty ↔ f ∈ s.lists .dirty
  cleaned : f ∈ t.cleaning ↔ f ∈ s.cleaning

theorem SamePlaces.userHeld (h : SamePlaces s t f) : t.UserHeld f ↔ s.UserHeld f :=
  or_congr h.alloc (or_congr h.dirty h.cleaned)

theorem SamePlaces.of_kept (h : ∀ p, f ∈ t.kept p ↔ f ∈ s.kept p) : SamePlaces s t f :=
  ⟨h (.on .alloc), h (.on .dirty), h .cleaned⟩

theorem Mapped.congr (h : s.Mapped) (hplace : ∀ f, SamePlaces s t f)
    (hcore : ∀ f, s.UserHeld f → (t.coreMap f).virtPage = (s.coreMap f).virtPage ∧
      ((t.coreMap f).freePage = true → (s.coreMap f).freePage = true))
    (hpte : ∀ v, (t.pte v).physRes = (s.pte v).physRes ∧ (t.pte v).pageFrame = (s.pte v).pageFrame ∧
      ((s.pte v).modified = true → (t.pte v).modified = true))
    (hhard : ∀ f, s.UserHeld f → (s.hard f).modified = true → (t.hard f).modified = true)
    (huns : t.unsaved = s.unsaved) (hsince : t.since = s.since) (hdead : t.segDead = s.segDead) : t.Mapped := by
  have hheld : ∀ f, t.UserHeld f ↔ s.UserHeld f := fun f => (hplace f).userHeld
  have halive : ∀ v, t.Alive v ↔ s.Alive v := fun v => by unfold Alive; rw [hdead]
  constructor
  · intro f g hf hg hfg
    have hf := (hheld f).1 hf
    have hg := (hheld g).1 hg
    rw [(hcore f hf).1, (hcore g hg).1] at hfg
    exact h.unique f g hf hg hfg
  · intro f hf hr
    have hf := (hheld f).1 hf
    rw [(hcore f hf).1] at hr ⊢
    rw [(hpte _).1] at hr
    rw [(hpte _).2.1]
    exact h.names f hf hr
  · intro v hv hres
    obtain ⟨hr, hpf, -⟩ := hpte v
    rw [hr] at hres
    rw [hpf]
    obtain ⟨hu, hvirt⟩ := h.resident v ((halive v).1 hv) hres
    exact ⟨(hheld _).2 hu, by rw [(hcore _ hu).1]; exact hvirt⟩
  · intro f hf hfree hv
    have hf := (hheld f).1 hf
    obtain ⟨hvirt, hback⟩ := hcore f hf
    rw [hvirt] at hv ⊢
    rw [(hpte _).1]
    exact h.givenUp f hf (hback hfree) ((halive _).1 hv)
  · intro v hv hun
    obtain ⟨hr, hpf, hmod⟩ := hpte v
    rw [huns] at hun
    have hv := (halive v).1 hv
    obtain ⟨hres, hka, hkc⟩ := h.saved v hv hun
    have hu := (h.resident v hv hres).1
    rw [hr, hpf]
    refine ⟨hres, fun ha => ?_, fun hc hsi => ?_⟩
    · exact (hka ((hplace _).alloc.1 ha)).imp hmod (hhard _ hu)
    · rw [hsince] at hsi
      exact hhard _ hu (hkc ((hplace _).cleaned.1 hc) hsi)

/-- A step that changes one frame and its page's entry: what is left to show is what is said of these. -/
theorem Mapped.change (h : s.Mapped) (f : Nat) (v : VirtPage) (hplace : ∀ g, g ≠ f → SamePlaces s t g)
    (hcore : ∀ g, g ≠ f → t.coreMap g = s.coreMap g) (hhard : ∀ g, g ≠ f → t.hard g = s.hard g)
    (hsince : ∀ g, g ≠ f → t.since g = s.since g) (hpte : ∀ w, w ≠ v → t.pte w = s.pte w)
    (huns : ∀ w, w ≠ v → t.unsaved w = s.unsaved w) (hdead : t.segDead = s.segDead)
    (hold : s.UserHeld f ∧ (s.coreMap f).virtPage = v ∨
      ¬ s.UserHeld f ∧ ∀ g, s.UserHeld g → (s.coreMap g).virtPage ≠ v)
    (hnew : t.UserHeld f → (t.coreMap f).virtPage = v)
    (hres : (t.pte v).physRes = true → (t.UserHeld f → (t.pte v).pageFrame = f) ∧ (t.Alive v → t.UserHeld f))
    (hgiven : t.UserHeld f → (t.coreMap f).freePage = true → t.Alive v → (t.pte v).physRes = false)
    (hsaved : t.Alive v → t.unsaved v = true → (t.pte v).physRes = true ∧ t.Known f v) : t.Mapped := by
  have halive : ∀ w, t.Alive w ↔ s.Alive w := fun w => by unfold Alive; rw [hdead]
  have hheld : ∀ g, g ≠ f → (t.UserHeld g ↔ s.UserHeld g) := fun g hg => (hplace g hg).userHeld
  -- no other frame is for the page
  have hother : ∀ g, g ≠ f → s.UserHeld g → (s.coreMap g).virtPage ≠ v := by
    intro g hg hu hgv
    rcases hold with ⟨huf, hfv⟩ | ⟨-, hn⟩
    · exact hg (h.unique g f hu huf (hgv.trans hfv.symm))
    · exact hn g hu hgv
  have hframe : ∀ w, w ≠ v → s.Alive w → (s.pte w).physRes = true → (s.pte w).pageFrame ≠ f := by
    intro w hw hal hr hpf
    obtain ⟨hu, hvirt⟩ := h.resident w hal hr
    rw [hpf] at hu hvirt
    rcases hold with ⟨-, hfv⟩ | ⟨hn, -⟩
    · exact hw (hvirt.symm.trans hfv)
    · exact hn hu
  constructor
  · intro g k hg hk hgk
    by_cases hgf : g = f
    · by_cases hkf : k = f
      · exact hgf.trans hkf.symm
      · subst hgf
        rw [hnew hg, hcore k hkf] at hgk
        exact absurd hgk.symm (hother k hkf ((hheld k hkf).1 hk))
    · by_cases hkf : k = f
      · subst hkf
        rw [hnew hk, hcore g hgf] at hgk
        exact absurd hgk (hother g hgf ((hheld g hgf).1 hg))
      · rw [hcore g hgf, hcore k hkf] at hgk
        exact h.unique g k ((hheld g hgf).1 hg) ((hheld k hkf).1 hk) hgk
  · intro g hg hr
    by_cases hgf : g = f
    · subst hgf
      rw [hnew hg] at hr ⊢
      exact (hres hr).1 hg
    · have hu := (hheld g hgf).1 hg
      rw [hcore g hgf, hpte _ (hother g hgf hu)] at hr ⊢
      exact h.names g hu hr
  · intro w hw hr
    by_cases hwv : w = v
    · subst hwv
      have hu := (hres hr).2 hw
      rw [(hres hr).1 hu]
      exact ⟨hu, hnew hu⟩
    · rw [hpte w hwv] at hr ⊢
      have hal := (halive w).1 hw
      have hne := hframe w hwv hal hr
      obtain ⟨hu, hvirt⟩ := h.resident w hal hr
      exact ⟨(hheld _ hne).2 hu, by rw [hcore _ hne]; exact hvirt⟩
  · intro g hg hfree hal
    by_cases hgf : g = f
    · subst hgf
      rw [hnew hg] at hal ⊢
      exact hgiven hg hfree hal
    · rw [hcore g hgf] at hfree hal ⊢
      have hu := (hheld g hgf).1 hg
      rw [hpte _ (hother g hgf hu)]
      exact h.givenUp g hu hfree ((halive _).1 hal)
  · intro w hw hun
    by_cases hwv : w = v
    · subst hwv
      obtain ⟨hr, hk⟩ := hsaved hw hun
      rw [(hres hr).1 ((hres hr).2 hw)]
      exact ⟨hr, hk⟩
    · rw [huns w hwv] at hun
      have hal := (halive w).1 hw
      obtain ⟨hr, hka, hkc⟩ := h.saved w hal hun
      have hne := hframe w hwv hal hr
      unfold Known
      rw [hpte w hwv, hhard _ hne, hsince _ hne, (hplace _ hne).alloc, (hplace _ hne).cleaned]
      exact ⟨hr, hka, hkc⟩

theorem Went.samePlaces (hw : Went s t f d) (g : Nat) (hg : g ≠ f) : SamePlaces s t g :=
  SamePlaces.of_kept fun p => hw.moved.other p g hg

theorem not_userHeld (hn : ∀ p, f ∉ s.kept p) : ¬ s.UserHeld f := by
  rintro (ha | hd | hc)
  · exact hn (.on .alloc) ha
  · exact hn (.on .dirty) hd
  · exact hn .cleaned hc

theorem Went.not_userHeld (hw : Went s t f none) : ¬ t.UserHeld f := Pages.not_userHeld hw.none_kept

section
variable (h : s.Mapped)
include h

theorem Mapped.away (hw : Went s t f d) (hn : ¬ s.UserHeld f)
    (hnt : ¬ t.UserHeld f) (hpte : t.pte = s.pte) (hhard : ∀ g, g ≠ f → t.hard g = s.hard g)
    (huns : t.unsaved = s.unsaved) (hsince : t.since = s.since) (hdead : t.segDead = s.segDead) : t.Mapped := by
  have hne : ∀ g, s.UserHeld g → g ≠ f := fun g hg hgf => hn (hgf ▸ hg)
  refine h.congr (fun g => ?_) (fun g hg => ?_) (fun v => ?_) (fun g hg hm => ?_) huns hsince hdead
  · by_cases hg : g = f
    · subst hg
      rw [UserHeld, not_or, not_or] at hn hnt
      exact ⟨iff_of_false hnt.1 hn.1, iff_of_false hnt.2.1 hn.2.1, iff_of_false hnt.2.2 hn.2.2⟩
    · exact hw.samePlaces g hg
  · rw [hw.core g (hne g hg)]
    exact ⟨rfl, id⟩
  · rw [hpte]
    exact ⟨rfl, rfl, id⟩
  · rw [hhard g (hne g hg)]
    exact hm

theorem Mapped.left (hw : Went s t f none) (hu : s.UserHeld f)
    (hpte : ∀ w, w ≠ (s.coreMap f).virtPage → t.pte w = s.pte w) (hhard : ∀ g, g ≠ f → t.hard g = s.hard g)
    (hsince : ∀ g, g ≠ f → t.since g = s.since g)
    (huns : ∀ w, w ≠ (s.coreMap f).virtPage → t.unsaved w = s.unsaved w) (hdead : t.segDead = s.segDead)
    (hgone : t.Alive (s.coreMap f).virtPage →
      (t.pte (s.coreMap f).virtPage).physRes = false ∧ t.unsaved (s.coreMap f).virtPage = false) : t.Mapped := by
  have hout := hw.not_userHeld
  refine h.change f (s.coreMap f).virtPage hw.samePlaces hw.core hhard hsince hpte huns hdead (.inl ⟨hu, rfl⟩)
    (fun hf => absurd hf hout) (fun hr => ⟨fun hf => absurd hf hout, fun hal => ?_⟩)
    (fun hf => absurd hf hout) (fun hal hun => ?_)
  · rw [(hgone hal).1] at hr
    cases hr
  · rw [(hgone hal).2] at hun
    cases hun

theorem Mapped.stays (hplace : ∀ g, g ≠ f → SamePlaces s t g)
    (hcore : ∀ g, g ≠ f → t.coreMap g = s.coreMap g) (hu : s.UserHeld f) (hut : t.UserHeld f)
    (hvirt : (t.coreMap f).virtPage = (s.coreMap f).virtPage)
    (hpte : ∀ w, w ≠ (s.coreMap f).virtPage → t.pte w = s.pte w)
    (hres : (t.pte (s.coreMap f).virtPage).physRes = (s.pte (s.coreMap f).virtPage).physRes ∧
      (t.pte (s.coreMap f).virtPage).pageFrame = (s.pte (s.coreMap f).virtPage).pageFrame)
    (hhard : ∀ g, g ≠ f → t.hard g = s.hard g) (hsince : ∀ g, g ≠ f → t.since g = s.since g)
    (huns : ∀ w, w ≠ (s.coreMap f).virtPage → t.unsaved w = s.unsaved w) (hdead : t.segDead = s.segDead)
    (hfree : (t.coreMap f).freePage = true → s.Alive (s.coreMap f).virtPage → (s.coreMap f).freePage = true ∨
      (s.pte (s.coreMap f).virtPage).physRes = false)
    (hsaved : s.Alive (s.coreMap f).virtPage → t.unsaved (s.coreMap f).virtPage = true →
      (s.pte (s.coreMap f).virtPage).physRes = true ∧ t.Known f (s.coreMap f).virtPage) : t.Mapped := by
  have halive : ∀ w, t.Alive w → s.Alive w := fun w hw => ⟨hw.1, hdead ▸ hw.2⟩
  refine h.change f (s.coreMap f).virtPage hplace hcore hhard hsince hpte huns hdead (.inl ⟨hu, rfl⟩)
    (fun _ => hvirt) ?_ ?_ ?_
  · intro hr
    rw [hres.1] at hr
    rw [hres.2]
    exact ⟨fun _ => h.names f hu hr, fun _ => hut⟩
  · intro _ hfr hal
    rw [hres.1]
    rcases hfree hfr (halive _ hal) with hf | hn
    · exact h.givenUp f hu hf (halive _ hal)
    · exact hn
  · intro hal hun
    rw [hres.1]
    exact hsaved (halive _ hal) hun

theorem Mapped.known (hu : s.UserHeld f) (hal : s.Alive (s.coreMap f).virtPage)
    (hun : s.unsaved (s.coreMap f).virtPage = true) :
    (s.pte (s.coreMap f).virtPage).physRes = true ∧ s.Known f (s.coreMap f).virtPage := by
  obtain ⟨hr, hk⟩ := h.saved _ hal hun
  rw [h.names f hu hr] at hk
  exact ⟨hr, hk⟩

theorem Mapped.absent (hn : ∀ g, s.UserHeld g → (s.coreMap g).virtPage ≠ v) (hal : s.Alive v) :
    (s.pte v).physRes = false := by
  rw [Bool.eq_false_iff]
  intro hr
  obtain ⟨hu, hv⟩ := h.resident v hal hr
  exact hn _ hu hv

theorem Mapped.hand (hap : Apart s.kept) (hnone : ∀ p, f ∉ s.kept p)
    (hpage : v.segPtr ≠ sysSegPtr → s.Alive v ∧ ∀ g, s.UserHeld g → (s.coreMap g).virtPage ≠ v) :
    (s.hand f v).Mapped := by
  have hn := not_userHeld hnone
  by_cases hsys : v.segPtr = sysSegPtr
  · rw [show s.hand f v = s.initCore f v by unfold Pages.hand; rw [if_pos hsys]]
    exact h.away ⟨hap.stay hnone, fun g hg => Function.update_of_ne hg _ _, rfl⟩ hn hn rfl (fun _ _ => rfl) rfl rfl rfl
  · obtain ⟨halive, hpage⟩ := hpage hsys
    have hin := went_insertRear (l := .alloc) hap hnone
    rw [show s.hand f v = (s.putOnAllocListRear f).initCore f v by unfold Pages.hand; rw [if_neg hsys]]
    have hself : ((s.putOnAllocListRear f).initCore f v).coreMap f
        = { (s.coreMap f).noFlags with virtPage := v, lockCount := 1 } := Function.update_self _ _ _
    refine h.change f v (fun g hg => SamePlaces.of_kept fun p => hin.moved.other p g hg)
      (fun g hg => Function.update_of_ne hg _ _) (fun _ _ => rfl) (fun _ _ => rfl) (fun _ _ => rfl) (fun _ _ => rfl) rfl
      (.inr ⟨hn, hpage⟩) (fun _ => by rw [hself]) (fun hr => ?_) (fun _ hfree => ?_) (fun hal hun => ?_)
    · exact Bool.noConfusion ((h.absent hpage halive).symm.trans hr)
    · rw [hself] at hfree
      cases hfree
    · exact Bool.noConfusion ((h.absent hpage hal).symm.trans (h.saved v hal hun).1)

end

end Pages

end SpriteKernel.Vm
