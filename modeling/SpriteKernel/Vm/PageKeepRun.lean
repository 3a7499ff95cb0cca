import SpriteKernel.Vm.PageKeepOut

/- Which pages the callers of the page module name, when a step is undisturbed, and that such
   steps lose no page. -/
namespace SpriteKernel.Vm

open Function
namespace Pages
open Custody
variable {P : PageParams} {s t u : Pages} {f : Nat} {v : VirtPage}

/-- A frame is allocated for a page of a live segment without one; VmPageFree is for a page deleted, not resident
    yet, or of a dying segment; a page-in ends with its frame. Only what the hardware and the table have is touched;
    a new segment has no frames. -/
def Faulted (s : Pages) : PageStep → Prop
  | .putOnAllocList v _ | .allocateInt v _ => s.Wanted v
  | .freePage f deleted => deleted = true ∨ (s.Alive (s.coreMap f).virtPage →
      (s.pte (s.coreMap f).virtPage).physRes = false)
  | .finishPage v f _ => (s.coreMap f).virtPage = v ∧ f ∈ s.lists .alloc
  | .quickFault v => (s.pte v).physRes = true
  | .touch f _ => s.UserHeld f ∧ (s.coreMap f).freePage = false ∧
      (s.pte (s.coreMap f).virtPage).physRes = true ∧ (s.hard f).valid = true
  | .newSegment n => ∀ f, s.UserHeld f → (s.coreMap f).virtPage.segPtr ≠ n
  | .getRefTime | .pageFromFS _ | .getReservePage _ | .reservePage _ | .resume _ | .putOnDirtyList _
  | .flushPage _ | .pageOut _ _ | .recovery | .clock | .lock _ | .unlock _ | .killSegment _ => True

/-- No write to swap fails for good, none of a frame waited for finds the swap server down, no such frame is dirty
    for a dead segment, and none is flushed. -/
def Undisturbed (s : Pages) : PageStep → Prop
  | .pageOut proc status =>
    (∀ f, proc = some f → status ≠ .other ∧ (status.down = true → (s.coreMap f).segPageoutWait = false)) ∧
      ∀ f, f ∈ s.lists .dirty → s.segDead (s.coreMap f).virtPage.segPtr = true → (s.coreMap f).segPageoutWait = false
  | .flushPage _ => False
  | .getRefTime | .pageFromFS _ | .putOnAllocList _ _ | .allocateInt _ _ | .getReservePage _ | .reservePage _
  | .freePage _ _ | .resume _ | .putOnDirtyList _ | .recovery | .clock | .lock _ | .unlock _ | .finishPage _ _ _
  | .quickFault _ | .touch _ _ | .killSegment _ | .newSegment _ => True

section
variable (hm : s.Mapped)
include hm

theorem Mapped.frame (hl : t.lists = s.lists) (hcl : t.cleaning = s.cleaning)
    (hcore : t.coreMap = s.coreMap) (hpte : t.pte = s.pte) (hhard : t.hard = s.hard) (huns : t.unsaved = s.unsaved)
    (hsince : t.since = s.since) (hdead : t.segDead = s.segDead) : t.Mapped :=
  hm.congr (fun _ => ⟨by rw [hl], by rw [hl], by rw [hcl]⟩) (fun _ _ => by rw [hcore]; exact ⟨rfl, id⟩)
    (fun _ => by rw [hpte]; exact ⟨rfl, rfl, id⟩) (fun _ _ => by rw [hhard]; exact id) huns hsince hdead

section
variable (h : s.Conserved P)
include h

theorem Mapped.getRefTime : s.getRefTime.Mapped := by
  unfold Pages.getRefTime
  split
  · next f rest hl =>
    have hf : f ∈ s.lists .free := hl ▸ List.mem_cons_self
    exact (mapped_takeOffFreeList h hm hf).1.frame rfl rfl rfl rfl rfl rfl rfl rfl
  · exact hm

theorem Mapped.putOnAllocList (hf : f ∈ s.inHand) (hv : s.Wanted v) : (s.putOnAllocList v f).Mapped := by
  have hw := went_fromHand h hf
  have hmap : ({ s with inHand := s.inHand.erase f } : Pages).Mapped := hm.frame rfl rfl rfl rfl rfl rfl rfl rfl
  exact hmap.hand (hw.moved.apart h.apart) hw.none_kept hv

theorem Mapped.toKernel {l : PageList} (hl : l = .free ∨ l = .reserve)
    (hf : f ∈ s.lists l) {c : VmCore} (hk : t.kept = (s.listRemove f).kept)
    (hcore : t.coreMap = update s.coreMap f c) (hpte : t.pte = s.pte) (hhard : t.hard = s.hard)
    (huns : t.unsaved = s.unsaved) (hsince : t.since = s.since) (hdead : t.segDead = s.segDead)
    (hh : t.clockHand = s.clockHand) : t.Mapped := by
  have hw : Went s t f none := (went_listRemove h.apart hf).setCore (c := c) hk hcore hh
  refine hm.away hw ?_ hw.not_userHeld hpte (fun _ _ => by rw [hhard]) huns hsince hdead
  rintro (ha | hd | hc)
  · have heq := h.apart.one (.on l) (.on .alloc) f hf ha
    rcases hl with rfl | rfl <;> nomatch heq
  · have heq := h.apart.one (.on l) (.on .dirty) f hf hd
    rcases hl with rfl | rfl <;> nomatch heq
  · nomatch h.apart.one (.on l) .cleaned f hf hc

theorem Mapped.getReservePage : (s.getReservePage v).Mapped := by
  unfold Pages.getReservePage
  split
  · next f rest hl =>
    have hf : f ∈ s.lists .reserve := hl ▸ List.mem_cons_self
    exact hm.toKernel h (.inr rfl) hf (c := { s.coreMap f with virtPage := v }) rfl rfl rfl rfl rfl rfl rfl rfl
  · exact hm

theorem Mapped.reservePage (hf : f < P.numPhysPages → f ∈ s.lists .free) : (s.reservePage P f).Mapped := by
  unfold Pages.reservePage
  split
  · next hlt =>
    exact hm.toKernel h (.inl rfl) (hf hlt) (c := { (s.coreMap f).noFlags with
      virtPage := ⟨sysSegPtr, (s.coreMap f).virtPage.page⟩, lockCount := 1 }) rfl rfl rfl rfl rfl rfl rfl rfl
  · exact hm

end

theorem Mapped.resume {w : Waiter} (hw : w.flushed = none) : (s.resume w).Mapped := by
  unfold Pages.resume
  dsimp only
  split
  · have hset : (s.setCore w.frame { s.coreMap w.frame with segPageoutWait := true }).Mapped :=
      hm.setCore rfl fun _ hfr _ => .inl hfr
    exact hset.frame rfl rfl rfl rfl rfl rfl rfl rfl
  · rw [hw]
    exact hm.frame rfl rfl rfl rfl rfl rfl rfl rfl

end

theorem callPageOuts_mapped : ∀ (n : Nat) (s : Pages), s.Mapped → (callPageOuts P n s).Mapped
  | 0, _, hm => hm
  | n + 1, s, hm => by
    unfold callPageOuts
    split
    · exact callPageOuts_mapped n _ (hm.frame rfl rfl rfl rfl rfl rfl rfl rfl)
    · exact hm

theorem Mapped.clockPage (hm : s.Mapped) (h : s.Conserved P) (hf : f < P.numPhysPages) : (s.clockPage P f).Mapped := by
  unfold Pages.clockPage
  split
  · exact hm
  · next hskip =>
    split
    · exact (hm.moveToRear h.apart (h.clock_alloc hf hskip)).clearRef f
    · exact hm

theorem clockLoop_mapped : ∀ (n : Nat) (s : Pages), s.Conserved P → s.Mapped → (clockLoop P n s).Mapped
  | 0, _, _, hm => hm
  | n + 1, s, h, hm => by
    have hc := h.clockTick
    have hm' : ({ s with clockHand :=
        if s.clockHand = P.numPhysPages - 1 then P.firstFreePage else s.clockHand + 1 } : Pages).Mapped :=
      hm.frame rfl rfl rfl rfl rfl rfl rfl rfl
    exact clockLoop_mapped n _ (hc.clockPage h.hand) (hm'.clockPage hc h.hand)

section
variable (hm : s.Mapped)
include hm

theorem Mapped.finishPage (hv : (s.coreMap f).virtPage = v) (ha : f ∈ s.lists .alloc)
    (h : s.Conserved P) (modified : Bool) : (s.finishPage v f modified).Mapped := by
  have hself : (s.finishPage v f modified).coreMap f
      = { s.coreMap f with lockCount := (s.coreMap f).lockCount - 1 } := update_self _ _ _
  have hpte : (s.finishPage v f modified).pte v = { s.pte v with
      physRes := true, pageFrame := f, zeroFill := false, inProgress := false, referenced := true
      modified := (s.pte v).modified || modified } := update_self _ _ _
  refine hm.change f v (fun _ _ => ⟨Iff.rfl, Iff.rfl, Iff.rfl⟩) (fun g hg => update_of_ne hg _ _)
    (fun g hg => update_of_ne hg _ _) (fun _ _ => rfl) (fun w hw => update_of_ne hw _ _)
    (fun w hw => update_of_ne hw _ _) rfl (.inl ⟨.inl ha, hv⟩) (fun _ => by rw [hself]; exact hv)
    (fun _ => ⟨fun _ => by rw [hpte], fun _ => .inl ha⟩) (fun _ hfr => ?_) (fun _ hun => ?_)
  · rw [hself] at hfr
    exact absurd hfr (by rw [(h.agrees (.on .alloc) f ha).1.1]; decide)
  · have hmod : (s.finishPage v f modified).unsaved v = modified := update_self _ _ _
    rw [hmod] at hun
    refine ⟨by rw [hpte], fun _ => .inl ?_, fun hc => ?_⟩
    · rw [hpte, hun]
      exact Bool.or_true _
    · nomatch h.apart.one (.on .alloc) .cleaned f ha hc

theorem Mapped.quickFault (hr : (s.pte v).physRes = true) : (s.quickFault v).Mapped := by
  refine hm.congr (fun _ => ⟨Iff.rfl, Iff.rfl, Iff.rfl⟩) (fun _ _ => ⟨rfl, id⟩) (fun w => ?_) (fun g _ hmod => ?_)
    rfl rfl rfl
  · by_cases hw : w = v
    · subst hw
      have hpte : (s.quickFault w).pte w = { s.pte w with physRes := true, referenced := true } := by
        show update (update s.pte w _) w _ w = _
        rw [update_self]
        show { update s.pte w _ w with referenced := true } = _
        rw [update_self]
      rw [hpte, hr]
      exact ⟨rfl, rfl, id⟩
    · have hpte : (s.quickFault v).pte w = s.pte w :=
        (update_of_ne hw _ _).trans (update_of_ne hw _ _)
      rw [hpte]
      exact ⟨rfl, rfl, id⟩
  · obtain ⟨k, hk⟩ : ∃ k, (s.quickFault v).hard = update s.hard k { s.hard k with valid := true } := ⟨_, rfl⟩
    rw [hk]
    by_cases hg : g = k
    · subst hg
      rw [update_self]
      exact hmod
    · rw [update_of_ne hg]
      exact hmod

theorem Mapped.touch (hu : s.UserHeld f) (hr : (s.pte (s.coreMap f).virtPage).physRes = true)
    (write : Bool) : (s.touch f write).Mapped := by
  have hhard : (s.touch f write).hard f = { s.hard f with referenced := true, modified := (s.hard f).modified || write } :=
    update_self _ _ _
  have hsince : (s.touch f write).since f = (s.since f || write) := update_self _ _ _
  have huns : (s.touch f write).unsaved (s.coreMap f).virtPage = (s.unsaved (s.coreMap f).virtPage || write) :=
    update_self _ _ _
  refine hm.stays (fun _ _ => ⟨Iff.rfl, Iff.rfl, Iff.rfl⟩) (fun _ _ => rfl) hu hu rfl (fun _ _ => rfl) ⟨rfl, rfl⟩
    (fun g hg => update_of_ne hg _ _) (fun g hg => update_of_ne hg _ _)
    (fun w hw => update_of_ne hw _ _) rfl (fun hfr _ => .inl hfr) (fun hal hun => ⟨hr, fun ha => ?_, fun hc hs => ?_⟩)
  · rw [hhard]
    cases write with
    | true => exact .inr (Bool.or_true _)
    | false =>
      rw [huns, Bool.or_false] at hun
      have hk := (hm.known hu hal hun).2.1 ha
      rw [Bool.or_false]
      exact hk
  · rw [hhard]
    cases write with
    | true => exact Bool.or_true _
    | false =>
      rw [huns, Bool.or_false] at hun
      rw [hsince, Bool.or_false] at hs
      rw [Bool.or_false]
      exact (hm.known hu hal hun).2.2 hc hs

theorem Mapped.killSegment (n : Nat) : (s.killSegment n).Mapped := by
  have hlive : ∀ v, (s.killSegment n).Alive v → s.Alive v := by
    rintro v ⟨hv, hd⟩
    refine ⟨hv, ?_⟩
    have hd : update s.segDead n true v.segPtr = false := hd
    by_cases hn : v.segPtr = n
    · rw [hn, update_self] at hd
      nomatch hd
    · rwa [update_of_ne hn] at hd
  exact ⟨hm.unique, hm.names, fun v hv => hm.resident v (hlive v hv),
    fun f hf hfr hv => hm.givenUp f hf hfr (hlive _ hv), fun v hv hun => hm.saved v (hlive v hv) hun⟩

theorem Mapped.newSegment {n : Nat} (hn : ∀ f, s.UserHeld f → (s.coreMap f).virtPage.segPtr ≠ n) :
    (s.newSegment n).Mapped := by
  have hlive : ∀ v, v.segPtr ≠ n → ((s.newSegment n).Alive v ↔ s.Alive v) := by
    intro v hv
    have hd : (s.newSegment n).segDead v.segPtr = s.segDead v.segPtr := update_of_ne hv _ _
    unfold Alive
    rw [hd]
  have hpte : ∀ v, v.segPtr ≠ n → (s.newSegment n).pte v = s.pte v := fun v hv => if_neg hv
  have hzero : ∀ v, v.segPtr = n → (s.newSegment n).pte v = .zero := fun v hv => if_pos hv
  have huns : ∀ v, (s.newSegment n).unsaved v = true → v.segPtr ≠ n ∧ s.unsaved v = true := by
    intro v hun
    have hun : (if v.segPtr = n then false else s.unsaved v) = true := hun
    split at hun
    · cases hun
    · next hv => exact ⟨hv, hun⟩
  refine ⟨hm.unique, fun f hf hr => ?_, fun v hv hr => ?_, fun f hf hfr hv => ?_, fun v hv hun => ?_⟩
  · rw [show (s.newSegment n).coreMap = s.coreMap from rfl] at hr ⊢
    rw [hpte _ (hn f hf)] at hr ⊢
    exact hm.names f hf hr
  · by_cases hvn : v.segPtr = n
    · rw [hzero v hvn] at hr
      cases hr
    · rw [hpte v hvn] at hr ⊢
      exact hm.resident v ((hlive v hvn).1 hv) hr
  · rw [show (s.newSegment n).coreMap = s.coreMap from rfl] at hv ⊢
    rw [hpte _ (hn f hf)]
    exact hm.givenUp f hf hfr ((hlive _ (hn f hf)).1 hv)
  · obtain ⟨hvn, hun⟩ := huns v hun
    have hk := hm.saved v ((hlive v hvn).1 hv) hun
    unfold Known
    rw [hpte v hvn]
    exact hk

end

end Pages

end SpriteKernel.Vm
