import SpriteKernel.Vm.CodeSegStep

/- What each routine of the segment table does to the association of files and segments, and to
   those that wait for a file to be set up. -/
namespace SpriteKernel.Vm

open Function List
namespace SegTable
open Custody
variable {P : SegParams} {s t : SegTable} {n p filePtr : Nat} {a : Act} {g m : Nat}

/-- A file that points to nothing is to be set up by the process that looked for its segment. -/
theorem Linked.begin (h : s.Linked P) (hp : s.setup p = none) (hg : s.segPtr g = .nil) :
    (((s.setSegPtr g .settingUp).setSetup p (some g)).setAct p .none).Linked P := by
  obtain ⟨t, ht⟩ : ∃ t, t = ((s.setSegPtr g .settingUp).setSetup p (some g)).setAct p .none := ⟨_, rfl⟩
  have hkeep : ∀ k, k ≠ g → t.segPtr k = s.segPtr k := fun k hk => by rw [ht]; exact update_of_ne hk _ _
  have hptr : ∀ k b, s.segPtr k = b → b ≠ .nil → t.segPtr k = b := fun k b hk hb =>
    (hkeep k fun he => hb (hk.symm.trans (he ▸ hg))).trans hk
  have hself : t.segPtr g = .settingUp := by rw [ht]; exact update_self _ _ _
  have hsetup : ∀ q, q ≠ p → t.setup q = s.setup q := fun q hq => by rw [ht]; exact update_of_ne hq _ _
  have hown : t.setup p = some g := by rw [ht]; exact update_self _ _ _
  have hdone : t.act p = .none := by rw [ht]; exact update_self _ _ _
  have hstay : ∀ q, q ≠ p → t.act q = s.act q := fun q hq => by rw [ht]; exact update_of_ne hq _ _
  have hact : ∀ q f w, t.act q = .sleeping f w → q ≠ p ∧ s.act q = .sleeping f w := by
    intro q f w hq
    rw [ht] at hq
    exact of_update_ne hq nofun
  have hfile : t.seg = s.seg := by rw [ht]; rfl
  rw [← ht]
  refine ⟨fun m k hpos hf => ?_, fun k m hb => ?_, fun m hm => ?_, fun q k hq => ?_, fun q r k hq hr => ?_,
    fun k hk => ?_, fun q f hq => ?_, fun q f w hq => ?_, ?_⟩
  · rw [hfile] at hf
    exact hptr k _ (h.linked m k hpos hf) nofun
  · have hkg : k ≠ g := by
      rintro rfl
      rw [hself] at hb
      nomatch hb
    rw [hkeep k hkg] at hb
    rw [hfile]
    exact h.back k m hb
  · rw [hfile]
    refine h.loose m (hm.imp (fun hf => ?_) (Or.imp (fun hd => ?_) fun ⟨q, hq⟩ => ⟨q, ?_⟩))
    · rw [ht] at hf; exact hf
    · rw [ht] at hd; exact hd
    · by_cases hqp : q = p
      · subst hqp
        rw [hdone] at hq
        nomatch hq
      · exact hstay q hqp ▸ hq
  · by_cases hqp : q = p
    · subst hqp
      rw [hown] at hq
      cases hq
      exact hself
    · rw [hsetup q hqp] at hq
      exact hptr k _ (h.settingUp q k hq) nofun
  · have hnew : ∀ r, s.setup r = some k → k ≠ g := by
      rintro r hr rfl
      have hb := h.settingUp r k hr
      rw [hg] at hb
      nomatch hb
    by_cases hqp : q = p
    · by_cases hrp : r = p
      · exact hqp.trans hrp.symm
      · rw [hsetup r hrp] at hr
        rw [hqp, hown] at hq
        exact absurd (Option.some.inj hq).symm (hnew r hr)
    · rw [hsetup q hqp] at hq
      by_cases hrp : r = p
      · rw [hrp, hown] at hr
        exact absurd (Option.some.inj hr).symm (hnew q hq)
      · rw [hsetup r hrp] at hr
        exact h.one q r k hq hr
  · by_cases hkg : k = g
    · exact ⟨p, hkg ▸ hown⟩
    · rw [hkeep k hkg] at hk
      obtain ⟨q, hq⟩ := h.owned k hk
      refine ⟨q, ?_⟩
      rw [hsetup q]
      · exact hq
      · rintro rfl
        rw [hp] at hq
        nomatch hq
  · exact hptr _ _ (h.asleep q f (hact q f false hq).2) nofun
  · obtain ⟨hqp, hq⟩ := hact q f w hq
    rw [hsetup q hqp]
    exact h.resting q f w hq
  · rw [ht]
    exact h.sticky

theorem Linked.sleep (h : s.Linked P) (hp : s.setup p = none)
    (hg : s.segPtr (P.getFileHandle filePtr) = .settingUp) : (s.setAct p (.sleeping filePtr false)).Linked P := by
  refine ⟨h.linked, h.back, fun m hm => ?_, h.settingUp, h.one, h.owned, fun q f hq => ?_, fun q f w hq => ?_, h.sticky⟩
  · refine h.loose m (hm.imp_right (Or.imp_right fun ⟨q, hq⟩ => ⟨q, ?_⟩))
    exact (update_cases (P := (m ∈ Act.clean ·)) hq).elim nofun And.right
  · obtain ⟨rfl, hself⟩ | ⟨-, hold⟩ := of_update hq
    · cases hself
      exact hg
    · exact h.asleep q f hold
  · obtain ⟨rfl, -⟩ | ⟨-, hold⟩ := of_update hq
    · exact hp
    · exact h.resting q f w hold

/-- The set-up of a file ends: nobody sleeps for it, and it points to nothing or to the new segment. -/
theorem Linked.finish (h : s.Linked P) {b : BackPtr} (hp : s.setup p = some g) (hb : b ≠ .settingUp)
    (hptr : t.segPtr = update s.segPtr g b) (hsetup : t.setup = update s.setup p none)
    (hsticky : t.noStickySegments = s.noStickySegments)
    (hfile : ∀ m k, (t.seg m).fileHandle = some k → (s.seg m).fileHandle = some k ∨ k = g ∧ b = .seg m)
    (hold : ∀ m k, (s.seg m).fileHandle = some k → (t.seg m).fileHandle = some k)
    (hnew : ∀ m, b = .seg m → 0 < m ∧ m < P.numSegments ∧ (t.seg m).fileHandle = some g ∧ ¬ t.Loose m)
    (hloose : ∀ m, t.Loose m → s.Loose m)
    (hact : ∀ q f w, t.act q = .sleeping f w → (∃ w', s.act q = .sleeping f w') ∧
      (w = false → s.act q = .sleeping f false ∧ P.getFileHandle f ≠ g)) : t.Linked P := by
  have hset : ∀ q k, t.setup q = some k → q ≠ p ∧ s.setup q = some k := by
    intro q k hq
    rw [hsetup] at hq
    exact of_update_none hq
  -- no other process sets the file up
  have hkg : ∀ q k, t.setup q = some k → k ≠ g := by
    rintro q k hq rfl
    exact (hset q k hq).1 (h.one q p k (hset q k hq).2 hp)
  have hup := h.settingUp p g hp
  refine ⟨fun m k hpos hf => ?_, fun k m hk => ?_, fun m hm => ?_, fun q k hq => ?_, fun q r k hq hr => ?_,
    fun k hk => ?_, fun q f hq => ?_, fun q f w hq => ?_, hsticky.trans h.sticky⟩
  · rcases hfile m k hf with hs | ⟨rfl, hbm⟩
    · have hk := h.linked m k hpos hs
      rw [hptr, update_of_ne, hk]
      rintro rfl
      rw [hup] at hk
      nomatch hk
    · rw [hptr, update_self, hbm]
  · rw [hptr] at hk
    obtain ⟨rfl, hself⟩ | ⟨-, hk⟩ := of_update hk
    · obtain ⟨h1, h2, h3, -⟩ := hnew m hself
      exact ⟨h1, h2, h3⟩
    · obtain ⟨h1, h2, h3⟩ := h.back k m hk
      exact ⟨h1, h2, hold m k h3⟩
  · cases hf : (t.seg m).fileHandle with
    | none => rfl
    | some k =>
      rcases hfile m k hf with hs | ⟨-, hbm⟩
      · rw [h.loose m (hloose m hm)] at hs
        nomatch hs
      · exact absurd hm (hnew m hbm).2.2.2
  · rw [hptr, update_of_ne (hkg q k hq)]
    exact h.settingUp q k (hset q k hq).2
  · exact h.one q r k (hset q k hq).2 (hset r k hr).2
  · rw [hptr] at hk
    obtain ⟨hne, hk⟩ := of_update_ne hk hb
    obtain ⟨q, hq⟩ := h.owned k hk
    refine ⟨q, ?_⟩
    rw [hsetup, update_of_ne]
    · exact hq
    · rintro rfl
      exact hne (Option.some.inj (hq.symm.trans hp))
  · obtain ⟨hq, hf⟩ := (hact q f false hq).2 rfl
    rw [hptr, update_of_ne hf]
    exact h.asleep q f hq
  · obtain ⟨⟨w', hs⟩, -⟩ := hact q f w hq
    have hno := h.resting q f w' hs
    have hqp : q ≠ p := by
      rintro rfl
      rw [hp] at hno
      nomatch hno
    rw [hsetup, update_of_ne hqp]
    exact hno

theorem clean_sub (a : Act) : ∀ m, m ∈ a.clean → m ∈ a.hand := by
  intro m hm
  cases a with
  | none => exact hm
  | sleeping _ _ => nomatch hm
  | draining _ => nomatch hm
  | recycling _ _ _ c => cases c <;> first | exact hm | nomatch hm
  | deleting _ c => cases c <;> first | exact hm | nomatch hm

theorem Loose.kept (hm : s.Loose m) : ∃ q, m ∈ s.kept q := by
  rcases hm with hf | hd | ⟨q, hq⟩
  · exact ⟨.on .free, hf⟩
  · exact ⟨.on .dead, hd⟩
  · exact ⟨.hand q, clean_sub _ m hq⟩

theorem Linked.initCode (h : s.Linked P) (hpl : s.Placed P) {segPtr : Option Nat}
    (hp : s.setup p = some (P.getFileHandle filePtr))
    (hnew : ∀ m, segPtr = some m → (0 < m ∧ m < P.numSegments) ∧ (s.seg m).procList ≠ [] ∧ (s.seg m).fileHandle = none)
    (hnobody : ∀ m, segPtr = some m → ∀ q f, s.act q = .sleeping f false → P.getFileHandle f ≠ P.getFileHandle filePtr) :
    (s.initCode P p filePtr segPtr).Linked P := by
  cases segPtr with
  | none =>
    -- the broadcast wakes everybody
    have hact : ∀ q f w, (s.initCode P p filePtr none).act q = .sleeping f w → w = true ∧ ∃ w', s.act q = .sleeping f w' := by
      intro q f w hq
      have hq : s.broadcast.act q = .sleeping f w := hq
      unfold broadcast at hq
      dsimp only at hq
      cases ha : s.act q with
      | sleeping f' w' =>
        rw [ha] at hq
        injection hq with hf hw
        exact ⟨hw.symm, w', by rw [hf]⟩
      | _ =>
        rw [ha] at hq
        cases hq
    have hclean : ∀ q, ((s.initCode P p filePtr none).act q).clean = (s.act q).clean := by
      intro q
      show (s.broadcast.act q).clean = (s.act q).clean
      unfold broadcast
      dsimp only
      cases s.act q <;> rfl
    refine h.finish hp (b := .nil) (fun h => by cases h) rfl rfl rfl (fun _ _ hf => .inl hf) (fun _ _ hf => hf)
      (fun _ h => by cases h) (fun m hm => hm.imp_right (Or.imp_right fun hex => hex.imp fun q hq => hclean q ▸ hq))
      (fun q f w hq => ?_)
    obtain ⟨hw, hs⟩ := hact q f w hq
    exact ⟨hs, fun hwf => Bool.noConfusion (hwf.symm.trans hw)⟩
  | some n =>
    obtain ⟨hn, hshared, hnone⟩ := hnew n rfl
    have hself : ((s.initCode P p filePtr (some n)).seg n).fileHandle = some (P.getFileHandle filePtr) :=
      congrArg SegEntry.fileHandle (update_self n _ s.seg)
    have hother : ∀ m, m ≠ n → (s.initCode P p filePtr (some n)).seg m = s.seg m :=
      fun m hm => update_of_ne hm _ _
    refine h.finish hp (b := .seg n) (fun h => by cases h) rfl rfl rfl (fun m k hf => ?_) (fun m k hf => ?_) (fun m hm => ?_)
      (fun _ hm => hm) (fun q f w hq => ⟨⟨w, hq⟩, fun hw => ⟨hw ▸ hq, hnobody n rfl q f (hw ▸ hq)⟩⟩)
    · by_cases hmn : m = n
      · subst hmn
        rw [hself] at hf
        exact .inr ⟨(Option.some.inj hf).symm, rfl⟩
      · rw [hother m hmn] at hf
        exact .inl hf
    · by_cases hmn : m = n
      · subst hmn
        rw [hnone] at hf
        cases hf
      · rw [hother m hmn]
        exact hf
    · obtain rfl := BackPtr.seg.inj hm
      refine ⟨hn.1, hn.2, hself, fun hl => ?_⟩
      obtain ⟨q, hq⟩ := Loose.kept (s := s) hl
      exact hpl.not_kept hshared q hq

/-- What changes when a process goes on with something else than waiting in FindCode. -/
theorem sleeping_setAct (ha : ∀ f w, a ≠ .sleeping f w) {q f : Nat} {w : Bool}
    (hq : (s.setAct p a).act q = .sleeping f w) : s.act q = .sleeping f w :=
  (of_update_ne hq (ha f w)).2

theorem loose_setAct (hm : (s.setAct p a).Loose m) : m ∈ a.clean ∨ s.Loose m := by
  rcases hm with hf | hd | ⟨q, hq⟩
  · exact .inr (.inl hf)
  · exact .inr (.inr (.inl hd))
  · obtain ⟨-, hself⟩ | ⟨-, hold⟩ := update_cases (P := (m ∈ Act.clean ·)) hq
    · exact .inl hself
    · exact .inr (.inr (.inr ⟨q, hold⟩))

theorem loose_listRemove (hm : (s.listRemove n).Loose m) : s.Loose m :=
  hm.imp mem_of_mem_erase (Or.imp_left mem_of_mem_erase)

section
variable (h : s.Linked P)
include h

theorem Linked.setAct (ha : ∀ f w, a ≠ .sleeping f w)
    (hc : ∀ m, m ∈ a.clean → (s.seg m).fileHandle = none) : (s.setAct p a).Linked P :=
  h.frame (fun _ => rfl) rfl rfl rfl (fun m hm => (loose_setAct hm).symm.imp_right (hc m)) fun _ _ _ => sleeping_setAct ha

theorem Linked.setSeg {e : SegEntry} (he : e.fileHandle = (s.seg n).fileHandle) : (s.setSeg n e).Linked P := by
  exact h.frame (update_same (g := SegEntry.fileHandle) he) rfl rfl rfl (fun _ hm => .inl hm) fun _ _ _ hq => hq

theorem Linked.listRemove : (s.listRemove n).Linked P :=
  h.frame (fun _ => rfl) rfl rfl rfl (fun _ hm => .inl (loose_listRemove hm)) fun _ _ _ hq => hq

theorem Linked.insertRear {l : SegList} (hn : l = .inactive ∨ (s.seg n).fileHandle = none) :
    (s.insertRear l n).Linked P := by
  refine h.frame (fun _ => rfl) rfl rfl rfl (fun m hm => ?_) fun _ _ _ hq => hq
  have hin : ∀ k, m ∈ (s.insertRear l n).lists k → m ∈ s.lists k ∨ k = l ∧ m = n := by
    intro k hk
    obtain ⟨rfl, hk⟩ | ⟨-, hk⟩ := update_cases (P := (m ∈ ·)) hk
    · exact (mem_append.1 hk).imp_right fun hn => ⟨rfl, mem_singleton.1 hn⟩
    · exact .inl hk
  rcases hm with hf | hd | hc
  · rcases hin _ hf with hf | ⟨rfl, rfl⟩
    · exact .inl (.inl hf)
    · exact .inr (hn.resolve_left (by decide))
  · rcases hin _ hd with hd | ⟨rfl, rfl⟩
    · exact .inl (.inr (.inl hd))
    · exact .inr (hn.resolve_left (by decide))
  · exact .inl (.inr (.inr hc))

theorem Linked.share : (s.share n p).Linked P := h.setSeg rfl

theorem Linked.findCode (hp : s.setup p = none) (ht : s.findCode P p filePtr = .ok t) : t.Linked P := by
  unfold SegTable.findCode at ht
  rw [if_neg (by rw [h.sticky]; decide)] at ht
  split at ht
  · next hg => exact Except.ok.inj ht ▸ h.begin hp hg
  · next hg => exact Except.ok.inj ht ▸ h.sleep hp hg
  · next n hg =>
    split at ht
    · split at ht
      · nomatch ht
      · cases ht
        have hoff : ((s.listRemove n).setSeg n { s.seg n with inactive := false, filePtr := some filePtr }).Linked P :=
          Linked.setSeg h.listRemove rfl
        exact hoff.share.setAct nofun nofun
    · exact Except.ok.inj ht ▸ h.share.setAct nofun nofun

theorem Linked.initSegment (hn : (s.seg n).fileHandle = none) (type : SegType)
    (filePtr : Option Nat) : (s.initSegment p type filePtr n).Linked P := h.setSeg hn.symm

theorem Linked.getNewSegment (type : SegType) (filePtr : Option Nat) : (s.getNewSegment p type filePtr).Linked P := by
  unfold SegTable.getNewSegment
  split
  · exact h.listRemove.setAct nofun nofun
  · next _ n rest hd hf =>
    exact h.listRemove.initSegment (h.loose n (.inl (hf ▸ mem_cons_self))) type filePtr
  · exact h.listRemove.setAct nofun nofun
  · exact h

theorem Linked.deleteRest : (s.deleteRest p n).Linked P := by
  unfold SegTable.deleteRest
  dsimp only
  split
  · have hset : (s.setSeg n { s.seg n with inactive := true, filePtr := none }).Linked P := h.setSeg rfl
    exact (hset.insertRear (.inl rfl)).setAct nofun nofun
  · exact h.setAct nofun nofun

theorem Linked.segmentDeleteInt (ht : s.segmentDeleteInt p n = .ok t) : t.Linked P := by
  unfold SegTable.segmentDeleteInt at ht
  dsimp only at ht
  have hleft : (s.setSeg n { s.seg n with
      refCount := (s.seg n).refCount - 1, procList := (s.seg n).procList.erase p }).Linked P := h.setSeg rfl
  split at ht
  · nomatch ht
  · split at ht
    · exact Except.ok.inj ht ▸ hleft
    · split at ht
      · exact Except.ok.inj ht ▸ hleft.setAct nofun nofun
      · exact Except.ok.inj ht ▸ hleft.deleteRest

theorem Linked.cleanSegment (hn : 0 < n) (ha : ∀ f w, a ≠ .sleeping f w) (hc : a.clean = [n]) :
    ((s.cleanSegment n).setAct p a).Linked P := by
  obtain ⟨hl, hact, hsetup, hsticky, hseg⟩ := cleanSegment_rest (s := s) (n := n)
  have hnone : (((s.cleanSegment n).setAct p a).seg n).fileHandle = none := by
    show ((s.cleanSegment n).seg n).fileHandle = none
    rw [hseg, update_self]
  have hother : ∀ m, m ≠ n → (((s.cleanSegment n).setAct p a).seg m).fileHandle = (s.seg m).fileHandle := by
    intro m hm
    show ((s.cleanSegment n).seg m).fileHandle = _
    rw [hseg, update_of_ne hm]
  have hloose : ∀ m, ((s.cleanSegment n).setAct p a).Loose m → m = n ∨ s.Loose m := by
    intro m hm
    rcases loose_setAct hm with hm | hm
    · rw [hc] at hm
      exact .inl (mem_singleton.1 hm)
    · right
      unfold Loose at hm
      rwa [hl, hact] at hm
  have hsl : ∀ q f w, ((s.cleanSegment n).setAct p a).act q = .sleeping f w → s.act q = .sleeping f w := by
    intro q f w hq
    have hq := sleeping_setAct ha hq
    rwa [hact] at hq
  cases hf : (s.seg n).fileHandle with
  | none =>
    refine h.frame (fun m => ?_) ?_ hsetup hsticky (fun m hm => ?_) hsl
    · by_cases hm : m = n
      · rw [hm, hnone, hf]
      · exact hother m hm
    · unfold SegTable.cleanSegment
      rw [hf]
      rfl
    · rcases hloose m hm with rfl | hm
      · exact .inr hf
      · exact .inl hm
  | some g =>
    refine h.unlink (g := g) hn hf hother hnone ?_ hsetup hsticky (fun m hm hml => (hloose m hml).resolve_left hm) hsl
    unfold SegTable.cleanSegment
    rw [hf]
    rfl

theorem Linked.newAgain {type : SegType} {filePtr : Option Nat}
    (hp : s.act p = .recycling type filePtr n true) : ((s.initSegment p type filePtr n).setAct p .none).Linked P :=
  (h.initSegment (h.loose n (.inr (.inr ⟨p, by rw [hp]; exact mem_cons_self⟩))) type filePtr).setAct nofun nofun

theorem Linked.putOnFreeSegList (hp : s.act p = .deleting n true) :
    ((s.putOnFreeSegList n).setAct p .none).Linked P := by
  have hnone := h.loose n (.inr (.inr ⟨p, by rw [hp]; exact mem_cons_self⟩))
  have hset : (s.setSeg n { s.seg n with free := true, inactive := false, dead := false, spoiled := false }).Linked P :=
    h.setSeg rfl
  refine (hset.insertRear (n := n) (l := .free) (.inr ?_)).setAct nofun nofun
  exact (congrArg SegEntry.fileHandle (update_self n _ s.seg)).trans hnone

theorem Linked.fileChanged (ht : s.fileChanged g = .ok t) : t.Linked P := by
  unfold SegTable.fileChanged at ht
  split at ht
  · next n hg =>
    split at ht
    · nomatch ht
    · cases ht
      obtain ⟨hpos, -, hf⟩ := h.back g n hg
      have hseg : ∀ e, ((((s.listRemove n).insertRear .dead n).setSegPtr g .nil).setSeg n e).seg = update s.seg n e :=
        fun _ => rfl
      refine h.unlink hpos hf (fun m hm => ?_) ?_ rfl rfl rfl (fun m hm hml => ?_) fun _ _ _ hq => hq
      · rw [hseg, update_of_ne hm]
      · rw [hseg, update_self]
      · have hlists : ∀ k, m ∈ ((s.listRemove n).insertRear .dead n).lists k → m ∈ s.lists k := by
          intro k hk
          obtain ⟨rfl, hk⟩ | ⟨-, hk⟩ := update_cases (P := (m ∈ ·)) hk
          · exact (mem_append.1 hk).elim mem_of_mem_erase fun hn => absurd (mem_singleton.1 hn) hm
          · exact mem_of_mem_erase hk
        exact hml.imp (hlists .free) (Or.imp_left (hlists .dead))
  · nomatch ht
  · exact Except.ok.inj ht ▸ h

end

end SegTable

end SpriteKernel.Vm
