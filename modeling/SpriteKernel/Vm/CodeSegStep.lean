import SpriteKernel.Vm.CodeSegKeep

/- What each routine of the segment table does: which segment it moves, and where. -/
namespace SpriteKernel.Vm
open Function (update update_eq_self update_idem update_of_ne update_self)

open List
namespace SegTable
open Custody
variable {P : SegParams} {s t : SegTable} {n p : Nat} {u : SegTable} {a : Act} {l : SegList}

theorem kept_setAct (a : Act) : (s.setAct p a).kept = update s.kept (.hand p) a.hand := by
  funext q
  cases q with
  | on l =>
    rfl
  | hand q =>
    by_cases hq : q = p
    · subst hq
      rw [update_self]
      exact congrArg Act.hand (update_self _ _ _)
    · rw [update_of_ne fun he => hq (SegPlace.hand.inj he)]
      exact congrArg Act.hand (update_of_ne hq _ _)

theorem kept_insertRear (l : SegList) : (s.insertRear l n).kept = update s.kept (.on l) (s.lists l ++ [n]) := by
  funext q
  cases q with
  | hand q =>
    rfl
  | on k =>
    by_cases hk : k = l
    · subst hk
      rw [update_self]
      exact update_self _ _ _
    · rw [update_of_ne fun he => hk (SegPlace.on.inj he)]
      exact update_of_ne hk _ _

/-- What a process has in its hands stays there, or is nothing before and after. -/
theorem kept_setAct_same (h : a.hand = (s.act p).hand) : (s.setAct p a).kept = s.kept := by
  rw [kept_setAct, h]
  exact update_eq_self _ _

theorem moved_off (h : Apart s.kept) (hn : n ∈ s.lists l) : Moved s.kept (s.listRemove n).kept n none := by
  refine h.take (i := .on l) hn (fun q => ?_) rfl
  cases q with
  | on k => exact .inr rfl
  | hand q => exact .inl rfl

theorem moved_on (l : SegList) (h : Apart s.kept) (hn : ∀ q, n ∉ s.kept q) :
    Moved s.kept (s.insertRear l n).kept n (some (.on l)) := by
  rw [kept_insertRear]
  exact h.put hn (perm_append_singleton n _)

theorem moved_take (h : Apart s.kept) (hn : ∀ q, n ∉ s.kept q) (hp : (s.act p).hand = []) (ha : a.hand = [n]) :
    Moved s.kept (s.setAct p a).kept n (some (.hand p)) := by
  rw [kept_setAct, ha]
  refine h.put hn ?_
  show [n].Perm (n :: (s.act p).hand)
  rw [hp]

theorem moved_drop (h : Apart s.kept) (hp : (s.act p).hand = [n]) (ha : a.hand = []) :
    Moved s.kept (s.setAct p a).kept n none := by
  have hin : n ∈ s.kept (.hand p) := by
    show n ∈ (s.act p).hand
    rw [hp]
    exact mem_cons_self
  rw [kept_setAct, ha]
  refine h.take hin (fun q => ?_) ?_
  · by_cases hq : q = .hand p
    · subst hq
      rw [update_self]
      exact .inr (by rw [show s.kept (.hand p) = [n] from hp, erase_cons_head])
    · rw [update_of_ne hq]
      exact .inl rfl
  · rw [update_self, show s.kept (.hand p) = [n] from hp, erase_cons_head]

/-- A segment that no process has taken in hand, and is on no list, is where it was. -/
theorem moved_none (h : Apart s.kept) (hk : t.kept = s.kept) (hn : ∀ q, n ∉ s.kept q) : Moved s.kept t.kept n none := by
  rw [hk]
  exact h.stay hn

theorem Placed.not_kept (h : s.Placed P) (hp : (s.seg n).procList ≠ []) (q : SegPlace) : n ∉ s.kept q :=
  fun hq => hp (h.idle q n hq)

theorem Placed.share (h : s.Placed P) (hm : Moved s.kept u.kept n none) (hn : 0 < n ∧ n < P.numSegments)
    (hseg : ∀ m, m ≠ n → u.seg m = s.seg m) (hflag : (u.seg n).inactive = false)
    (hcount : (u.seg n).refCount = (u.seg n).procList.length) : (u.share n p).Placed P := by
  have hself : (u.share n p).seg n
      = { u.seg n with refCount := (u.seg n).refCount + 1, procList := p :: (u.seg n).procList } :=
    update_self _ _ _
  refine h.change (n := n) (d := none) hm hn (fun m hmn => ?_) ?_ ?_
  · exact (update_of_ne hmn _ _).trans (hseg m hmn)
  · rw [hself]
    exact ⟨cons_ne_nil _ _, hflag⟩
  · rw [hself]
    rw [hcount, length_cons, Int.natCast_succ]

theorem Placed.initSegment (h : s.Placed P) (hm : Moved s.kept u.kept n none)
    (hn : 0 < n ∧ n < P.numSegments) (hseg : ∀ m, u.seg m = s.seg m) (hidle : (s.seg n).procList = []) (type : SegType)
    (filePtr : Option Nat) : (u.initSegment p type filePtr n).Placed P := by
  have hself : (u.initSegment p type filePtr n).seg n = { u.seg n with
      fileHandle := none, free := false, inactive := false, dead := false, spoiled := false
      refCount := 1, filePtr := filePtr, type := type, procList := p :: (u.seg n).procList } :=
    update_self _ _ _
  refine h.change (n := n) (d := none) hm hn (fun m hmn => ?_) ?_ ?_
  · exact (update_of_ne hmn _ _).trans (hseg m)
  · rw [hself]
    exact ⟨cons_ne_nil _ _, rfl⟩
  · rw [hself, hseg n, hidle]
    rfl

/-- The segment that a file points back to, if no process has it in hand, is shared or inactive. -/
theorem Linked.place (hl : s.Linked P) {g : Nat} (hg : s.segPtr g = .seg n) (hfree : ∀ q, n ∉ (s.act q).hand) :
    (∀ q, n ∉ s.kept q) ∨ n ∈ s.lists .inactive := by
  obtain ⟨-, -, hfile⟩ := hl.back g n hg
  have hnl : ¬ s.Loose n := by
    intro hn
    rw [hl.loose n hn] at hfile
    nomatch hfile
  by_cases hin : n ∈ s.lists .inactive
  · exact .inr hin
  · refine .inl fun q hq => ?_
    cases q with
    | hand q => exact hfree q hq
    | on l =>
      cases l with
      | free => exact hnl (.inl hq)
      | inactive => exact hin hq
      | dead => exact hnl (.inr (.inl hq))

theorem Placed.findCode (h : s.Placed P) (hl : s.Linked P) {filePtr : Nat} (hp : (s.act p).hand = [])
    (hfree : ∀ n, s.segPtr (P.getFileHandle filePtr) = .seg n → ∀ q, n ∉ (s.act q).hand)
    (ht : s.findCode P p filePtr = .ok t) : t.Placed P := by
  unfold SegTable.findCode at ht
  rw [if_neg (by rw [hl.sticky]; decide)] at ht
  split at ht
  · cases ht
    exact h.frame (kept_setAct_same hp.symm) fun _ => ⟨rfl, rfl, rfl⟩
  · cases ht
    exact h.frame (kept_setAct_same hp.symm) fun _ => ⟨rfl, rfl, rfl⟩
  · next n hg =>
    obtain ⟨hpos, hlt, -⟩ := hl.back _ n hg
    have hplace := hl.place hg (hfree n hg)
    have hact : ∀ u : SegTable, u.act = s.act → (u.setAct p .none).kept = u.kept := fun u hu =>
      kept_setAct_same (by rw [hu]; exact hp.symm)
    split at ht
    · next hin =>
      split at ht
      · cases ht
      · cases ht
        have hinact : n ∈ s.lists .inactive := by
          refine hplace.resolve_left fun hno => ?_
          rw [(h.shared n hpos hlt hno).2] at hin
          cases hin
        obtain ⟨u, hu⟩ : ∃ u, u = (s.listRemove n).setSeg n { s.seg n with inactive := false, filePtr := some filePtr } :=
          ⟨_, rfl⟩
        have hself : u.seg n = { s.seg n with inactive := false, filePtr := some filePtr } := by
          rw [hu]
          exact update_self _ _ _
        have hoff : Moved s.kept u.kept n none := hu ▸ moved_off h.apart hinact
        have hsh := h.share (p := p) hoff ⟨hpos, hlt⟩ (fun m hm => by rw [hu]; exact update_of_ne hm _ _)
          (by rw [hself]) (by rw [hself]; exact h.counted n hpos)
        refine hsh.frame ?_ fun _ => by rw [hu]; exact ⟨rfl, rfl, rfl⟩
        rw [hu]
        exact hact _ rfl
    · next hin =>
      cases ht
      have hno := hplace.resolve_right fun hinact => hin (h.flagged n hinact)
      have hsh := h.share (p := p) (u := s) (h.apart.stay hno) ⟨hpos, hlt⟩ (fun _ _ => rfl) (h.shared n hpos hlt hno).2
        (h.counted n hpos)
      exact hsh.frame (hact (s.share n p) rfl) fun _ => ⟨rfl, rfl, rfl⟩

/-- A process takes a segment off a list, to delete it before it is used. -/
theorem Placed.recycle (h : s.Placed P) (hn : n ∈ s.lists l) (hp : s.act p = .none) (type : SegType)
    (filePtr : Option Nat) : ((s.listRemove n).setAct p (.recycling type filePtr n false)).Placed P := by
  have hoff := moved_off h.apart hn
  have htake := moved_take (p := p) (a := .recycling type filePtr n false) (hoff.apart h.apart)
    (fun q hq => nomatch (hoff.self q).1 hq) (by rw [show (s.listRemove n).act = s.act from rfl, hp]; rfl) rfl
  exact h.change (hoff.trans htake) (h.range (.on l) n hn) (fun _ _ => rfl) ⟨h.idle (.on l) n hn, nofun⟩
    (h.counted n (h.range (.on l) n hn).1)

theorem Placed.getNewSegment (h : s.Placed P) (hp : s.act p = .none) (type : SegType) (filePtr : Option Nat) :
    (s.getNewSegment p type filePtr).Placed P := by
  unfold SegTable.getNewSegment
  split
  · next n rest _ _ hd => exact h.recycle (l := .dead) (hd ▸ mem_cons_self) hp type filePtr
  · next _ n rest hd hf =>
    have hn : n ∈ s.lists .free := hf ▸ mem_cons_self
    exact h.initSegment (u := s.listRemove n) (moved_off h.apart hn) (h.range (.on .free) n hn) (fun _ => rfl)
      (h.idle (.on .free) n hn) type filePtr
  · next n rest hd hf hi => exact h.recycle (l := .inactive) (hi ▸ mem_cons_self) hp type filePtr
  · exact h

theorem hand_none : ((s.setAct p .none).act p).hand = [] := by
  rw [show (s.setAct p .none).act p = .none from update_self _ _ _]
  rfl

theorem setAct_setAct (a b : Act) : (s.setAct p a).setAct p b = s.setAct p b := by
  unfold setAct
  rw [update_idem]

section
variable (h : s.Placed P)
include h

/-- What is left of a deletion of a segment that nobody shares. -/
theorem Placed.deleteRest (hm : Moved s.kept (u.setAct p .none).kept n none)
    (hn : 0 < n ∧ n < P.numSegments) (hseg : ∀ m, m ≠ n → u.seg m = s.seg m) (hidle : (u.seg n).procList = [])
    (hcount : (u.seg n).refCount = 0) : (u.deleteRest p n).Placed P := by
  have hnone : ∀ q, n ∉ (u.setAct p .none).kept q := fun q hq => nomatch (hm.self q).1 hq
  have hap := hm.apart h.apart
  unfold SegTable.deleteRest
  dsimp only
  split
  · obtain ⟨e, he⟩ : ∃ e, e = { u.seg n with inactive := true, filePtr := Option.none } := ⟨_, rfl⟩
    rw [← he]
    have hself : (((u.setSeg n e).insertRear .inactive n).setAct p .none).seg n = e := update_self _ _ _
    refine h.change (hm.trans (moved_on .inactive hap hnone)) hn (fun m hmn => ?_) ?_ ?_
    · exact (update_of_ne hmn _ _).trans (hseg m hmn)
    · rw [hself, he]
      exact ⟨hidle, fun _ => rfl⟩
    · rw [hself, he]
      rw [hcount, hidle]
      rfl
  · have htake := moved_take (p := p) (a := .deleting n false) hap hnone
      hand_none rfl
    rw [setAct_setAct] at htake
    refine h.change (hm.trans htake) hn hseg ⟨hidle, nofun⟩ ?_
    show (u.seg n).refCount = ((u.seg n).procList.length : Int)
    rw [hcount, hidle]
    rfl

theorem Placed.segmentDeleteInt (hp : s.act p = .none) (hn : 0 < n ∧ n < P.numSegments)
    (ht : s.segmentDeleteInt p n = .ok t) : t.Placed P := by
  unfold SegTable.segmentDeleteInt at ht
  dsimp only at ht
  split at ht
  · nomatch ht
  · next hmem =>
    rw [not_not] at hmem
    have hno := h.not_kept (ne_nil_of_mem hmem)
    have hlen := length_erase_of_mem hmem
    have hpos := length_pos_of_mem hmem
    have hcount := h.counted n hn.1
    obtain ⟨u, hu⟩ : ∃ u, u = s.setSeg n { s.seg n with
        refCount := (s.seg n).refCount - 1, procList := (s.seg n).procList.erase p } := ⟨_, rfl⟩
    have hself : u.seg n = { s.seg n with
        refCount := (s.seg n).refCount - 1, procList := (s.seg n).procList.erase p } := by
      rw [hu]
      exact update_self _ _ _
    have hother : ∀ m, m ≠ n → u.seg m = s.seg m := fun m hm => by rw [hu]; exact update_of_ne hm _ _
    have hkept : (u.setAct p .none).kept = s.kept := by
      rw [kept_setAct_same (by rw [hu, show (s.setSeg n _).act = s.act from rfl, hp]), hu]
      rfl
    rw [← hu, hself] at ht
    dsimp only at ht
    split at ht
    · cases ht
      refine h.change (d := none) (n := n) ?_ hn hother ?_ ?_
      · rw [hu]
        exact h.apart.stay hno
      · rw [hself]
        refine ⟨fun he => ?_, (h.shared n hn.1 hn.2 hno).2⟩
        have he : (s.seg n).procList.erase p = [] := he
        rw [he, length_nil] at hlen
        omega
      · rw [hself]
        show (s.seg n).refCount - 1 = (((s.seg n).procList.erase p).length : Int)
        omega
    · have hidle : (u.seg n).procList = [] := by
        rw [hself]
        refine eq_nil_of_length_eq_zero ?_
        show ((s.seg n).procList.erase p).length = 0
        omega
      have hzero : (u.seg n).refCount = 0 := by
        rw [hself]
        show (s.seg n).refCount - 1 = 0
        omega
      have hnone : Moved s.kept (u.setAct p .none).kept n none := moved_none h.apart hkept hno
      split at ht
      · cases ht
        have htake := moved_take (p := p) (a := .draining n) (hnone.apart h.apart)
          (fun q hq => nomatch (hnone.self q).1 hq) hand_none rfl
        rw [setAct_setAct] at htake
        refine h.change (hnone.trans htake) hn hother ⟨hidle, nofun⟩ ?_
        show (u.seg n).refCount = ((u.seg n).procList.length : Int)
        rw [hzero, hidle]
        rfl
      · cases ht
        exact h.deleteRest hnone hn hother hidle hzero

theorem Placed.putDown (hp : (s.act p).hand = [n]) :
    Moved s.kept (s.setAct p .none).kept n none ∧ (0 < n ∧ n < P.numSegments) ∧ (s.seg n).procList = [] ∧
      (s.seg n).refCount = 0 := by
  have hin : n ∈ s.kept (.hand p) := by
    show n ∈ (s.act p).hand
    rw [hp]
    exact mem_cons_self
  have hidle := h.idle _ n hin
  refine ⟨moved_drop h.apart hp rfl, h.range _ n hin, hidle, ?_⟩
  rw [h.counted n (h.range _ n hin).1, hidle]
  rfl

theorem Placed.drained (hp : s.act p = .draining n) : (s.deleteRest p n).Placed P := by
  obtain ⟨hm, hn, hidle, hzero⟩ := h.putDown (p := p) (n := n) (by rw [hp]; rfl)
  exact h.deleteRest hm hn (fun _ _ => rfl) hidle hzero

end

theorem cleanSegment_rest : (s.cleanSegment n).lists = s.lists ∧ (s.cleanSegment n).act = s.act ∧
    (s.cleanSegment n).setup = s.setup ∧ (s.cleanSegment n).noStickySegments = s.noStickySegments ∧
    (s.cleanSegment n).seg = update s.seg n { s.seg n with dead := true, fileHandle := none, filePtr := none } := by
  unfold cleanSegment
  split <;> exact ⟨rfl, rfl, rfl, rfl, rfl⟩

section
variable (h : s.Placed P)
include h

theorem Placed.cleanSegment (ha : a.hand = (s.act p).hand) : ((s.cleanSegment n).setAct p a).Placed P := by
  obtain ⟨hl, hact, -, -, hseg⟩ := cleanSegment_rest (s := s) (n := n)
  refine h.frame ?_ fun m => ?_
  · rw [kept_setAct_same (by rw [hact, ha])]
    funext q
    cases q with
    | on l => exact congrFun hl l
    | hand q => exact congrArg Act.hand (congrFun hact q)
  · show ((s.cleanSegment n).seg m).procList = _ ∧ ((s.cleanSegment n).seg m).refCount = _ ∧
      ((s.cleanSegment n).seg m).inactive = _
    rw [hseg]
    by_cases hm : m = n
    · subst hm
      rw [update_self]
      exact ⟨rfl, rfl, rfl⟩
    · rw [update_of_ne hm]
      exact ⟨rfl, rfl, rfl⟩

theorem Placed.newAgain {type : SegType} {filePtr : Option Nat} {c : Bool}
    (hp : s.act p = .recycling type filePtr n c) : ((s.initSegment p type filePtr n).setAct p .none).Placed P := by
  obtain ⟨hm, hn, hidle, -⟩ := h.putDown (p := p) (n := n) (by rw [hp]; rfl)
  exact h.initSegment (u := s.setAct p .none) hm hn (fun _ => rfl) hidle type filePtr

theorem Placed.putOnFreeSegList {c : Bool} (hp : s.act p = .deleting n c) :
    ((s.putOnFreeSegList n).setAct p .none).Placed P := by
  obtain ⟨hm, hn, hidle, hzero⟩ := h.putDown (p := p) (n := n) (by rw [hp]; rfl)
  have hself : ((s.putOnFreeSegList n).setAct p .none).seg n
      = { s.seg n with free := true, inactive := false, dead := false, spoiled := false } := update_self _ _ _
  have hput := moved_on .free (hm.apart h.apart) (fun q hq => nomatch (hm.self q).1 hq)
  refine h.change (hm.trans hput) hn (fun m hmn => update_of_ne hmn _ _) ?_ ?_
  · rw [hself]
    exact ⟨hidle, nofun⟩
  · rw [hself]
    rw [hzero, hidle]
    rfl

theorem Placed.fileChanged (hl : s.Linked P) {g : Nat}
    (hfree : ∀ n, s.segPtr g = .seg n → ∀ q, n ∉ (s.act q).hand) (ht : s.fileChanged g = .ok t) : t.Placed P := by
  unfold SegTable.fileChanged at ht
  split at ht
  · next n hg =>
    split at ht
    · nomatch ht
    · cases ht
      obtain ⟨hpos, hlt, -⟩ := hl.back g n hg
      have hcount := h.counted n hpos
      have hin : n ∈ s.lists .inactive := by
        refine (hl.place hg (hfree n hg)).resolve_left fun hno => (h.shared n hpos hlt hno).1 ?_
        refine eq_nil_of_length_eq_zero ?_
        omega
      have hoff := moved_off h.apart hin
      have hput := moved_on .dead (hoff.apart h.apart) (fun q hq => nomatch (hoff.self q).1 hq)
      have hself : ∀ e, ((((s.listRemove n).insertRear .dead n).setSegPtr g .nil).setSeg n e).seg n = e :=
        fun _ => update_self _ _ _
      refine h.change (hoff.trans hput) ⟨hpos, hlt⟩ (fun m hmn => update_of_ne hmn _ _) ?_ ?_
      · rw [hself]
        exact ⟨h.idle (.on .inactive) n hin, nofun⟩
      · rw [hself]
        exact hcount
  · nomatch ht
  · exact Except.ok.inj ht ▸ h

end

end SegTable

end SpriteKernel.Vm
