import SpriteKernel.Fscache.CacheFetch

/- Pages are given back: one of the totally-free list, or one of which a block has been fetched from the LRU
   list, whose other block, if it has one, is not in use. -/
namespace SpriteKernel.Fscache

open Function List
open Shelves Tally
variable {c : CacheConfig} {s t : BlockCache} {pending : Set BlockHashKey} {held : Nat → Int} {out : Nat → BlockOut} {a b : Nat}
variable {l : List Nat}

theorem find?_erase {p : Nat → Bool} (hb : p b = false) : (l.erase b).find? p = l.find? p := by
  induction l with
  | nil => rfl
  | cons a l ih =>
    by_cases hab : a = b
    · subst hab
      rw [erase_cons_head, List.find?_cons_of_neg (by rw [hb]; decide)]
    · rw [erase_cons_tail (by simpa using hab)]
      cases hp : p a with
      | true => rw [List.find?_cons_of_pos hp, List.find?_cons_of_pos hp]
      | false => rw [List.find?_cons_of_neg (by rw [hp]; decide), List.find?_cons_of_neg (by rw [hp]; decide), ih]

theorem find?_congr_mem {p q : Nat → Bool} (h : ∀ x ∈ l, p x = q x) : l.find? p = l.find? q := by
  induction l with
  | nil => rfl
  | cons x l ih =>
    rw [List.find?_cons, List.find?_cons, h x mem_cons_self, ih fun y hy => h y (mem_cons_of_mem x hy)]

/-- The first element with a property is the first with a stronger one that it has too. -/
theorem find?_stronger {p q : Nat → Bool} (h : l.find? p = some b) (hq : q b = true) (himp : ∀ a, q a = true → p a = true) :
    l.find? q = some b := by
  induction l with
  | nil => cases h
  | cons a l ih =>
    cases hp : p a with
    | true =>
      rw [List.find?_cons_of_pos hp] at h
      cases h
      exact List.find?_cons_of_pos hq
    | false =>
      rw [List.find?_cons_of_neg (by rw [hp]; decide)] at h
      rw [List.find?_cons_of_neg (fun hqa => by rw [himp a hqa] at hp; cases hp)]
      exact ih h

theorem unmapped_ok {block : FscacheBlock} {x : View} {n : Int} {o : BlockOut} (hx : x = viewOf false { block with flags := { notMapped := true } })
    (hrc : block.refCount = 0) (hn : n = 0) (ho : o = .kept) : BlockOk c x n o ∧ x.place = .unmapped := by
  subst hx
  exact ⟨⟨hrc, hn, ho, rfl, rfl⟩, rfl⟩

theorem Accounts.destroyTot (h : Accounts c none pending s held out) (hb : b ∈ s.use .totFree) :
    Accounts c none pending
      (let s := ((s.setFlags b { notMapped := true }).moveRear .unmapped b).addFree (-1)
       let s := if c.pageIs8K then ((s.setFlags (otherBlock b) { notMapped := true }).moveRear .unmapped (otherBlock b)).addFree (-1) else s
       s.unmapPage c) held out := by
  obtain ⟨hlt, hp, hpo⟩ := h.listed.totFree hb
  obtain ⟨hrc, hheld, hkept⟩ := h.empty_ok (.inr hp)
  obtain ⟨x, hx⟩ : ∃ x, x = viewOf false { s.blocks b with flags := { notMapped := true } } := ⟨_, rfl⟩
  obtain ⟨y, hy⟩ : ∃ y, y = viewOf false { s.blocks (otherBlock b) with flags := { notMapped := true } } := ⟨_, rfl⟩
  obtain ⟨hxok, hxp⟩ := @unmapped_ok c _ x (held b) (out b) hx hrc hheld hkept
  have hyp : y.place = .unmapped := by
    rw [hy]
    rfl
  obtain ⟨hxa, hxf, hxc⟩ := unmapped_counts hxp
  obtain ⟨hya, hyf, hyc⟩ := unmapped_counts hyp
  obtain ⟨hva, hvf, hvc⟩ := free_counts hp
  refine Accounts.checkAvail ?_
  have hother : update s.blocks b { s.blocks b with flags := ({ notMapped := true } : BlockFlags) } (otherBlock b) =
      s.blocks (otherBlock b) := update_of_ne otherBlock_ne _ _
  refine @Accounts.changeEmpty c s _ pending held out b x y none none h ?_ ?_ ?_ hxok (fun h8 => ?_) (by rw [hxp]; decide) (by rw [hyp]; decide)
    (by rw [hp]; decide) (fun h8 => by rw [hpo h8]; decide) ?_ ?_ ?_ ?_ ?_
  · rw [hx, hy]
    refine view_page ?_ (fun h8 => ?_) (fun a ha ho => ?_) (fun _ _ => Iff.rfl) fun _ => nofun
    · by_cases h8 : c.pageIs8K = true
      · rw [if_pos h8]
        exact (update_of_ne otherBlock_ne.symm _ _).trans (update_self _ _ _)
      · rw [if_neg h8]
        exact update_self _ _ _
    · rw [if_pos h8]
      refine (update_self _ _ _).trans ?_
      exact congrArg (fun block : FscacheBlock => { block with flags := ({ notMapped := true } : BlockFlags) }) hother
    · by_cases h8 : c.pageIs8K = true
      · rw [if_pos h8]
        exact (update_of_ne (ho h8) _ _).trans (update_of_ne ha _ _)
      · rw [if_neg h8]
        exact update_of_ne ha _ _
  · by_cases h8 : c.pageIs8K = true
    · rw [if_pos h8]
      exact h.calm
    · rw [if_neg h8]
      exact h.calm
  · have hl := h.listed.destroyTot (x := x) (y := y) hlt hxp hyp
    unfold destroyTotLists at hl
    by_cases h8 : c.pageIs8K = true
    · rw [if_pos h8] at hl ⊢
      exact hl
    · rw [if_neg h8] at hl ⊢
      exact hl
  · obtain ⟨hrc', hheld', hkept'⟩ := h.empty_ok (.inr (hpo h8))
    exact (@unmapped_ok c _ y _ _ hy hrc' hheld' hkept').1
  · split <;> rfl
  · split <;> rfl
  · rw [blocksPerPage_eq, hxa, hva, hya]
    by_cases h8 : c.pageIs8K = true
    · rw [if_pos h8, if_pos h8, if_pos h8, (free_counts (hpo h8)).1]
      show s.numAvailBlocks + -(1 + 1) = _
      omega
    · rw [if_neg h8, if_neg h8, if_neg h8]
      show s.numAvailBlocks + -(1 + 0) = _
      omega
  · rw [hxf, hvf, hyf]
    by_cases h8 : c.pageIs8K = true
    · rw [if_pos h8, if_pos h8, (free_counts (hpo h8)).2.1]
      show s.numFreeBlocks + -1 + -1 = _
      omega
    · rw [if_neg h8, if_neg h8]
      show s.numFreeBlocks + -1 = _
      omega
  · rw [blocksPerPage_eq, hxc, hvc, hyc]
    by_cases h8 : c.pageIs8K = true
    · rw [if_pos h8, if_pos h8, if_pos h8, (free_counts (hpo h8)).2.2]
      show s.numCacheBlocks + -(1 + 1) = _
      omega
    · rw [if_neg h8, if_neg h8, if_neg h8]
      show s.numCacheBlocks + -(1 + 0) = _
      omega

theorem loose_counts {x : View} (h : x.place = .loose) : x.availOf = 1 ∧ x.freeOf = 0 ∧ x.cacheOf = 1 := by
  unfold View.availOf View.freeOf View.cacheOf
  rw [h]
  exact ⟨rfl, rfl, rfl⟩

theorem Accounts.destroyOne (h : Accounts c (some b) pending s held out) (h8 : c.pageIs8K ≠ true) :
    Accounts c none pending (((s.setFlags b { notMapped := true }).insertRear .unmapped b).unmapPage c) held out := by
  obtain ⟨hrc, hheld, hkept, hlt⟩ := h.loose_ok
  obtain ⟨x, hx⟩ : ∃ x, x = viewOf false { s.blocks b with flags := { notMapped := true } } := ⟨_, rfl⟩
  obtain ⟨hxok, hxp⟩ := @unmapped_ok c _ x (held b) (out b) hx hrc hheld hkept
  obtain ⟨hxa, hxf, hxc⟩ := unmapped_counts hxp
  obtain ⟨hva, hvf, hvc⟩ := loose_counts (@view_place_loose s b)
  refine Accounts.checkAvail ?_
  refine @Accounts.changeEmpty c s _ pending held out b x x (some b) none h ?_ h.calm ?_ hxok (fun hp => absurd hp h8) (by rw [hxp]; decide)
    (by rw [hxp]; decide) (by rw [view_place_loose]; decide) (fun hp => absurd hp h8) rfl rfl ?_ ?_ ?_
  · have hpv : pageViews c (s.view (some b)) b x x = update (s.view (some b)) b x := if_neg h8
    rw [hpv, hx]
    exact view_update rfl (loose_iff' b)
  · have hl := h.listed.destroyLoose (x := x) (y := x) view_place_loose hxp hxp
    unfold destroyLooseLists at hl
    rw [if_neg h8] at hl
    exact hl
  · rw [blocksPerPage_eq, hxa, hva, if_neg h8, if_neg h8]
    show s.numAvailBlocks + -(1 + 0) = _
    omega
  · rw [hxf, hvf, if_neg h8]
    show s.numFreeBlocks = _
    omega
  · rw [blocksPerPage_eq, hxc, hvc, if_neg h8, if_neg h8]
    show s.numCacheBlocks + -(1 + 0) = _
    omega

theorem Accounts.destroyBoth (h : Accounts c (some b) pending s held out) (h8 : c.pageIs8K = true)
    (huse : (s.blocks (otherBlock b)).inUse = false) (hfree : (s.blocks (otherBlock b)).flags.free = false) :
    Accounts c none pending
      (let s := s.deleteBlock (otherBlock b)
       let s := (s.setFlags (otherBlock b) { notMapped := true }).moveRear .unmapped (otherBlock b)
       ((s.setFlags b { notMapped := true }).insertRear .unmapped b).unmapPage c) held out := by
  obtain ⟨hrc, hheld, hkept, hlt⟩ := h.loose_ok
  have hne : (some b : Option Nat) ≠ some (otherBlock b) := fun heq => otherBlock_ne (Option.some.inj heq).symm
  unfold FscacheBlock.inUse FscacheBlock.dirtyOrWritten at huse
  simp only [Bool.or_eq_false_iff, decide_eq_false_iff_not] at huse
  obtain ⟨hz, hclean, hnotw⟩ := huse
  have hvo : s.view (some b) (otherBlock b) = viewOf false (s.blocks (otherBlock b)) := view_of_ne hne
  have hmapped : (s.view (some b) (otherBlock b)).place ≠ .unmapped := by
    rw [ne_eq, ← h.listed.pages h8 b hlt, view_place_loose]
    decide
  -- what the other block can be
  have hok := h.blocks (otherBlock b)
  unfold BlockOk at hok
  have hpo : (s.view (some b) (otherBlock b)).place = .cached := by
    cases hp : (s.view (some b) (otherBlock b)).place with
    | cached => rfl
    | unmapped => exact absurd hp hmapped
    | free => exact absurd ((h.other_free h8).1 hp) (by rw [hfree]; decide)
    | loose =>
      rw [hvo] at hp
      unfold viewOf placeOf at hp
      cases hm : (s.blocks (otherBlock b)).flags.notMapped <;> cases hf : (s.blocks (otherBlock b)).flags.free <;>
        cases hd : (s.blocks (otherBlock b)).flags.deleted <;> simp [hm, hf, hd] at hp
    | deleted =>
      rw [hp, hvo] at hok
      obtain ⟨-, -, hd | hw⟩ := hok
      · exact absurd (hclean.symm.trans hd) (by decide)
      · exact absurd (hnotw.symm.trans hw) (by decide)
  rw [hpo] at hok
  have hidle := hok.idle (by rw [hvo]; exact hz)
  obtain ⟨x, hx⟩ : ∃ x, x = viewOf false { s.blocks b with flags := { notMapped := true } } := ⟨_, rfl⟩
  obtain ⟨y, hy⟩ : ∃ y, y = viewOf false { s.blocks (otherBlock b) with flags := { notMapped := true } } := ⟨_, rfl⟩
  obtain ⟨hxok, hxp⟩ := @unmapped_ok c _ x (held b) (out b) hx hrc hheld hkept
  obtain ⟨hyok, hyp⟩ := @unmapped_ok c _ y (held (otherBlock b)) (out (otherBlock b)) hy
    (by have := hidle.1; rw [hvo] at this; exact this) hidle.2.1 hidle.2.2.1
  obtain ⟨hxa, hxf, hxc⟩ := unmapped_counts hxp
  obtain ⟨hya, hyf, hyc⟩ := unmapped_counts hyp
  obtain ⟨hva, hvf, hvc⟩ := loose_counts (@view_place_loose s b)
  have hxe : ¬ (x.place = .cached ∨ x.place = .deleted) := by
    rw [hxp]
    decide
  have hye : ¬ (y.place = .cached ∨ y.place = .deleted) := by
    rw [hyp]
    decide
  have hle : ¬ ((s.view (some b) b).place = .cached ∨ (s.view (some b) b).place = .deleted) := by
    rw [view_place_loose]
    decide
  have hoa : (s.view (some b) (otherBlock b)).availOf = 1 := by
    rw [availOf_there (.inl hpo), if_pos ⟨hidle.1, by rw [hvo]; exact hclean, hidle.2.2.2⟩]
  have hself := h.hashed.self hpo
  have hkey : s.hash ((s.blocks (otherBlock b)).cacheInfo, (s.blocks (otherBlock b)).blockNum) = some (some (otherBlock b)) := by
    rw [hvo] at hself
    exact hself
  have hfiles := fun g => @files_addBlocksInCache s (s.blocks (otherBlock b)).cacheInfo (-1) g
  have hdelete : s.deleteBlock (otherBlock b) =
      (s.hashDelete ((s.blocks (otherBlock b)).cacheInfo, (s.blocks (otherBlock b)).blockNum)).addBlocksInCache (s.blocks (otherBlock b)).cacheInfo (-1) := by
    unfold BlockCache.deleteBlock
    dsimp only
    rw [hkey]
  have hpv : pageViews c (s.view (some b)) b x y = update (update (s.view (some b)) b x) (otherBlock b) y := if_pos h8
  have hv : update (s.view (some b)) b x (otherBlock b) = s.view (some b) (otherBlock b) := update_of_ne otherBlock_ne _ _
  rw [hdelete]
  refine Accounts.checkAvail ?_
  refine @Accounts.changePage c s _ pending held out b x y (some b) none h ?_ h.calm ?_ hxok (fun _ => hyok) ?_ ?_ ?_
  · rw [hx, hy]
    refine view_page ?_ (fun _ => ?_) (fun a ha ho => ?_) (loose_iff' b) fun _ => nofun
    · refine (update_self _ _ _).trans ?_
      have hfirst : update s.blocks (otherBlock b) { s.blocks (otherBlock b) with flags := ({ notMapped := true } : BlockFlags) } b =
          s.blocks b := update_of_ne otherBlock_ne.symm _ _
      exact congrArg (fun block : FscacheBlock => { block with flags := ({ notMapped := true } : BlockFlags) }) hfirst
    · exact (update_of_ne otherBlock_ne _ _).trans (update_self _ _ _)
    · exact (update_of_ne ha _ _).trans (update_of_ne (ho h8) _ _)
  · have hl := h.listed.destroyLoose (x := x) (y := y) view_place_loose hxp hyp
    unfold destroyLooseLists at hl
    rw [if_pos h8] at hl
    exact hl
  · rw [hpv]
    have hfirst : Hashed (update (s.view (some b)) b x) pending s.hash :=
      h.hashed.keep ⟨fun hc => absurd (.inl hc) hxe, fun hc => absurd (.inl hc) hle⟩ fun hc => absurd (.inl hc) hxe
    refine hfirst.delete (by rw [hv]; exact hpo) (by rw [hyp]; decide) ?_
    rw [hv, hvo]
    rfl
  · rw [hpv]
    have hlists : (fun g => ((s.addBlocksInCache (s.blocks (otherBlock b)).cacheInfo (-1)).files g).dirtyList) = fun g => (s.files g).dirtyList :=
      funext fun g => (hfiles g).1
    have hfirst : Shelved (fun f => (s.files f).dirtyList) (dirtyHome (update (s.view (some b)) b x) out) := by
      refine shelved_dirtyHome_keep h.dirty (fun _ _ => rfl) ?_
      rw [dirtyHome_self, if_neg fun hd => hxe hd.1]
      exact (if_neg fun hd => hle hd.1).symm
    refine shelved_dirtyHome_keep (hlists ▸ hfirst) (fun _ _ => rfl) ?_
    rw [dirtyHome_self, if_neg fun hd => hye hd.1]
    refine (if_neg fun hd => ?_).symm
    rw [hv, hvo] at hd
    exact absurd (hclean.symm.trans hd.2.1) (by decide)
  · rw [hpv]
    have hfirst : Counted (update (s.view (some b)) b x) (s.numAvailBlocks + (x.availOf - (s.view (some b) b).availOf))
        (s.numFreeBlocks + (x.freeOf - (s.view (some b) b).freeOf)) (s.numCacheBlocks + (x.cacheOf - (s.view (some b) b).cacheOf)) s.files := by
      refine h.counted.change b x rfl rfl rfl (fun f => ?_) fun f => ?_
      · rw [inFileOf_elsewhere hxe, inFileOf_elsewhere hle]
        exact (Int.add_zero _).symm
      · rw [dirtyOf_elsewhere hxe, dirtyOf_elsewhere hle]
        exact (Int.add_zero _).symm
    refine hfirst.change (otherBlock b) y ?_ ?_ ?_ (fun g => ?_) fun g => ?_
    · rw [hv, blocksPerPage_eq, if_pos h8, hxa, hya, hva, hoa]
      show s.numAvailBlocks + -(1 + 1) = _
      omega
    · rw [hv, hxf, hyf, hvf]
      unfold View.freeOf
      rw [hpo, if_neg (by decide)]
      show s.numFreeBlocks = _
      omega
    · rw [hv, blocksPerPage_eq, if_pos h8, hxc, hyc, hvc]
      unfold View.cacheOf
      rw [hpo, if_neg (by decide)]
      show s.numCacheBlocks + -(1 + 1) = _
      omega
    · rw [hv, inFileOf_elsewhere hye, inFileOf_there (.inl hpo), hvo]
      refine (hfiles g).2.1.trans ?_
      show _ = _ + (0 - if (s.blocks (otherBlock b)).cacheInfo = g then 1 else 0)
      split <;> omega
    · rw [hv, dirtyOf_elsewhere hye, hvo, dirtyOf_clean hclean hnotw, Int.sub_zero, Int.add_zero]
      exact (hfiles g).2.2

/-! ### DestroyBlock -/

/-- With pages of 8K, none of them free as a whole, the page given back has no free block. -/
def BlockCache.ShrinkAllowed (c : CacheConfig) (s : BlockCache) : Prop :=
  c.pageIs8K = true → s.use .totFree = [] →
    s.numAvailBlocks - c.blocksPerPage ≥ s.minNumAvailBlocks → s.numCacheBlocks - fscacheMinBlocks - c.blocksPerPage ≥ s.minNumAvailBlocks →
    ∀ b, (s.use .lru).find? (fun b => (s.blocks b).unneeded && !(s.blocks (otherBlock b)).inUse) = some b →
      (s.blocks (otherBlock b)).flags.free = false

theorem putOnFreeList_lru (h8 : c.pageIs8K = true) (hf : (s.blocks (otherBlock b)).flags.free = false) :
    (s.putOnFreeList c b).use .lru = s.use .lru ∧ ∀ a, a ≠ b → (s.putOnFreeList c b).blocks a = s.blocks a := by
  have hother : ((s.setFlags b { free := true }).addFree 1).blocks (otherBlock b) = s.blocks (otherBlock b) :=
    update_of_ne otherBlock_ne _ _
  unfold BlockCache.putOnFreeList
  dsimp only
  rw [hother, if_pos h8, if_neg (by rw [hf]; decide)]
  exact ⟨rfl, fun a ha => update_of_ne ha _ _⟩

theorem Accounts.destroyLoop (n : Nat) (h : Accounts c none pending s held out)
    (hallow : c.pageIs8K = true → ∀ b, (s.use .lru).find? (fun b => (s.blocks b).unneeded && !(s.blocks (otherBlock b)).inUse) = some b →
      (s.blocks (otherBlock b)).flags.free = false) :
    Accounts c none pending (BlockCache.destroyLoop c n s).1 held out := by
  induction n generalizing s with
  | zero => exact h
  | succ n ih =>
    unfold BlockCache.destroyLoop
    obtain ⟨t, -, ht, heq, -⟩ | ⟨t, b, hm, hfirst, heq, hloose⟩ := @Accounts.fetchBlock c s pending held out false h
    · rw [heq]
      exact ht
    · rw [heq]
      dsimp only
      have hblocks : ∀ a, ((t.remove b).deleteBlock b).blocks a = t.blocks a := by
        intro a
        unfold BlockCache.deleteBlock
        dsimp only
        split <;> rfl
      have hlru : ((t.remove b).deleteBlock b).use .lru = (s.use .lru).erase b := by
        have hrem : ((t.remove b).deleteBlock b).use = (t.remove b).use := by
          unfold BlockCache.deleteBlock
          dsimp only
          split <;> rfl
        rw [hrem, ← hm.use]
        rfl
      rw [hblocks, hm.inUse, hm.flagsFree]
      split
      next h8 =>
        split
        next huse =>
          -- the other block of the page is in use: this one is free, and the search goes on
          have hofree : (((t.remove b).deleteBlock b).blocks (otherBlock b)).flags.free = false := by
            rw [hblocks, hm.flagsFree, Bool.eq_false_iff]
            intro hf
            have hp := (hloose.other_free h8).2 (by rw [hblocks, hm.flagsFree]; exact hf)
            have hok := hloose.blocks (otherBlock b)
            unfold BlockOk at hok
            rw [hp] at hok
            have hne : (some b : Option Nat) ≠ some (otherBlock b) := fun heq => otherBlock_ne (Option.some.inj heq).symm
            rw [view_of_ne hne, hblocks] at hok
            have huse' : (t.blocks (otherBlock b)).inUse = true := by
              rw [hm.inUse]
              exact huse
            unfold FscacheBlock.inUse FscacheBlock.dirtyOrWritten at huse'
            obtain ⟨h₁, -, -, h₂, h₃⟩ := hok
            unfold viewOf at h₁ h₂ h₃
            dsimp only at h₁ h₂ h₃
            rw [h₁, h₂, h₃] at huse'
            cases huse'
          obtain ⟨hl, hb⟩ := putOnFreeList_lru h8 hofree
          refine ih hloose.putOnFreeList fun _ a ha => ?_
          have hnot : (fun a => (s.blocks a).unneeded && !(s.blocks (otherBlock a)).inUse) b = false := by
            dsimp only
            rw [huse]
            simp
          -- what is looked for has not changed
          have hcongr : ((s.use .lru).erase b).find? (fun a => ((((t.remove b).deleteBlock b).putOnFreeList c b).blocks a).unneeded &&
              !((((t.remove b).deleteBlock b).putOnFreeList c b).blocks (otherBlock a)).inUse) =
              ((s.use .lru).erase b).find? fun a => (s.blocks a).unneeded && !(s.blocks (otherBlock a)).inUse := by
            refine find?_congr_mem fun a ha => ?_
            have hab : a ≠ b := fun heq => by
              subst heq
              exact ((h.listed.lists.nodup .lru).mem_erase_iff.1 ha).1 rfl
            rw [hb a hab, hblocks, hm.unneeded]
            by_cases hao : otherBlock a = b
            · obtain rfl := otherBlock_eq_iff.1 hao
              have hun : (s.blocks (otherBlock b)).unneeded = false := by
                unfold FscacheBlock.inUse at huse
                unfold FscacheBlock.unneeded
                rw [Bool.or_eq_true] at huse
                obtain hr | hd := huse
                · rw [hr]
                  rfl
                · rw [hd]
                  simp
              rw [hun, Bool.false_and, Bool.false_and]
            · rw [hb _ hao, hblocks, hm.inUse]
          rw [hl, hlru, hcongr, find?_erase hnot] at ha
          have hfree := hallow h8 a ha
          by_cases hao : otherBlock a = b
          · obtain rfl := otherBlock_eq_iff.1 hao
            have hp := List.find?_some ha
            rw [Bool.and_eq_true] at hp
            have hun := (unneeded_iff hp.1)
            unfold FscacheBlock.inUse at huse
            rw [Bool.or_eq_true, decide_eq_true_iff] at huse
            obtain hr | hd := huse
            · exact absurd hr hun.1
            · rw [hun.2.1] at hd
              cases hd
          · rw [hb _ hao, hblocks, hm.flagsFree]
            exact hfree
        next huse =>
          have hmatch : (s.use .lru).find? (fun b => (s.blocks b).unneeded && !(s.blocks (otherBlock b)).inUse) = some b := by
            refine find?_stronger hfirst ?_ fun a ha => ?_
            · rw [List.find?_some hfirst, Bool.eq_false_iff.2 huse]
              rfl
            · exact (Bool.and_eq_true_iff.1 ha).1
          have hfree := hallow h8 b hmatch
          rw [if_neg (by rw [hfree]; decide)]
          refine hloose.destroyBoth h8 ?_ ?_
          · rw [hblocks, hm.inUse]
            exact Bool.eq_false_iff.2 huse
          · rw [hblocks, hm.flagsFree]
            exact hfree
      next h8 => exact hloose.destroyOne h8

theorem Accounts.destroyBlock (h : Accounts c none pending s held out) (hallow : s.ShrinkAllowed c) :
    Accounts c none pending (s.destroyBlock c).1 held out := by
  unfold BlockCache.destroyBlock
  split
  next => exact h
  next hroom =>
    split
    next b rest htot => exact h.destroyTot (htot ▸ mem_cons_self)
    next htot => exact h.destroyLoop _ fun h8 b hb => hallow h8 htot (by omega) (by omega) b hb

end SpriteKernel.Fscache
