import SpriteKernel.Fscache.CacheInv

/- Blocks that change their place: they are taken from the hash table and the lists, put on a free list,
   taken from one, entered under a key, mapped and unmapped. -/
namespace SpriteKernel.Fscache

open Function View
open Shelves Tally
variable {c : CacheConfig} {s t : BlockCache} {pending : Set BlockHashKey}
  {held : Nat → Int} {out : Nat → BlockOut} {a b f : Nat} {key : BlockHashKey}

variable {x : View}

theorem Owned.idle {n : Int} {o : BlockOut} (h : Owned c x n o) (hz : ¬ x.refCount > 0) :
    x.refCount = 0 ∧ n = 0 ∧ o = .kept ∧ x.beingWritten = false := by
  have hnonneg := h.nonneg
  have hrefs := h.refs
  have hkept : o = .kept := by
    by_contra hne
    rw [if_neg hne] at hrefs
    omega
  refine ⟨by omega, by omega, hkept, ?_⟩
  rw [Bool.eq_false_iff]
  intro hw
  exact h.written.1 hw hkept

/-- A file whose dirty list changes alone. -/
theorem files_relist {x : FileInfo} (hblocks : x.blocksInCache = (s.files f).blocksInCache)
    (hdirty : x.numDirtyBlocks = (s.files f).numDirtyBlocks) (g : Nat) :
    (update s.files f x g).dirtyList = update (fun g => (s.files g).dirtyList) f x.dirtyList g ∧
    (update s.files f x g).blocksInCache = (s.files g).blocksInCache ∧
    (update s.files f x g).numDirtyBlocks = (s.files g).numDirtyBlocks := by
  by_cases hg : g = f
  · subst hg
    rw [update_self, update_self]
    exact ⟨rfl, hblocks, hdirty⟩
  · rw [update_of_ne hg, update_of_ne hg]
    exact ⟨rfl, rfl, rfl⟩

/-- A file that changes in nothing of these. -/
theorem files_same {x : FileInfo} (h : x.dirtyList = (s.files f).dirtyList ∧ x.blocksInCache = (s.files f).blocksInCache ∧
    x.numDirtyBlocks = (s.files f).numDirtyBlocks) (g : Nat) :
    (update s.files f x g).dirtyList = (s.files g).dirtyList ∧ (update s.files f x g).blocksInCache = (s.files g).blocksInCache ∧
    (update s.files f x g).numDirtyBlocks = (s.files g).numDirtyBlocks :=
  update_rel (R := fun x y : FileInfo => x.dirtyList = y.dirtyList ∧ x.blocksInCache = y.blocksInCache ∧
    x.numDirtyBlocks = y.numDirtyBlocks) h (fun _ => ⟨rfl, rfl, rfl⟩) g

theorem files_addBlocksInCache {n : Int} (g : Nat) : ((s.addBlocksInCache f n).files g).dirtyList = (s.files g).dirtyList ∧
    ((s.addBlocksInCache f n).files g).blocksInCache = (s.files g).blocksInCache + (if f = g then n else 0) ∧
    ((s.addBlocksInCache f n).files g).numDirtyBlocks = (s.files g).numDirtyBlocks := by
  unfold BlockCache.addBlocksInCache BlockCache.setFile
  dsimp only
  by_cases hg : g = f
  · subst hg
    rw [update_self, if_pos rfl]
    exact ⟨rfl, rfl, rfl⟩
  · rw [update_of_ne hg, if_neg (Ne.symm hg)]
    exact ⟨rfl, (Int.add_zero _).symm, rfl⟩

theorem inFileOf_there (h : x.place = .cached ∨ x.place = .deleted) (f : Nat) :
    x.inFileOf f = if x.cacheInfo = f then 1 else 0 := by
  unfold inFileOf InFile
  simp only [h, true_and]

theorem inFileOf_elsewhere (h : ¬ (x.place = .cached ∨ x.place = .deleted)) (f : Nat) : x.inFileOf f = 0 := by
  exact if_neg fun hin => h hin.1

theorem dirtyOf_elsewhere (h : ¬ (x.place = .cached ∨ x.place = .deleted)) (f : Nat) : x.dirtyOf f = 0 := by
  exact if_neg fun hin => h hin.1.1

theorem dirtyOf_clean (hd : x.dirty = false) (hw : x.beingWritten = false) (f : Nat) : x.dirtyOf f = 0 := by
  unfold dirtyOf
  rw [if_neg]
  rintro ⟨-, h⟩
  rw [hd, hw] at h
  simp at h

theorem Accounts.loosen (h : Accounts c none pending s held out) (hp : (s.view none b).place = .cached)
    (hz : ¬ (s.blocks b).refCount > 0) (hblocks : t.blocks = s.blocks) (hcalm : t.panicked = none) (huse : t.use = takeOff s.use b)
    (hhash : t.hash = update s.hash ((s.blocks b).cacheInfo, (s.blocks b).blockNum) none)
    (hdirty : Shelved (fun f => (t.files f).dirtyList) (update (dirtyHome (s.view none) out) b none))
    (havail : t.numAvailBlocks = s.numAvailBlocks + (1 - (s.view none b).availOf))
    (hcounts : t.numFreeBlocks = s.numFreeBlocks ∧ t.numCacheBlocks = s.numCacheBlocks)
    (hfiles : ∀ f, (t.files f).blocksInCache = (s.files f).blocksInCache + (if (s.blocks b).cacheInfo = f then -1 else 0) ∧
      (t.files f).numDirtyBlocks = (s.files f).numDirtyBlocks - (s.view none b).dirtyOf f) :
    Accounts c (some b) pending t held out := by
  obtain ⟨hrc, hheld, hkept, -⟩ := (h.owned hp).idle hz
  have hview : t.view (some b) = update (s.view none) b (viewOf true (s.blocks b)) := by
    rw [@view_update s t none (some b) b (s.blocks b) (by rw [hblocks, update_eq_self]) (loose_iff b), decide_eq_true rfl]
  have hxp : (viewOf true (s.blocks b)).place = .loose := rfl
  have hnot : ¬ ((viewOf true (s.blocks b)).place = .cached ∨ (viewOf true (s.blocks b)).place = .deleted) := by
    rw [hxp]
    decide
  refine h.change hview hcalm ?_ ?_ (fun _ _ => ⟨rfl, rfl⟩) ?_ ?_ ?_
  · rw [huse]
    exact h.listed.remove hp (.inl rfl)
  · exact ⟨hrc, hheld, hkept⟩
  · rw [hhash]
    exact h.hashed.delete hp (by rw [hxp]; decide) rfl
  · refine shelved_dirtyHome hdirty (fun _ _ => rfl) ?_
    rw [dirtyHome_self]
    exact if_neg fun hx => hnot hx.1
  · refine h.counted.change b _ havail ?_ ?_ (fun f => ?_) fun f => ?_
    · rw [hcounts.1]
      unfold freeOf
      rw [hxp, hp]
      exact (Int.add_zero _).symm
    · rw [hcounts.2]
      unfold cacheOf
      rw [hxp, hp]
      exact (Int.add_zero _).symm
    · rw [(hfiles f).1, inFileOf_elsewhere hnot, inFileOf_there (.inl hp)]
      show _ = _ + (0 - if (s.blocks b).cacheInfo = f then 1 else 0)
      split <;> omega
    · rw [(hfiles f).2, dirtyOf_elsewhere hnot]
      omega

/-- A block that is neither referenced nor dirty is not on a dirty list. -/
theorem dirtyHome_clean {v : Nat → View} (hd : (v b).dirty = false) : update (dirtyHome v out) b none = dirtyHome v out := by
  have hnone : dirtyHome v out b = none := by
    unfold dirtyHome
    rw [if_neg]
    rintro ⟨-, hx, -⟩
    rw [hd] at hx
    cases hx
  rw [← hnone]
  exact update_eq_self _ _

theorem Accounts.loosen_clean (h : Accounts c none pending s held out) (hp : (s.view none b).place = .cached)
    (hz : ¬ (s.blocks b).refCount > 0) (hd : (s.blocks b).dirtyOrWritten = false)
    (ht : t = ((s.addBlocksInCache (s.blocks b).cacheInfo (-1)).hashDelete ((s.blocks b).cacheInfo, (s.blocks b).blockNum)).remove b) :
    Accounts c (some b) pending t held out := by
  have hidle := (h.owned hp).idle hz
  unfold FscacheBlock.dirtyOrWritten at hd
  rw [Bool.or_eq_false_iff] at hd
  have hfiles := fun g => @files_addBlocksInCache s (s.blocks b).cacheInfo (-1) g
  subst ht
  refine h.loosen hp hz rfl h.calm rfl rfl ?_ ?_ ⟨rfl, rfl⟩ fun g => ⟨(hfiles g).2.1, ?_⟩
  · rw [dirtyHome_clean (show (s.view none b).dirty = false from hd.1)]
    exact (funext fun g => (hfiles g).1 : (fun g => ((s.addBlocksInCache (s.blocks b).cacheInfo (-1)).files g).dirtyList) = _) ▸ h.dirty
  · rw [availOf_there (.inl hp), if_pos ⟨hidle.1, hd.1, hd.2⟩]
    exact (Int.add_zero _).symm
  · rw [dirtyOf_clean hd.1 hd.2]
    exact (hfiles g).2.2.trans (Int.sub_zero _).symm

section
variable (h : Accounts c (some b) pending s held out)
include h

theorem Accounts.loose_ok : (s.blocks b).refCount = 0 ∧ held b = 0 ∧ out b = .kept ∧ b < c.maxNumBlocks := by
  have hok := h.blocks b
  unfold BlockOk at hok
  rw [view_place_loose] at hok
  exact ⟨hok.1, hok.2.1, hok.2.2, h.listed.lt (by rw [view_place_loose]; decide)⟩

theorem Accounts.other_free (h8 : c.pageIs8K = true) :
    (s.view (some b) (otherBlock b)).place = .free ↔ (s.blocks (otherBlock b)).flags.free = true := by
  have hne : (some b : Option Nat) ≠ some (otherBlock b) := fun heq => otherBlock_ne (Option.some.inj heq).symm
  have hmapped : (s.view (some b) (otherBlock b)).place ≠ .unmapped := by
    rw [ne_eq, ← h.listed.pages h8 b h.loose_ok.2.2.2, view_place_loose]
    decide
  rw [view_of_ne hne] at hmapped ⊢
  unfold viewOf at hmapped ⊢
  rw [placeOf_free]
  unfold placeOf at hmapped
  cases hm : (s.blocks (otherBlock b)).flags.notMapped with
  | true =>
    rw [hm] at hmapped
    exact absurd rfl hmapped
  | false => simp

theorem Accounts.putOnFreeList : Accounts c none pending (s.putOnFreeList c b) held out := by
  obtain ⟨hrc, hheld, hkept, hlt⟩ := h.loose_ok
  obtain ⟨block, hblock⟩ : ∃ block : FscacheBlock, block = { s.blocks b with flags := { free := true } } := ⟨_, rfl⟩
  obtain ⟨x, hx⟩ : ∃ x, x = viewOf false block := ⟨_, rfl⟩
  have hxp : x.place = .free := by rw [hx, hblock]; rfl
  have hlooseThere : ¬ ((s.view (some b) b).place = .cached ∨ (s.view (some b) b).place = .deleted) := by
    rw [view_place_loose]
    decide
  have hnot : ¬ (x.place = .cached ∨ x.place = .deleted) := by
    rw [hxp]
    decide
  -- wherever it is put, only the lists differ
  have hput : ∀ use : UseList → List Nat, use = freeLists c (s.view (some b)) s.use b →
      Accounts c none pending { (s.setFlags b { free := true }).addFree 1 with use := use } held out := by
    intro use huse
    have hview : ({ (s.setFlags b { free := true }).addFree 1 with use := use } : BlockCache).view none =
        update (s.view (some b)) b x := by
      rw [@view_update s _ (some b) none b block (by rw [hblock]; rfl) (loose_iff' b), hx]
      rfl
    refine h.change hview h.calm ?_ ?_ (fun _ _ => ⟨rfl, rfl⟩) ?_ ?_ ?_
    · rw [huse]
      exact h.listed.putFree view_place_loose hxp
    · unfold BlockOk
      rw [hxp, hx, hblock]
      exact ⟨hrc, hheld, hkept, rfl, rfl⟩
    · exact h.hashed.keep (by rw [hxp, view_place_loose]; decide) fun hc => by rw [hxp] at hc; cases hc
    · refine shelved_dirtyHome_keep h.dirty (fun _ _ => rfl) ?_
      rw [dirtyHome_self, if_neg fun hd => hnot hd.1]
      exact (if_neg fun hd => hlooseThere hd.1).symm
    · refine h.counted.change b x ?_ ?_ ?_ (fun f => ?_) fun f => ?_
      · unfold availOf
        rw [hxp, view_place_loose]
        exact (Int.add_zero _).symm
      · unfold freeOf
        rw [hxp, view_place_loose]
        rfl
      · unfold cacheOf
        rw [hxp, view_place_loose]
        exact (Int.add_zero _).symm
      · rw [inFileOf_elsewhere hnot, inFileOf_elsewhere hlooseThere]
        exact (Int.add_zero _).symm
      · rw [dirtyOf_elsewhere hnot, dirtyOf_elsewhere hlooseThere]
        exact (Int.add_zero _).symm
  have hother : ((s.setFlags b { free := true }).addFree 1).blocks (otherBlock b) = s.blocks (otherBlock b) :=
    update_of_ne otherBlock_ne _ _
  unfold BlockCache.putOnFreeList
  dsimp only
  rw [hother]
  split
  next h8 =>
    have hfree := h.other_free h8
    split
    next hf =>
      refine hput _ ?_
      unfold freeLists
      rw [if_pos h8, if_pos (hfree.2 hf)]
      rfl
    next hf =>
      refine hput _ ?_
      unfold freeLists
      rw [if_pos h8, if_neg fun hp => hf (hfree.1 hp)]
      rfl
  next h8 =>
    refine hput _ ?_
    unfold freeLists
    rw [if_neg h8]
    rfl

theorem Accounts.enterBlock {n : Int} {flags : FetchFlags} {now : Int} (hmem : (f, n) ∈ pending) :
    Accounts c none (pending \ {(f, n)}) (s.enterBlock c f n flags now b) (update held b (held b + 1)) out := by
  obtain ⟨-, hheld, hkept, hlt⟩ := h.loose_ok
  obtain ⟨block, hblock⟩ : ∃ block : FscacheBlock, block = { s.blocks b with
    cacheInfo := f, refCount := 1, flags := { readAhead := flags.readAhead, ioInProgress := true }, fileNum := c.fileNum f,
    blockNum := n, blockSize := -1, timeDirtied := 0, timeReferenced := now } := ⟨_, rfl⟩
  obtain ⟨x, hx⟩ : ∃ x, x = viewOf false block := ⟨_, rfl⟩
  have hxp : x.place = .cached := by rw [hx, hblock]; rfl
  have hlooseThere : ¬ ((s.view (some b) b).place = .cached ∨ (s.view (some b) b).place = .deleted) := by
    rw [view_place_loose]
    decide
  have hclean : x.dirty = false ∧ x.beingWritten = false ∧ x.refCount = 1 ∧ x.cacheInfo = f := by
    rw [hx, hblock]
    exact ⟨rfl, rfl, rfl, rfl⟩
  have hnil : s.hash (f, n) = some none := (h.hashed.nil (f, n)).2 hmem
  have hfiles := fun g => @files_addBlocksInCache s f 1 g
  unfold BlockCache.enterBlock
  rw [if_pos (show ((s.addBlocksInCache f 1).setBlock b _).hash (f, n) = some none from hnil)]
  refine Accounts.checkAvail ?_
  have hview : ∀ t : BlockCache, t.blocks = update s.blocks b block → t.view none = update (s.view (some b)) b x := by
    intro t ht
    rw [view_update ht (loose_iff' b), hx]
    rfl
  refine h.change (hview _ (by rw [hblock]; rfl)) h.calm (h.listed.enter view_place_loose hxp) ?_ (fun a ha => ⟨update_of_ne ha _ _, rfl⟩)
    ?_ ?_ ?_
  · rw [update_self, blockOk_cached hxp, hx, hblock]
    refine ⟨by omega, ?_, ?_, fun hr => ?_, rfl⟩
    · rw [if_pos hkept]
      show (1 : Int) = _
      omega
    · rw [hkept]
      constructor
      · intro hw
        cases hw
      · intro hne
        exact absurd rfl hne
    · rw [hkept] at hr
      cases hr
  · exact h.hashed.enter hmem (by rw [view_place_loose]; decide) hxp (by rw [hx, hblock]; rfl)
  · have hlists : (fun g => ((s.addBlocksInCache f 1).files g).dirtyList) = fun g => (s.files g).dirtyList := funext fun g => (hfiles g).1
    refine shelved_dirtyHome_keep (hlists ▸ h.dirty) (fun _ _ => rfl) ?_
    rw [dirtyHome_self, if_neg (by rw [hclean.1]; rintro ⟨-, hd, -⟩; cases hd)]
    exact (if_neg fun hd => hlooseThere hd.1).symm
  · refine h.counted.change b x ?_ ?_ ?_ (fun g => ?_) fun g => ?_
    · rw [availOf_there (.inl hxp), if_neg (by rw [hclean.2.2.1]; rintro ⟨hz, -⟩; cases hz)]
      unfold availOf
      rw [view_place_loose]
      rfl
    · unfold freeOf
      rw [hxp, view_place_loose]
      exact (Int.add_zero _).symm
    · unfold cacheOf
      rw [hxp, view_place_loose]
      exact (Int.add_zero _).symm
    · rw [inFileOf_there (.inl hxp), inFileOf_elsewhere hlooseThere, hclean.2.2.2, Int.sub_zero]
      exact (hfiles g).2.1
    · rw [dirtyOf_clean hclean.1 hclean.2.1, dirtyOf_elsewhere hlooseThere, Int.sub_zero, Int.add_zero]
      exact (hfiles g).2.2

end

/-! ### Free blocks -/

theorem Accounts.takeOne {use : UseList → List Nat} (h : Accounts c none pending s held out) (hp : (s.view none b).place = .free)
    (huse : Listed c (update (s.view none) b (viewOf true (s.blocks b))) use) :
    Accounts c (some b) pending { s.addFree (-1) with use := use } held out := by
  have hok := h.blocks b
  unfold BlockOk at hok
  rw [hp] at hok
  have hxp : (viewOf true (s.blocks b)).place = .loose := rfl
  have hnot : ¬ ((viewOf true (s.blocks b)).place = .cached ∨ (viewOf true (s.blocks b)).place = .deleted) := by
    rw [hxp]
    decide
  have hfree : ¬ ((s.view none b).place = .cached ∨ (s.view none b).place = .deleted) := by
    rw [hp]
    decide
  have hview : ({ s.addFree (-1) with use := use } : BlockCache).view (some b) =
      update (s.view none) b (viewOf true (s.blocks b)) := by
    refine (@view_update s _ none (some b) b (s.blocks b) (update_eq_self _ _).symm (loose_iff b)).trans ?_
    rw [decide_eq_true rfl]
  refine h.change hview h.calm huse ?_ (fun _ _ => ⟨rfl, rfl⟩) ?_ ?_ ?_
  · exact ⟨hok.1, hok.2.1, hok.2.2.1⟩
  · exact h.hashed.keep (by rw [hxp, hp]; decide) fun hc => by rw [hxp] at hc; cases hc
  · refine shelved_dirtyHome_keep h.dirty (fun _ _ => rfl) ?_
    rw [dirtyHome_self, if_neg fun hd => hnot hd.1]
    exact (if_neg fun hd => hfree hd.1).symm
  · refine h.counted.change b _ ?_ ?_ ?_ (fun f => ?_) fun f => ?_
    · unfold availOf
      rw [hxp, hp]
      exact (Int.add_zero _).symm
    · unfold freeOf
      rw [hxp, hp]
      rfl
    · unfold cacheOf
      rw [hxp, hp]
      exact (Int.add_zero _).symm
    · rw [inFileOf_elsewhere hnot, inFileOf_elsewhere hfree]
      exact (Int.add_zero _).symm
    · rw [dirtyOf_elsewhere hnot, dirtyOf_elsewhere hfree]
      exact (Int.add_zero _).symm

theorem Accounts.takeFree {cantBlock : Bool} (h : Accounts c none pending s held out) (ht : s.takeFree c cantBlock = some (t, b)) :
    Accounts c (some b) pending t held out := by
  obtain ⟨-, ht⟩ := Option.ite_none_right_eq_some.1 ht
  have hloose : (viewOf true (s.blocks b)).place = .loose := rfl
  split at ht
  next b' rest _ hpart =>
    cases ht
    obtain ⟨hp, hl⟩ := h.listed.takePart (hpart ▸ List.mem_cons_self) hloose
    exact h.takeOne hp hl
  next b' rest hpart htot =>
    cases ht
    have hmem : b ∈ s.use .totFree := htot ▸ List.mem_cons_self
    have hl := h.listed.takeTot hmem hloose
    have hone := h.takeOne (h.listed.totFree hmem).2.1 hl
    cases h8 : c.pageIs8K with
    | true =>
      rw [h8] at hone
      exact hone
    | false =>
      rw [h8] at hone
      exact hone
  next => cases ht

/-! ### Pages -/

theorem Accounts.changePage {x y : View} {loose loose' : Option Nat} (h : Accounts c loose pending s held out)
    (hview : t.view loose' = pageViews c (s.view loose) b x y)
    (hcalm : t.panicked = none) (hlisted : Listed c (pageViews c (s.view loose) b x y) t.use)
    (hok : BlockOk c x (held b) (out b)) (hother : c.pageIs8K = true → BlockOk c y (held (otherBlock b)) (out (otherBlock b)))
    (hhash : Hashed (pageViews c (s.view loose) b x y) pending t.hash)
    (hdirty : Shelved (fun f => (t.files f).dirtyList) (dirtyHome (pageViews c (s.view loose) b x y) out))
    (hcounted : Counted (pageViews c (s.view loose) b x y) t.numAvailBlocks t.numFreeBlocks t.numCacheBlocks t.files) :
    Accounts c loose' pending t held out := by
  refine ⟨hcalm, hview ▸ hlisted, fun a => ?_, hview ▸ hhash, hview ▸ hdirty, hview ▸ hcounted⟩
  rw [hview]
  unfold pageViews
  split
  next h8 =>
    by_cases ha : a = b
    · subst ha
      rw [updatePage_self]
      exact hok
    · by_cases ho : a = otherBlock b
      · subst ho
        rw [updatePage_other]
        exact hother h8
      · rw [updatePage_of_ne ha ho]
        exact h.blocks a
  next =>
    by_cases ha : a = b
    · subst ha
      rw [update_self]
      exact hok
    · rw [update_of_ne ha]
      exact h.blocks a

theorem Accounts.changeEmpty {x y : View} {loose loose' : Option Nat} (h : Accounts c loose pending s held out)
    (hview : t.view loose' = pageViews c (s.view loose) b x y) (hcalm : t.panicked = none)
    (hlisted : Listed c (pageViews c (s.view loose) b x y) t.use)
    (hok : BlockOk c x (held b) (out b)) (hother : c.pageIs8K = true → BlockOk c y (held (otherBlock b)) (out (otherBlock b)))
    (hx : ¬ (x.place = .cached ∨ x.place = .deleted)) (hy : ¬ (y.place = .cached ∨ y.place = .deleted))
    (hvx : ¬ ((s.view loose b).place = .cached ∨ (s.view loose b).place = .deleted))
    (hvy : c.pageIs8K = true → ¬ ((s.view loose (otherBlock b)).place = .cached ∨ (s.view loose (otherBlock b)).place = .deleted))
    (hhash : t.hash = s.hash) (hfiles : t.files = s.files)
    (havail : t.numAvailBlocks = s.numAvailBlocks + (x.availOf - (s.view loose b).availOf) +
      (if c.pageIs8K then y.availOf - (s.view loose (otherBlock b)).availOf else 0))
    (hfree : t.numFreeBlocks = s.numFreeBlocks + (x.freeOf - (s.view loose b).freeOf) +
      (if c.pageIs8K then y.freeOf - (s.view loose (otherBlock b)).freeOf else 0))
    (hcache : t.numCacheBlocks = s.numCacheBlocks + (x.cacheOf - (s.view loose b).cacheOf) +
      (if c.pageIs8K then y.cacheOf - (s.view loose (otherBlock b)).cacheOf else 0)) :
    Accounts c loose' pending t held out := by
  have hhashed : Hashed (update (s.view loose) b x) pending s.hash :=
    h.hashed.keep ⟨fun hc => absurd (.inl hc) hx, fun hc => absurd (.inl hc) hvx⟩ fun hc => absurd (.inl hc) hx
  have hdirty : Shelved (fun f => (s.files f).dirtyList) (dirtyHome (update (s.view loose) b x) out) := by
    refine shelved_dirtyHome_keep h.dirty (fun _ _ => rfl) ?_
    rw [dirtyHome_self, if_neg fun hd => hx hd.1]
    exact (if_neg fun hd => hvx hd.1).symm
  have hcounted : Counted (update (s.view loose) b x) (s.numAvailBlocks + (x.availOf - (s.view loose b).availOf))
      (s.numFreeBlocks + (x.freeOf - (s.view loose b).freeOf)) (s.numCacheBlocks + (x.cacheOf - (s.view loose b).cacheOf)) s.files := by
    refine h.counted.change b x rfl rfl rfl (fun f => ?_) fun f => ?_
    · rw [inFileOf_elsewhere hx, inFileOf_elsewhere hvx]
      exact (Int.add_zero _).symm
    · rw [dirtyOf_elsewhere hx, dirtyOf_elsewhere hvx]
      exact (Int.add_zero _).symm
  by_cases h8 : c.pageIs8K = true
  · have hpv : pageViews c (s.view loose) b x y = update (update (s.view loose) b x) (otherBlock b) y := if_pos h8
    have hv : update (s.view loose) b x (otherBlock b) = s.view loose (otherBlock b) := update_of_ne otherBlock_ne _ _
    have hvy' := hvy h8
    refine h.changePage hview hcalm hlisted hok hother ?_ ?_ ?_
    · rw [hpv, hhash]
      exact hhashed.keep (by rw [hv]; exact ⟨fun hc => absurd (.inl hc) hy, fun hc => absurd (.inl hc) hvy'⟩) fun hc => absurd (.inl hc) hy
    · rw [hpv, hfiles]
      refine shelved_dirtyHome_keep hdirty (fun _ _ => rfl) ?_
      rw [dirtyHome_self, if_neg fun hd => hy hd.1]
      refine (if_neg fun hd => ?_).symm
      rw [hv] at hd
      exact hvy' hd.1
    · rw [if_pos h8] at havail hfree hcache
      rw [hpv]
      refine hcounted.change (otherBlock b) y ?_ ?_ ?_ (fun f => ?_) fun f => ?_
      · rw [hv]
        exact havail
      · rw [hv]
        exact hfree
      · rw [hv]
        exact hcache
      · rw [hfiles, hv, inFileOf_elsewhere hy, inFileOf_elsewhere hvy']
        exact (Int.add_zero _).symm
      · rw [hfiles, hv, dirtyOf_elsewhere hy, dirtyOf_elsewhere hvy']
        exact (Int.add_zero _).symm
  · have hpv : pageViews c (s.view loose) b x y = update (s.view loose) b x := if_neg h8
    rw [if_neg h8, Int.add_zero] at havail hfree hcache
    refine h.changePage hview hcalm hlisted hok hother ?_ ?_ ?_
    · rw [hpv, hhash]
      exact hhashed
    · rw [hpv, hfiles]
      exact hdirty
    · rw [hpv, hfiles, havail, hfree, hcache]
      exact hcounted

theorem view_page {loose loose' : Option Nat} {first second : FscacheBlock} (hb : t.blocks b = first)
    (ho : c.pageIs8K = true → t.blocks (otherBlock b) = second)
    (hrest : ∀ a, a ≠ b → (c.pageIs8K = true → a ≠ otherBlock b) → t.blocks a = s.blocks a)
    (hl : ∀ a, a ≠ b → (loose' = some a ↔ loose = some a)) (hlo : c.pageIs8K = true → loose' ≠ some (otherBlock b)) :
    t.view loose' = pageViews c (s.view loose) b (viewOf (decide (loose' = some b)) first) (viewOf false second) := by
  funext a
  unfold pageViews
  split
  next h8 =>
    by_cases ha : a = b
    · subst ha
      rw [updatePage_self, ← hb]
      rfl
    · by_cases hao : a = otherBlock b
      · subst hao
        rw [updatePage_other, ← ho h8]
        exact view_of_ne (hlo h8)
      · rw [updatePage_of_ne ha hao]
        unfold BlockCache.view
        rw [hrest a ha fun _ => hao]
        simp only [hl a ha]
  next h8 =>
    by_cases ha : a = b
    · subst ha
      rw [update_self, ← hb]
      rfl
    · rw [update_of_ne ha]
      unfold BlockCache.view
      rw [hrest a ha fun h => absurd h h8]
      simp only [hl a ha]

theorem Accounts.empty_ok (h : Accounts c none pending s held out) (hp : (s.view none b).place = .unmapped ∨ (s.view none b).place = .free) :
    (s.blocks b).refCount = 0 ∧ held b = 0 ∧ out b = .kept := by
  have hok := h.blocks b
  unfold BlockOk at hok
  obtain hp | hp := hp
  · rw [hp] at hok
    exact ⟨hok.1, hok.2.1, hok.2.2.1⟩
  · rw [hp] at hok
    exact ⟨hok.1, hok.2.1, hok.2.2.1⟩

theorem blocksPerPage_eq : c.blocksPerPage = 1 + if c.pageIs8K then 1 else 0 := by
  unfold CacheConfig.blocksPerPage
  split <;> rfl

theorem unmapped_counts (h : x.place = .unmapped) : x.availOf = 0 ∧ x.freeOf = 0 ∧ x.cacheOf = 0 := by
  unfold View.availOf View.freeOf View.cacheOf
  rw [h]
  exact ⟨rfl, rfl, rfl⟩

theorem free_counts (h : x.place = .free) : x.availOf = 1 ∧ x.freeOf = 1 ∧ x.cacheOf = 1 := by
  unfold View.availOf View.freeOf View.cacheOf
  rw [h]
  exact ⟨rfl, rfl, rfl⟩

/-- A page is mapped: its blocks are free, but for one that is to be used. -/
theorem Accounts.createBlock {retBlock mapped : Bool} (h : Accounts c none pending s held out)
    (ht : s.createBlock c retBlock mapped = some (t, b)) : Accounts c (if retBlock then some b else none) pending t held out := by
  unfold BlockCache.createBlock at ht
  split at ht
  next => cases ht
  next b' rest hun =>
  obtain ⟨-, ht⟩ := Option.ite_none_right_eq_some.1 ht
  dsimp only at ht
  have hb : b' = b ∧ c.pageIs8K = c.pageIs8K := by
    split at ht <;> exact ⟨congrArg Prod.snd (Option.some.inj ht), rfl⟩
  obtain ⟨rfl, -⟩ := hb
  have hmem : b' ∈ s.use .unmapped := hun ▸ List.mem_cons_self
  obtain ⟨hlt, hp⟩ := h.listed.unmapped hmem
  obtain ⟨hrc, hheld, hkept⟩ := h.empty_ok (.inl hp)
  have hpo : c.pageIs8K = true → (s.view none (otherBlock b')).place = .unmapped := fun h8 => (h.listed.pages h8 b' hlt).1 hp
  have hvx : ¬ ((s.view none b').place = .cached ∨ (s.view none b').place = .deleted) := by
    rw [hp]
    decide
  obtain ⟨first, hfirst⟩ : ∃ first : FscacheBlock, first = if retBlock then s.blocks b' else { s.blocks b' with flags := { free := true } } := ⟨_, rfl⟩
  obtain ⟨second, hsecond⟩ : ∃ second : FscacheBlock, second = { s.blocks (otherBlock b') with flags := { free := true } } := ⟨_, rfl⟩
  obtain ⟨x, hx⟩ : ∃ x, x = viewOf (decide ((if retBlock then some b' else none : Option Nat) = some b')) first := ⟨_, rfl⟩
  obtain ⟨y, hy⟩ : ∃ y, y = viewOf false second := ⟨_, rfl⟩
  have hxp : x.place = if retBlock then .loose else .free := by
    rw [hx, hfirst]
    cases retBlock with
    | true => simp [viewOf, placeOf]
    | false => simp [viewOf, placeOf]
  have hyp : y.place = .free := by
    rw [hy, hsecond]
    rfl
  have hxe : x.availOf = 1 ∧ x.freeOf = (if retBlock then 0 else 1) ∧ x.cacheOf = 1 := by
    unfold availOf freeOf cacheOf
    rw [hxp]
    cases retBlock <;> exact ⟨rfl, rfl, rfl⟩
  have hye := free_counts hyp
  have hve := unmapped_counts hp
  have hvoe := fun h8 => unmapped_counts (hpo h8)
  -- the state that is come to, whatever the size of the page
  have hstate : t.panicked = s.panicked ∧ t.use = createLists c s.use retBlock b' ∧ t.hash = s.hash ∧ t.files = s.files ∧
      t.numAvailBlocks = s.numAvailBlocks + c.blocksPerPage ∧ t.numCacheBlocks = s.numCacheBlocks + c.blocksPerPage ∧
      t.numFreeBlocks = s.numFreeBlocks + (if retBlock then 0 else 1) + (if c.pageIs8K then 1 else 0) ∧
      t.blocks b' = first ∧ (c.pageIs8K = true → t.blocks (otherBlock b') = second) ∧
      ∀ a, a ≠ b' → (c.pageIs8K = true → a ≠ otherBlock b') → t.blocks a = s.blocks a := by
    rw [hfirst, hsecond]
    unfold createLists
    split at ht
    next h8 =>
      cases ht
      cases retBlock with
      | true =>
        simp only [h8, if_true]
        refine ⟨rfl, rfl, rfl, rfl, rfl, rfl, by rw [Int.add_zero]; rfl, update_of_ne otherBlock_ne.symm _ _, fun _ => update_self _ _ _,
          fun a _ ho => update_of_ne (ho trivial) _ _⟩
      | false =>
        simp only [h8, if_true, Bool.false_eq_true, if_false]
        refine ⟨rfl, rfl, rfl, rfl, rfl, rfl, rfl, ?_, fun _ => ?_, fun a ha ho => ?_⟩
        · exact (update_of_ne otherBlock_ne.symm _ _).trans (update_self _ _ _)
        · refine (update_self _ _ _).trans ?_
          show ({ update s.blocks b' _ (otherBlock b') with flags := _ } : FscacheBlock) = _
          rw [update_of_ne otherBlock_ne]
        · exact (update_of_ne (ho trivial) _ _).trans (update_of_ne ha _ _)
    next h8 =>
      cases ht
      cases retBlock with
      | true =>
        simp only [h8, if_true, Bool.false_eq_true, if_false]
        exact ⟨rfl, rfl, rfl, rfl, rfl, rfl, by rw [Int.add_zero, Int.add_zero]; rfl, rfl, fun h => absurd h id, fun _ _ _ => rfl⟩
      | false =>
        simp only [h8, Bool.false_eq_true, if_false]
        exact ⟨rfl, rfl, rfl, rfl, rfl, rfl, by rw [Int.add_zero]; rfl, update_self _ _ _, fun h => absurd h id,
          fun a ha _ => update_of_ne ha _ _⟩
  obtain ⟨hcalm, huse, hhash, hfiles, havail, hcache, hfree, hb1, hb2, hrest⟩ := hstate
  have hview : t.view (if retBlock then some b' else none) = pageViews c (s.view none) b' x y := by
    rw [hx, hy]
    refine view_page hb1 hb2 hrest (fun a ha => ?_) fun h8 => ?_
    · cases retBlock with
      | true => simp [ha.symm]
      | false => simp
    · cases retBlock with
      | true => simp [otherBlock_ne.symm]
      | false => simp
  refine h.changeEmpty hview (hcalm.trans h.calm) ?_ ?_ (fun h8 => ?_) ?_ ?_ hvx (fun h8 => ?_) hhash hfiles ?_ ?_ ?_
  · rw [huse]
    exact h.listed.create hmem hxp hyp
  · unfold BlockOk
    rw [hxp]
    have hxr : x.refCount = 0 := by
      rw [hx, hfirst]
      cases retBlock <;> exact hrc
    cases hret : retBlock with
    | true => exact ⟨hxr, hheld, hkept⟩
    | false =>
      rw [hx, hfirst, hret]
      exact ⟨hrc, hheld, hkept, rfl, rfl⟩
  · obtain ⟨hrc', hheld', hkept'⟩ := h.empty_ok (.inl (hpo h8))
    unfold BlockOk
    rw [hyp, hy, hsecond]
    exact ⟨hrc', hheld', hkept', rfl, rfl⟩
  · rw [hxp]
    cases retBlock <;> decide
  · rw [hyp]
    decide
  · rw [hpo h8]
    decide
  · rw [havail, blocksPerPage_eq, hxe.1, hve.1]
    split
    next h8 =>
      rw [hye.1, (hvoe h8).1]
      omega
    next => omega
  · rw [hfree, hxe.2.1, hve.2.1, Int.sub_zero]
    congr 1
    split
    next h8 =>
      rw [hye.2.1, (hvoe h8).2.1]
      rfl
    next => rfl
  · rw [hcache, blocksPerPage_eq, hxe.2.2, hve.2.2]
    split
    next h8 =>
      rw [hye.2.2, (hvoe h8).2.2]
      omega
    next => omega

end SpriteKernel.Fscache
