import SpriteKernel.Fscache.CacheBooks

/- What each routine of the cache does to the books: where a block is touched, taken from the lists, put on
   a free list or entered in the hash table, all of them are kept. -/
namespace SpriteKernel.Fscache

open Function
open Shelves Tally
variable {c : CacheConfig} {s s' : BlockCache} {loose loose' : Option Nat} {pending pending' : Set BlockHashKey}
  {held held' : Nat → Int} {out out' : Nat → BlockOut} {a b f : Nat} {block : FscacheBlock}

theorem view_update (hblocks : s'.blocks = update s.blocks b block) (hl : ∀ a, a ≠ b → (loose' = some a ↔ loose = some a)) :
    s'.view loose' = update (s.view loose) b (viewOf (decide (loose' = some b)) block) := by
  funext a
  unfold BlockCache.view
  rw [hblocks]
  by_cases ha : a = b
  · subst ha
    rw [update_self, update_self]
  · rw [update_of_ne ha, update_of_ne ha]
    simp only [hl a ha]

theorem loose_iff (b : Nat) : ∀ a, a ≠ b → (some b = some a ↔ none = some a) := by
  intro a ha
  simp [ha.symm]

theorem loose_iff' (b : Nat) : ∀ a, a ≠ b → (none = some a ↔ some b = some a) := by
  intro a ha
  simp [ha.symm]

theorem Accounts.congr (h : Accounts c loose pending s held out) (hcalm : s'.panicked = none) (hview : s'.view loose = s.view loose)
    (huse : s'.use = s.use) (hhash : s'.hash = s.hash)
    (hcounts : s'.numAvailBlocks = s.numAvailBlocks ∧ s'.numFreeBlocks = s.numFreeBlocks ∧ s'.numCacheBlocks = s.numCacheBlocks)
    (hfiles : ∀ f, (s'.files f).dirtyList = (s.files f).dirtyList ∧ (s'.files f).blocksInCache = (s.files f).blocksInCache ∧
      (s'.files f).numDirtyBlocks = (s.files f).numDirtyBlocks) : Accounts c loose pending s' held out := by
  refine ⟨hcalm, ?_, ?_, ?_, ?_, ?_⟩
  · rw [hview, huse]
    exact h.listed
  · rw [hview]
    exact h.blocks
  · rw [hview, hhash]
    exact h.hashed
  · rw [hview, funext fun f => (hfiles f).1]
    exact h.dirty
  · obtain ⟨havail, hfree, hcache⟩ := hcounts
    have hc := h.counted
    rw [hview, havail, hfree, hcache]
    exact ⟨hc.avail, hc.free, hc.cache, fun f => (hfiles f).2.1 ▸ hc.inFile f, fun f => (hfiles f).2.2 ▸ hc.dirty f⟩

variable {x : View}

theorem Accounts.change (h : Accounts c loose pending s held out) (hview : s'.view loose' = update (s.view loose) b x)
    (hcalm : s'.panicked = none) (hlisted : Listed c (update (s.view loose) b x) s'.use)
    (hok : BlockOk c x (held' b) (out' b)) (hheld : ∀ a, a ≠ b → held' a = held a ∧ out' a = out a)
    (hhashed : Hashed (update (s.view loose) b x) pending' s'.hash)
    (hdirty : Shelved (fun f => (s'.files f).dirtyList) (dirtyHome (update (s.view loose) b x) out'))
    (hcounted : Counted (update (s.view loose) b x) s'.numAvailBlocks s'.numFreeBlocks s'.numCacheBlocks s'.files) :
    Accounts c loose' pending' s' held' out' := by
  refine ⟨hcalm, hview ▸ hlisted, fun a => ?_, hview ▸ hhashed, hview ▸ hdirty, hview ▸ hcounted⟩
  rw [hview]
  by_cases ha : a = b
  · subst ha
    rw [update_self]
    exact hok
  · rw [update_of_ne ha, (hheld a ha).1, (hheld a ha).2]
    exact h.blocks a

variable {v : Nat → View} {lists : Nat → List Nat}

theorem dirtyHome_update_of_ne (ha : a ≠ b) (hout : out' a = out a) :
    dirtyHome (update v b x) out' a = dirtyHome v out a := by
  unfold dirtyHome
  rw [update_of_ne ha, hout]

theorem shelved_dirtyHome {l : Option Nat}
    (h : Shelved lists (update (dirtyHome v out) b l)) (hout : ∀ a, a ≠ b → out' a = out a)
    (hl : dirtyHome (update v b x) out' b = l) : Shelved lists (dirtyHome (update v b x) out') := by
  refine h.congr fun a => ?_
  by_cases ha : a = b
  · subst ha
    rw [update_self]
    exact hl
  · rw [update_of_ne ha]
    exact dirtyHome_update_of_ne ha (hout a ha)

theorem shelved_dirtyHome_keep (h : Shelved lists (dirtyHome v out))
    (hout : ∀ a, a ≠ b → out' a = out a) (hl : dirtyHome (update v b x) out' b = dirtyHome v out b) :
    Shelved lists (dirtyHome (update v b x) out') := by
  refine shelved_dirtyHome (l := dirtyHome v out b) ?_ hout hl
  rw [update_eq_self]
  exact h

theorem dirtyHome_self : dirtyHome (update v b x) out b =
    if (x.place = .cached ∨ x.place = .deleted) ∧ x.dirty = true ∧ out b ≠ .written then some x.cacheInfo else none := by
  unfold dirtyHome
  rw [update_self]

/-! ### Views -/

variable {flags : BlockFlags}

theorem placeOf_cached : placeOf false flags = .cached ↔
    flags.notMapped = false ∧ flags.free = false ∧ flags.deleted = false := by
  unfold placeOf
  cases flags.notMapped <;> cases flags.free <;> cases flags.deleted <;> decide

theorem placeOf_deleted : placeOf false flags = .deleted ↔
    flags.notMapped = false ∧ flags.free = false ∧ flags.deleted = true := by
  unfold placeOf
  cases flags.notMapped <;> cases flags.free <;> cases flags.deleted <;> decide

theorem placeOf_free : placeOf false flags = .free ↔ flags.notMapped = false ∧ flags.free = true := by
  unfold placeOf
  cases flags.notMapped <;> cases flags.free <;> cases flags.deleted <;> decide

theorem view_of_ne (h : loose ≠ some b) : s.view loose b = viewOf false (s.blocks b) := by
  unfold BlockCache.view
  rw [decide_eq_false h]

theorem view_place_loose : (s.view (some b) b).place = .loose := by
  unfold BlockCache.view
  rw [decide_eq_true rfl]
  rfl

theorem availOf_there (h : x.place = .cached ∨ x.place = .deleted) :
    x.availOf = if x.refCount = 0 ∧ x.dirty = false ∧ x.beingWritten = false then 1 else 0 := by
  unfold View.availOf
  obtain h | h := h <;> rw [h]

theorem Accounts.touch (h : Accounts c none pending s held out) (hview : s'.view none = update (s.view none) b x)
    (hplace : x.place = (s.view none b).place)
    (hkey : x.cacheInfo = (s.view none b).cacheInfo ∧ x.blockNum = (s.view none b).blockNum)
    (hcalm : s'.panicked = none) (huse : Shelved s'.use (homeOf c (s.view none))) (hhash : s'.hash = s.hash)
    (hok : BlockOk c x (held' b) (out' b)) (hheld : ∀ a, a ≠ b → held' a = held a ∧ out' a = out a)
    (hdirty : Shelved (fun f => (s'.files f).dirtyList) (dirtyHome (update (s.view none) b x) out'))
    (havail : s'.numAvailBlocks = s.numAvailBlocks + (x.availOf - (s.view none b).availOf))
    (hcounts : s'.numFreeBlocks = s.numFreeBlocks ∧ s'.numCacheBlocks = s.numCacheBlocks)
    (hfiles : ∀ f, (s'.files f).blocksInCache = (s.files f).blocksInCache ∧
      (s'.files f).numDirtyBlocks = (s.files f).numDirtyBlocks + (x.dirtyOf f - (s.view none b).dirtyOf f)) :
    Accounts c none pending s' held' out' := by
  refine h.change hview hcalm ?_ hok hheld ?_ hdirty ?_
  · have hl : Listed c (s.view none) s'.use := ⟨h.listed.outside, huse, h.listed.pages⟩
    exact hl.keep hplace
  · rw [hhash]
    exact h.hashed.keep (by rw [hplace]) fun _ => hkey
  · have hfree : x.freeOf = (s.view none b).freeOf := by
      unfold View.freeOf
      rw [hplace]
    have hcache : x.cacheOf = (s.view none b).cacheOf := by
      unfold View.cacheOf
      rw [hplace]
    have hin : ∀ f, x.inFileOf f = (s.view none b).inFileOf f := by
      intro f
      have hiff : x.InFile f ↔ (s.view none b).InFile f := by
        unfold View.InFile
        rw [hplace, hkey.1]
      unfold View.inFileOf
      simp only [hiff]
    refine h.counted.change b x havail ?_ ?_ (fun f => ?_) fun f => (hfiles f).2
    · omega
    · omega
    · rw [(hfiles f).1, hin]
      omega

section
variable (h : Accounts c loose pending s held out)
include h

theorem Accounts.setBlock_same (hv : ∀ l, viewOf l block = viewOf l (s.blocks b)) :
    Accounts c loose pending (s.setBlock b block) held out := by
  refine h.congr h.calm ?_ rfl rfl ⟨rfl, rfl, rfl⟩ fun _ => ⟨rfl, rfl, rfl⟩
  rw [@view_update s _ loose loose b block rfl fun _ _ => Iff.rfl, hv]
  exact update_eq_self _ _

theorem Accounts.setFile_same {info : FileInfo} (hd : info.dirtyList = (s.files f).dirtyList)
    (hb : info.blocksInCache = (s.files f).blocksInCache) (hn : info.numDirtyBlocks = (s.files f).numDirtyBlocks) :
    Accounts c loose pending (s.setFile f info) held out := by
  refine h.congr h.calm rfl rfl rfl ⟨rfl, rfl, rfl⟩ fun g => ?_
  unfold BlockCache.setFile
  dsimp only
  by_cases hg : g = f
  · subst hg
    rw [update_self]
    exact ⟨hd, hb, hn⟩
  · rw [update_of_ne hg]
    exact ⟨rfl, rfl, rfl⟩

theorem Accounts.putFileOnDirtyList {time : Int} : Accounts c loose pending (s.putFileOnDirtyList f time) held out := by
  unfold BlockCache.putFileOnDirtyList
  dsimp only
  split
  · exact h
  · exact h.setFile_same rfl rfl rfl

theorem Accounts.startFileSync : Accounts c loose pending (s.startFileSync f) held out :=
  h.setFile_same rfl rfl rfl

theorem Accounts.ioDone : Accounts c loose pending (s.ioDone b) held out :=
  h.setBlock_same fun _ => rfl

theorem Accounts.setSize {diskBlock blockSize : Int} :
    Accounts c loose pending (s.setSize b diskBlock blockSize) held out := by
  unfold BlockCache.setSize
  dsimp only
  split
  · exact h.setBlock_same fun _ => rfl
  · split
    · exact h.setBlock_same fun _ => rfl
    · exact h

end

/-! ### Blocks that are referenced -/

section
variable (h : Accounts c none pending s held out)
include h

theorem Accounts.owned (hp : (s.view none b).place = .cached) : Owned c (s.view none b) (held b) (out b) := by
  have hok := h.blocks b
  unfold BlockOk at hok
  rw [hp] at hok
  exact hok

theorem Accounts.cached_of_held (hb : held b > 0) : (s.view none b).place = .cached := by
  have hok := h.blocks b
  unfold BlockOk at hok
  cases hp : (s.view none b).place with
  | cached => rfl
  | deleted =>
    rw [hp] at hok
    omega
  | loose =>
    rw [hp] at hok
    omega
  | free =>
    rw [hp] at hok
    omega
  | unmapped =>
    rw [hp] at hok
    omega

theorem Accounts.there_of_out (hb : out b ≠ .kept) :
    ((s.view none b).place = .cached ∨ (s.view none b).place = .deleted) ∧ Owned c (s.view none b) (held b) (out b) ∧
      ((s.view none b).place = .deleted → held b = 0) := by
  have hok := h.blocks b
  unfold BlockOk at hok
  cases hp : (s.view none b).place with
  | cached =>
    rw [hp] at hok
    exact ⟨.inl rfl, hok, fun hd => by cases hd⟩
  | deleted =>
    rw [hp] at hok
    exact ⟨.inr rfl, hok.1, fun _ => hok.2.1⟩
  | loose =>
    rw [hp] at hok
    exact absurd hok.2.2 hb
  | free =>
    rw [hp] at hok
    exact absurd hok.2.2.1 hb
  | unmapped =>
    rw [hp] at hok
    exact absurd hok.2.2.1 hb

end

theorem Accounts.avail_nonneg (h : Accounts c loose pending s held out) : 0 ≤ s.numAvailBlocks := h.counted.avail_nonneg

theorem Accounts.checkAvail (h : Accounts c loose pending s held out) : Accounts c loose pending s.checkAvail held out := by
  have hn := h.avail_nonneg
  unfold BlockCache.checkAvail
  rw [if_neg (by omega)]
  exact h

variable {n : Int} {o : BlockOut}

theorem blockOk_cached (hx : x.place = .cached) : BlockOk c x n o ↔ Owned c x n o := by
  unfold BlockOk
  rw [hx]

theorem Owned.availOf (h : Owned c x n o) (hx : x.place = .cached ∨ x.place = .deleted) :
    x.availOf = if x.refCount = 0 ∧ x.dirty = false then 1 else 0 := by
  have hnonneg := h.nonneg
  have hrefs := h.refs
  rw [availOf_there hx]
  by_cases hz : x.refCount = 0
  · have hkept : o = .kept := by
      by_contra hne
      rw [if_neg hne] at hrefs
      omega
    have hnot : x.beingWritten = false := by
      rw [Bool.eq_false_iff]
      intro hw
      exact h.written.1 hw hkept
    simp [hz, hnot]
  · simp [hz]

theorem Owned.reference (h : Owned c x n o) : Owned c { x with refCount := x.refCount + 1 } (n + 1) o := by
  have hnonneg := h.nonneg
  have hrefs := h.refs
  refine ⟨by omega, ?_, h.written, h.realloced, h.fileNum⟩
  dsimp only
  omega

/-- A block that stays where it is gets another count of references. -/
theorem Accounts.recount {avail n : Int} (h : Accounts c none pending s held out)
    (hp : (s.view none b).place = .cached) (hx : viewOf false block = { s.view none b with refCount := block.refCount })
    (ho : Owned c (viewOf false block) n (out b))
    (havail : avail = s.numAvailBlocks + ((viewOf false block).availOf - (s.view none b).availOf)) :
    Accounts c none pending { s with blocks := update s.blocks b block, numAvailBlocks := avail } (update held b n) out := by
  have hxp : (viewOf false block).place = .cached := by rw [hx]; exact hp
  have hsame : ∀ f, (viewOf false block).dirtyOf f = (s.view none b).dirtyOf f := fun f => by rw [hx]; rfl
  refine h.touch (x := viewOf false block) (view_update rfl fun _ _ => Iff.rfl) (by rw [hxp, hp]) (by rw [hx]; exact ⟨rfl, rfl⟩) h.calm
    h.listed.lists rfl ?_ (fun a ha => ⟨update_of_ne ha _ _, rfl⟩) ?_ havail ⟨rfl, rfl⟩ fun f => ⟨rfl, ?_⟩
  · rw [update_self]
    exact (blockOk_cached hxp).2 ho
  · refine shelved_dirtyHome_keep h.dirty (fun _ _ => rfl) ?_
    rw [dirtyHome_self, hx]
    rfl
  · rw [hsame, Int.sub_self, Int.add_zero]

/-- A block that is found is referenced; it was available if nobody had it and it was not dirty. -/
theorem Accounts.referenceBlock {flags : FetchFlags} (h : Accounts c none pending s held out) (hp : (s.view none b).place = .cached) :
    Accounts c none pending (s.referenceBlock flags b) (update held b (held b + 1)) out := by
  have ho := h.owned hp
  have hnonneg := ho.nonneg
  have hrefs := ho.refs
  have hrc : (s.view none b).refCount = (s.blocks b).refCount := rfl
  have hxa := ho.reference.availOf (.inl hp)
  rw [if_neg (by rintro ⟨hz, -⟩; dsimp only at hz; omega)] at hxa
  have hva := ho.availOf (.inl hp)
  unfold BlockCache.referenceBlock
  dsimp only
  split
  next hfirst =>
    refine Accounts.checkAvail (h.recount hp rfl ho.reference ?_)
    refine congrArg (_ + ·) ?_
    rw [hva, if_pos ⟨by omega, hfirst.2⟩]
    exact (congrArg (· - 1) hxa).symm
  next hnot =>
    refine h.recount hp rfl ho.reference ?_
    rw [hva, if_neg]
    · exact ((congrArg (_ + ·) ((Int.sub_zero _).trans hxa)).trans (Int.add_zero _)).symm
    · rintro ⟨hz, hc⟩
      exact hnot ⟨by omega, hc⟩

theorem Owned.dereference (h : Owned c x n o) (hn : n > 0) :
    Owned c { x with refCount := x.refCount - 1 } (n - 1) o := by
  have hrefs := h.refs
  refine ⟨by omega, ?_, h.written, h.realloced, h.fileNum⟩
  dsimp only
  omega

section
variable (h : Accounts c none pending s held out)
include h

/-- A reference is given up: a block that is not dirty is available if it was the last one. -/
theorem Accounts.dereference (hb : held b > 0) :
    Accounts c none pending (s.dereference b) (update held b (held b - 1)) out := by
  have hp := h.cached_of_held hb
  have ho := h.owned hp
  have hrefs := ho.refs
  have hva : (s.view none b).availOf = 0 := by
    rw [ho.availOf (.inl hp), if_neg]
    split at hrefs <;> omega
  obtain ⟨block, hblock⟩ : ∃ block, block = { s.blocks b with refCount := (s.blocks b).refCount - 1 } := ⟨_, rfl⟩
  have hdef : s.dereference b = if block.refCount = 0 ∧ block.dirtyOrWritten = false then (s.setBlock b block).addAvail 1
      else s.setBlock b block := by rw [hblock]; rfl
  have hx : viewOf false block = { s.view none b with refCount := block.refCount } := by rw [hblock]; rfl
  have hxo : Owned c (viewOf false block) (held b - 1) (out b) := by rw [hblock]; exact ho.dereference hb
  have hxa := availOf_there (x := viewOf false block) (.inl (by rw [hx]; exact hp))
  -- the test that is made is that of the view
  have htest : (block.refCount = 0 ∧ block.dirtyOrWritten = false) ↔
      ((viewOf false block).refCount = 0 ∧ (viewOf false block).dirty = false ∧ (viewOf false block).beingWritten = false) := by
    unfold FscacheBlock.dirtyOrWritten
    rw [Bool.or_eq_false_iff]
    exact Iff.rfl
  rw [hdef]
  split
  next hfree =>
    refine h.recount hp hx hxo ?_
    rw [hxa, hva, if_pos (htest.1 hfree)]
    rfl
  next hnot =>
    refine h.recount hp hx hxo ?_
    rw [hxa, hva, if_neg fun hz => hnot (htest.2 hz)]
    exact (Int.add_zero _).symm

section
variable (hp : (s.view none b).place = .cached)
include hp

theorem Accounts.homeOf_cached : homeOf c (s.view none) b = some .lru := by
  unfold homeOf
  rw [if_pos (h.listed.lt (by rw [hp]; decide)), hp]

theorem Accounts.moveLru {use : UseList → List Nat}
    (huse : use = Shelves.moveFront s.use .lru b ∨ use = Shelves.moveRear s.use .lru b) :
    Accounts c none pending { s with use := use } held out := by
  have hl : Shelved use (homeOf c (s.view none)) := by
    have hself : update (homeOf c (s.view none)) b (some .lru) = homeOf c (s.view none) := by
      rw [← h.homeOf_cached hp]
      exact update_eq_self _ _
    obtain rfl | rfl := huse
    · rw [← hself]
      exact h.listed.lists.moveFront .lru b
    · rw [← hself]
      exact h.listed.lists.moveRear .lru b
  exact ⟨h.calm, ⟨h.listed.outside, hl, h.listed.pages⟩, h.blocks, h.hashed, h.dirty, h.counted⟩

theorem Accounts.placeUnlocked {unneeded : Bool} {now : Int} : Accounts c none pending (s.placeUnlocked b unneeded now) held out := by
  have hset : ∀ t : BlockCache, Accounts c none pending t held out → (t.view none b).place = .cached → ∀ block : FscacheBlock,
      (∀ l, viewOf l block = viewOf l (t.blocks b)) →
      Accounts c none pending (t.setBlock b block) held out ∧ ((t.setBlock b block).view none b).place = .cached := by
    intro t ht htp block hv
    refine ⟨ht.setBlock_same hv, ?_⟩
    rw [@view_update t _ none none b block rfl fun _ _ => Iff.rfl, update_self, hv]
    exact htp
  unfold BlockCache.placeUnlocked
  dsimp only
  split
  · split
    · exact h.setBlock_same fun _ => rfl
    · obtain ⟨ht, htp⟩ := hset s h hp { s.blocks b with
        flags := { (s.blocks b).flags with cleanerWaiting := false }, timeReferenced := 0 } fun _ => rfl
      exact ht.moveLru htp (.inl rfl)
  · obtain ⟨ht, htp⟩ := hset s h hp { s.blocks b with
      flags := { (s.blocks b).flags with cleanerWaiting := false, moveToFront := false }, timeReferenced := now } fun _ => rfl
    exact ht.moveLru htp (.inr rfl)

end

end

end SpriteKernel.Fscache
