import SpriteKernel.Fscache.CacheShrink

/- Blocks that are modified and written: they are put on the dirty list of their file, taken from it to be
   written, and returned, and the references of those that use them are given up. -/
namespace SpriteKernel.Fscache

open Function
open Shelves Tally
variable {c : CacheConfig} {s t : BlockCache} {pending : Set BlockHashKey}
  {held held' : Nat → Int} {out out' : Nat → BlockOut} {a b f : Nat} {block : FscacheBlock}

/-- The block is there for a file, in the cache or only until it has been written. -/
def View.There (x : View) : Prop := x.place = .cached ∨ x.place = .deleted

variable {v : Nat → View}

theorem dirtyHome_of (h : (v b).There) (hd : (v b).dirty = true) (ho : out b ≠ .written) :
    dirtyHome v out b = some (v b).cacheInfo := if_pos ⟨h, hd, ho⟩

variable {x : View} {onFront : Bool} {time : Int} {blockMatch : Nat → Bool} {status : WriteStatus} {flags : FileFlags}

theorem dirtyOf_there (h : x.There) (f : Nat) :
    x.dirtyOf f = if x.cacheInfo = f ∧ (x.dirty = true ∨ x.beingWritten = true) then 1 else 0 := by
  unfold View.dirtyOf View.InFile
  have hthere : x.place = .cached ∨ x.place = .deleted := h
  simp only [hthere, true_and]

theorem dirtyOf_dirty (h : x.There) (hd : x.dirty = true) (f : Nat) : x.dirtyOf f = if x.cacheInfo = f then 1 else 0 := by
  rw [dirtyOf_there h, hd]
  simp

theorem availOf_dirty (h : x.There) (hd : x.dirty = true) : x.availOf = 0 := by
  rw [availOf_there h, if_neg]
  rintro ⟨-, hx, -⟩
  rw [hd] at hx
  cases hx

theorem availOf_referenced (h : x.There) (hr : x.refCount ≠ 0) : x.availOf = 0 := by
  rw [availOf_there h, if_neg fun hx => hr hx.1]

theorem files_putFileOnDirtyList (g : Nat) : ((s.putFileOnDirtyList f time).files g).dirtyList = (s.files g).dirtyList ∧
    ((s.putFileOnDirtyList f time).files g).blocksInCache = (s.files g).blocksInCache ∧
    ((s.putFileOnDirtyList f time).files g).numDirtyBlocks = (s.files g).numDirtyBlocks := by
  unfold BlockCache.putFileOnDirtyList
  dsimp only
  split
  · exact ⟨rfl, rfl, rfl⟩
  · refine files_same ?_ g
    exact ⟨rfl, rfl, rfl⟩

theorem rest_putFileOnDirtyList : ∃ files, s.putFileOnDirtyList f time = { s with files := files } := by
  unfold BlockCache.putFileOnDirtyList
  dsimp only
  split
  · exact ⟨s.files, rfl⟩
  · exact ⟨_, rfl⟩

theorem putBlockOnDirtyList_eq (hb : (t.blocks b).cacheInfo = f) :
    ∃ u : BlockCache, ∃ time : Int, t.putBlockOnDirtyList b onFront = u.putFileOnDirtyList f time ∧
      (∃ files, u = { t with
        blocks := update t.blocks b { t.blocks b with flags := { (t.blocks b).flags with dirty := true } }, files := files }) ∧
      u.files = update t.files f
        { t.files f with dirtyList := if onFront then b :: (t.files f).dirtyList else (t.files f).dirtyList ++ [b] } := by
  subst hb
  exact ⟨_, _, rfl, ⟨_, rfl⟩, rfl⟩

theorem rest_putBlockOnDirtyList : ∃ files, t.putBlockOnDirtyList b onFront =
    { t with blocks := update t.blocks b { t.blocks b with flags := { (t.blocks b).flags with dirty := true } }, files := files } := by
  obtain ⟨u, time, heq, ⟨_, hu⟩, -⟩ := @putBlockOnDirtyList_eq t b _ onFront rfl
  obtain ⟨files, hf⟩ := @rest_putFileOnDirtyList u (t.blocks b).cacheInfo time
  refine ⟨files, ?_⟩
  rw [heq, hf, hu]

theorem files_putBlockOnDirtyList (hb : (t.blocks b).cacheInfo = f) (g : Nat) :
    ((t.putBlockOnDirtyList b onFront).files g).dirtyList = update (fun g => (t.files g).dirtyList) f
      (if onFront then b :: (t.files f).dirtyList else (t.files f).dirtyList ++ [b]) g ∧
    ((t.putBlockOnDirtyList b onFront).files g).blocksInCache = (t.files g).blocksInCache ∧
    ((t.putBlockOnDirtyList b onFront).files g).numDirtyBlocks = (t.files g).numDirtyBlocks := by
  obtain ⟨u, time, heq, -, hu⟩ := @putBlockOnDirtyList_eq t b f onFront hb
  obtain ⟨h₁, h₂, h₃⟩ := @files_putFileOnDirtyList u f time g
  rw [heq, h₁, h₂, h₃, hu]
  exact files_relist (by rfl) (by rfl) g

theorem Accounts.putDirty (h : Accounts c none pending s held out) (hthere : (s.view none b).There)
    (hx : x = { viewOf false block with dirty := true }) (hplace : x.place = (s.view none b).place)
    (hkey : x.cacheInfo = (s.view none b).cacheInfo ∧ x.blockNum = (s.view none b).blockNum)
    (hnone : dirtyHome (s.view none) out b = none) (havail : (s.view none b).availOf = 0)
    (ht : t.blocks = update s.blocks b block ∧ t.use = s.use ∧ t.hash = s.hash ∧ t.panicked = s.panicked)
    (hcounts : t.numAvailBlocks = s.numAvailBlocks ∧ t.numFreeBlocks = s.numFreeBlocks ∧ t.numCacheBlocks = s.numCacheBlocks)
    (hfiles : ∀ f, (t.files f).dirtyList = (s.files f).dirtyList ∧ (t.files f).blocksInCache = (s.files f).blocksInCache ∧
      (t.files f).numDirtyBlocks = (s.files f).numDirtyBlocks + (x.dirtyOf f - (s.view none b).dirtyOf f))
    (hok : BlockOk c x (held' b) (out' b)) (hheld : ∀ a, a ≠ b → held' a = held a ∧ out' a = out a) (hout : out' b ≠ .written) :
    Accounts c none pending (t.putBlockOnDirtyList b onFront) held' out' := by
  obtain ⟨hblocks, huse, hhash, hcalm⟩ := ht
  have hself : t.blocks b = block := by rw [hblocks, update_self]
  have hinfo : (t.blocks b).cacheInfo = x.cacheInfo := by
    rw [hself, hx]
    rfl
  have hput := fun g => @files_putBlockOnDirtyList t b _ onFront hinfo g
  have hxthere : x.There := by
    unfold View.There
    rw [hplace]
    exact hthere
  have hlists : Shelved (fun g => ((t.putBlockOnDirtyList b onFront).files g).dirtyList)
      (update (dirtyHome (s.view none) out) b (some x.cacheInfo)) := by
    have hold : Shelved (fun g => (t.files g).dirtyList) (dirtyHome (s.view none) out) :=
      (funext fun g => (hfiles g).1 : (fun g => (t.files g).dirtyList) = fun g => (s.files g).dirtyList) ▸ h.dirty
    rw [show (fun g => ((t.putBlockOnDirtyList b onFront).files g).dirtyList) = _ from funext fun g => (hput g).1]
    cases onFront with
    | true => exact hold.putFront hnone x.cacheInfo
    | false => exact hold.putRear hnone x.cacheInfo
  obtain ⟨files, hrest⟩ := @rest_putBlockOnDirtyList t b onFront
  have hview : (t.putBlockOnDirtyList b onFront).view none = update (s.view none) b x := by
    refine (@view_update s _ none none b { block with flags := { block.flags with dirty := true } } ?_ fun _ _ => Iff.rfl).trans ?_
    · rw [hrest]
      rw [hself, hblocks, Function.update_idem]
    · rw [hx]
      rfl
  refine h.touch hview hplace hkey ?_ ?_ ?_ hok hheld ?_ ?_ ?_ fun g => ?_
  · rw [hrest]
    exact hcalm.trans h.calm
  · rw [hrest]
    rw [huse]
    exact h.listed.lists
  · rw [hrest]
    exact hhash
  · refine shelved_dirtyHome hlists (fun a ha => (hheld a ha).2) ?_
    rw [dirtyHome_self, if_pos ⟨hxthere, by rw [hx], hout⟩]
  · rw [hrest, havail, availOf_dirty hxthere (by rw [hx])]
    exact hcounts.1.trans (Int.add_zero _).symm
  · rw [hrest]
    exact hcounts.2
  · rw [(hput g).2.1, (hput g).2.2]
    exact (hfiles g).2

/-! ### The blocks that processes have -/

section
variable (h : Accounts c none pending s held out)
include h

/-- What is done in `Fscache_UnlockBlock` before the block is given up. -/
theorem Accounts.held_there (hb : held b > 0) :
    (s.view none b).There ∧ Owned c (s.view none b) (held b) (out b) ∧ (s.view none b).availOf = 0 := by
  have hp := h.cached_of_held hb
  have ho := h.owned hp
  have hrefs := ho.refs
  refine ⟨.inl hp, ho, availOf_referenced (.inl hp) ?_⟩
  split at hrefs <;> omega

theorem Accounts.setDirty (hb : held b > 0) (hd : (s.blocks b).flags.dirty = false)
    (hblock : block = { s.blocks b with flags := { (s.blocks b).flags with dirty := true }, timeDirtied := time }) :
    Accounts c none pending
      (if (s.blocks b).flags.beingWritten then s.setBlock b block
        else ((s.setBlock b block).addDirtyBlocks (s.blocks b).cacheInfo 1).putBlockOnDirtyList b false) held out := by
  obtain ⟨hthere, ho, havail⟩ := h.held_there hb
  have hp := h.cached_of_held hb
  obtain ⟨x, hx⟩ : ∃ x : View, x = { s.view none b with dirty := true } := ⟨_, rfl⟩
  have hxblock : x = viewOf false block := by
    rw [hx, hblock]
    rfl
  have hxthere : x.There := by rw [hx]; exact hthere
  have hdt : (s.view none b).dirty = false := hd
  have hok : BlockOk c x (held b) (out b) := by
    rw [blockOk_cached (by rw [hx]; exact hp), hx]
    exact ⟨ho.nonneg, ho.refs, ho.written, fun _ => rfl, ho.fileNum⟩
  have hnone : dirtyHome (s.view none) out b = none := by
    unfold dirtyHome
    rw [if_neg]
    rintro ⟨-, hdirty, -⟩
    rw [hdt] at hdirty
    cases hdirty
  split
  next hw =>
    have hwritten : out b = .written := by
      cases hob : out b with
      | kept => exact absurd hob (ho.written.1 hw)
      | written => rfl
      | realloced =>
        have hr := ho.realloced hob
        rw [hdt] at hr
        cases hr
    refine h.touch (x := x) ?_ (by rw [hx]) (by rw [hx]; exact ⟨rfl, rfl⟩) h.calm h.listed.lists rfl hok (fun _ _ => ⟨rfl, rfl⟩) ?_ ?_ ⟨rfl, rfl⟩ ?_
    · rw [@view_update s _ none none b block rfl fun _ _ => Iff.rfl, hxblock]
      rfl
    · refine shelved_dirtyHome_keep h.dirty (fun _ _ => rfl) ?_
      rw [hnone, dirtyHome_self, if_neg]
      rintro ⟨-, -, hne⟩
      exact hne hwritten
    · rw [havail, availOf_dirty hxthere (by rw [hx])]
      exact (Int.add_zero _).symm
    · intro g
      rw [dirtyOf_there hthere, dirtyOf_there hxthere, hx]
      have hwv : (s.view none b).beingWritten = true := hw
      rw [hwv]
      refine ⟨rfl, ?_⟩
      simp only [or_true, and_true]
      show (s.files g).numDirtyBlocks = _
      omega
  next hw =>
    have hout : out b ≠ .written := by
      intro heq
      exact hw (ho.written.2 (by rw [heq]; decide))
    refine h.putDirty (x := x) hthere (show x = { viewOf false block with dirty := true } from ?_) (by rw [hx]) (by rw [hx]; exact ⟨rfl, rfl⟩) hnone havail ⟨rfl, rfl, rfl, rfl⟩
      ⟨rfl, rfl, rfl⟩ ?_ hok (fun _ _ => ⟨rfl, rfl⟩) hout
    · rw [← hxblock, hx]
    · intro g
      have hwv : (s.view none b).beingWritten = false := Bool.eq_false_iff.2 hw
      rw [dirtyOf_there hthere, dirtyOf_there hxthere, hdt, hwv, hx]
      unfold BlockCache.addDirtyBlocks BlockCache.setFile
      dsimp only
      by_cases hg : g = (s.blocks b).cacheInfo
      · subst hg
        rw [update_self]
        refine ⟨rfl, rfl, ?_⟩
        rw [if_pos ⟨rfl, .inl rfl⟩, if_neg (by rintro ⟨-, hf | hf⟩ <;> cases hf)]
        rfl
      · rw [update_of_ne hg]
        refine ⟨rfl, rfl, ?_⟩
        rw [if_neg fun hh => hg hh.1.symm, if_neg fun hh => hg hh.1.symm]
        exact (Int.add_zero _).symm

theorem Accounts.markDirty {beingCleaned : Bool} (hb : held b > 0) :
    Accounts c none pending (s.markDirty b time beingCleaned) held out := by
  have hset : ∀ t : BlockCache, Accounts c none pending t held out → (t.blocks b).cacheInfo = (s.blocks b).cacheInfo →
      Accounts c none pending (if (t.blocks b).flags.dirty then t
        else if (t.blocks b).flags.beingWritten then
          t.setBlock b { t.blocks b with flags := { (t.blocks b).flags with dirty := true }, timeDirtied := time }
        else ((t.setBlock b { t.blocks b with flags := { (t.blocks b).flags with dirty := true }, timeDirtied := time }).addDirtyBlocks
          (s.blocks b).cacheInfo 1).putBlockOnDirtyList b false) held out := by
    intro t ht hinfo
    split
    next => exact ht
    next hd =>
      rw [← hinfo]
      exact ht.setDirty hb (Bool.eq_false_iff.2 hd) rfl
  cases beingCleaned with
  | false => exact hset s h rfl
  | true =>
    refine hset _ ?_ ?_
    · have hfile : Accounts c none pending (s.setFileFlags (s.blocks b).cacheInfo
          { (s.files (s.blocks b).cacheInfo).flags with beingCleaned := true }) held out := h.setFile_same rfl rfl rfl
      exact hfile.setBlock_same fun _ => rfl
    · show (update s.blocks b _ b).cacheInfo = _
      rw [update_self]
      rfl

end

/-! ### The block cleaner -/

theorem dirtyHome_some (h : dirtyHome v out b = some f) :
    (v b).There ∧ (v b).dirty = true ∧ out b ≠ .written ∧ (v b).cacheInfo = f := by
  unfold dirtyHome at h
  split at h
  next hc => exact ⟨hc.1, hc.2.1, hc.2.2, Option.some.inj h⟩
  next => cases h

theorem Accounts.there_owned (h : Accounts c none pending s held out) (hthere : (s.view none b).There) :
    Owned c (s.view none b) (held b) (out b) := by
  have hok := h.blocks b
  unfold BlockOk at hok
  obtain hp | hp := hthere
  · rw [hp] at hok
    exact hok
  · rw [hp] at hok
    exact hok.1

/-- The scan finds an unreferenced block of the list, and only marks what it goes past. -/
theorem Accounts.scanDirty (l : List Nat) (h : Accounts c none pending s held out)
    (hl : ∀ a ∈ l, dirtyHome (s.view none) out a = some f) :
    ∃ t o, s.scanDirty c f blockMatch l = (t, o) ∧ Accounts c none pending t held out ∧
      ∀ b, o = some b → dirtyHome (t.view none) out b = some f ∧ ¬ (t.blocks b).refCount > 0 := by
  induction l generalizing s with
  | nil => exact ⟨s, none, rfl, h, fun _ hb => nomatch hb⟩
  | cons a rest ih =>
    have hhome := hl a List.mem_cons_self
    obtain ⟨hthere, -, -, hf⟩ := dirtyHome_some hhome
    have hnum : (s.blocks a).fileNum = c.fileNum f := hf ▸ (h.there_owned hthere).fileNum
    unfold BlockCache.scanDirty
    rw [if_neg (not_not.2 hnum)]
    split
    next href =>
      have hmark : Accounts c none pending (s.setFlags a { (s.blocks a).flags with cleanerWaiting := true }) held out :=
        h.setBlock_same fun _ => rfl
      refine ih hmark fun d hd => ?_
      have hview : (s.setFlags a { (s.blocks a).flags with cleanerWaiting := true }).view none = s.view none := by
        refine (@view_update s _ none none a _ rfl fun _ _ => Iff.rfl).trans ?_
        exact update_eq_self _ _
      rw [hview]
      exact hl d (List.mem_cons_of_mem a hd)
    next href =>
      split
      next =>
        refine ⟨s, some a, rfl, h, fun b hb => ?_⟩
        cases hb
        exact ⟨hhome, href⟩
      next => exact ih h fun d hd => hl d (List.mem_cons_of_mem a hd)

theorem Accounts.startWrite (h : Accounts c none pending s held out) (hhome : dirtyHome (s.view none) out b = some f)
    (hz : ¬ (s.blocks b).refCount > 0) :
    (s.startWrite f b).panicked = some .blockSize ∨
      Accounts c none pending (s.startWrite f b) held (update out b .written) := by
  obtain ⟨hthere, hd, -, hf⟩ := dirtyHome_some hhome
  have ho := h.there_owned hthere
  obtain ⟨hrc, hheld, -, -⟩ := ho.idle hz
  unfold BlockCache.startWrite
  dsimp only
  split
  next => exact .inl rfl
  next =>
    refine .inr ?_
    obtain ⟨block, hblock⟩ : ∃ block : FscacheBlock, block = { s.blocks b with
      refCount := (s.blocks b).refCount + 1,
      flags := { (s.blocks b).flags with dirty := false, beingCleaned := false, beingWritten := true } } := ⟨_, rfl⟩
    obtain ⟨x, hx⟩ : ∃ x, x = viewOf false block := ⟨_, rfl⟩
    have hplace : x.place = (s.view none b).place := by
      rw [hx, hblock]
      rfl
    have hxthere : x.There := by
      unfold View.There
      rw [hplace]
      exact hthere
    have hxr : x.refCount = 1 ∧ x.beingWritten = true ∧ x.dirty = false ∧ x.cacheInfo = (s.view none b).cacheInfo ∧
        x.blockNum = (s.view none b).blockNum ∧ x.fileNum = (s.view none b).fileNum := by
      rw [hx, hblock]
      refine ⟨?_, rfl, rfl, rfl, rfl, rfl⟩
      show (s.blocks b).refCount + 1 = 1
      have hzero : (s.blocks b).refCount = 0 := hrc
      omega
    have hxo : Owned c x (held b) .written := by
      refine ⟨ho.nonneg, ?_, ?_, fun heq => ?_, ?_⟩
      · rw [hxr.1, hheld, if_neg (by decide)]
        rfl
      · rw [hxr.2.1]
        exact ⟨fun _ => by decide, fun _ => rfl⟩
      · cases heq
      · rw [hxr.2.2.2.2.2, hxr.2.2.2.1]
        exact ho.fileNum
    have hfiles := @files_relist s f { s.files f with dirtyList := (s.files f).dirtyList.erase b } rfl rfl
    refine h.touch (x := x) ?_ hplace ⟨hxr.2.2.2.1, hxr.2.2.2.2.1⟩ h.calm h.listed.lists rfl ?_
      (fun a ha => ⟨rfl, update_of_ne ha _ _⟩) ?_ ?_ ⟨rfl, rfl⟩ fun g => ⟨(hfiles g).2.1, (hfiles g).2.2.trans ?_⟩
    · rw [hx]
      exact @view_update s _ none none b block (by rw [hblock]; rfl) fun _ _ => Iff.rfl
    · rw [update_self]
      unfold BlockOk
      obtain hp | hp := hthere
      · rw [hplace, hp]
        exact hxo
      · rw [hplace, hp]
        exact ⟨hxo, hheld, .inr hxr.2.1⟩
    · have htake := h.dirty.takeFrom (a := b) (i := f) fun j hj => Option.some.inj (hj.symm.trans hhome)
      have hlists : Shelved (fun g => ((s.setFile f { s.files f with dirtyList := (s.files f).dirtyList.erase b }).files g).dirtyList)
          (update (dirtyHome (s.view none) out) b none) := by
        rw [show (fun g => ((s.setFile f { s.files f with dirtyList := (s.files f).dirtyList.erase b }).files g).dirtyList) = _ from
          funext fun g => (hfiles g).1]
        exact htake
      refine shelved_dirtyHome hlists (fun a ha => update_of_ne ha _ _) ?_
      rw [dirtyHome_self, if_neg]
      rintro ⟨-, hdirty, -⟩
      rw [hxr.2.2.1] at hdirty
      cases hdirty
    · rw [availOf_dirty hthere hd, availOf_referenced hxthere (by rw [hxr.1]; decide)]
      exact (Int.add_zero _).symm
    · rw [dirtyOf_there hthere, dirtyOf_there hxthere, hxr.2.2.2.1, hxr.2.1, hd]
      simp

theorem Accounts.getDirtyBlock (h : Accounts c none pending s held out) :
    ∃ t o, s.getDirtyBlock c f blockMatch = (t, o) ∧ (t.panicked = some .blockSize ∨
      Accounts c none pending t held (match o with | some b => update out b .written | none => out)) := by
  unfold BlockCache.getDirtyBlock
  dsimp only
  split
  next => exact ⟨s, none, rfl, .inr h⟩
  next =>
    obtain ⟨t, o, heq, ht, hfound⟩ := @Accounts.scanDirty c s pending held out f blockMatch (s.files f).dirtyList h fun a ha => (h.dirty.mem f a).1 ha
    rw [heq]
    cases o with
    | none => exact ⟨t, none, rfl, .inr ht⟩
    | some b =>
      obtain ⟨hhome, hz⟩ := hfound b rfl
      exact ⟨_, some b, rfl, ht.startWrite hhome hz⟩

/-! ### Blocks that have been written -/

theorem Accounts.out_there (h : Accounts c none pending s held out) (hb : out b ≠ .kept) :
    (s.view none b).There ∧ Owned c (s.view none b) (held b) (out b) ∧ (s.view none b).availOf = 0 ∧
      (s.blocks b).refCount = held b + 1 ∧ (s.blocks b).flags.beingWritten = true := by
  obtain ⟨hthere, ho, -⟩ := h.there_of_out hb
  have hrefs := ho.refs
  have hnonneg := ho.nonneg
  rw [if_neg hb] at hrefs
  refine ⟨hthere, ho, availOf_referenced hthere (by omega), hrefs, ho.written.2 hb⟩

theorem blockOk_returned (h : Accounts c none pending s held out) (hb : out b ≠ .kept)
    (hplace : x.place = (s.view none b).place) (hrefs : x.refCount = (s.blocks b).refCount - 1) (hw : x.beingWritten = false)
    (hnum : x.cacheInfo = (s.view none b).cacheInfo ∧ x.fileNum = (s.view none b).fileNum)
    (hdirty : x.place = .deleted → x.dirty = true) : BlockOk c x (held b) .kept := by
  obtain ⟨hthere, ho, -, hrc, -⟩ := h.out_there hb
  have hxo : Owned c x (held b) .kept := by
    refine ⟨ho.nonneg, ?_, ?_, fun heq => (nomatch heq), ?_⟩
    · rw [hrefs, hrc, if_pos rfl]
      omega
    · rw [hw]
      exact ⟨fun heq => (nomatch heq), fun hne => absurd rfl hne⟩
    · rw [hnum.1, hnum.2]
      exact ho.fileNum
  unfold BlockOk
  obtain hp | hp := hthere
  · rw [hplace, hp]
    exact hxo
  · rw [hplace, hp]
    exact ⟨hxo, (h.there_of_out hb).2.2 hp, .inl (hdirty (hplace.trans hp))⟩

theorem dirtyHome_written (hb : out b = .written) : dirtyHome v out b = none := by
  unfold dirtyHome
  rw [if_neg]
  rintro ⟨-, -, hne⟩
  exact hne hb

theorem dirtyOf_written (h : Accounts c none pending s held out) (hb : out b = .written) (g : Nat) :
    (if (s.blocks b).cacheInfo = g then -1 else 0 : Int) = 0 - (s.view none b).dirtyOf g := by
  obtain ⟨hthere, -, -, -, hw⟩ := h.out_there (b := b) (by rw [hb]; decide)
  rw [dirtyOf_there hthere, show (s.view none b).beingWritten = true from hw]
  show _ = 0 - if (s.blocks b).cacheInfo = g ∧ _ then 1 else 0
  by_cases hg : (s.blocks b).cacheInfo = g
  · simp [hg]
  · simp [hg]

section
variable (h : Accounts c none pending s held out)
include h

theorem Accounts.returnDirty {o : BlockOut} (hb : out b = .written)
    (hblock : block = if o = .realloced then s.blocks b else
      { s.blocks b with refCount := (s.blocks b).refCount - 1, flags := { (s.blocks b).flags with beingWritten := false } })
    (ho : o ≠ .written) (hfiles : ∀ g, (t.files g).dirtyList = (s.files g).dirtyList ∧ (t.files g).blocksInCache = (s.files g).blocksInCache ∧
      (t.files g).numDirtyBlocks = (s.files g).numDirtyBlocks)
    (ht : (∃ d, t.blocks = update s.blocks b { block with flags := { block.flags with dirty := d } }) ∧ t.use = s.use ∧
      t.hash = s.hash ∧ t.panicked = s.panicked)
    (hcounts : t.numAvailBlocks = s.numAvailBlocks ∧ t.numFreeBlocks = s.numFreeBlocks ∧ t.numCacheBlocks = s.numCacheBlocks) :
    Accounts c none pending (t.putBlockOnDirtyList b true) held (update out b o) := by
  have hkept : out b ≠ .kept := by rw [hb]; decide
  obtain ⟨hthere, how, havail, -, hw⟩ := h.out_there hkept
  obtain ⟨⟨d, hblocks⟩, huse, hhash, hcalm⟩ := ht
  obtain ⟨x, hx⟩ : ∃ x : View, x = { viewOf false block with dirty := true } := ⟨_, rfl⟩
  have hsame : x.place = (s.view none b).place ∧ x.cacheInfo = (s.view none b).cacheInfo ∧ x.blockNum = (s.view none b).blockNum ∧
      x.fileNum = (s.view none b).fileNum := by
    rw [hx, hblock]
    split
    · exact ⟨rfl, rfl, rfl, rfl⟩
    · exact ⟨rfl, rfl, rfl, rfl⟩
  have hxthere : x.There := by
    unfold View.There
    rw [hsame.1]
    exact hthere
  refine h.putDirty (x := x) hthere ?_ hsame.1 ⟨hsame.2.1, hsame.2.2.1⟩ (dirtyHome_written hb) havail ⟨hblocks, huse, hhash, hcalm⟩ hcounts
    (fun g => ⟨(hfiles g).1, (hfiles g).2.1, (hfiles g).2.2.trans ?_⟩) ?_ (fun a ha => ⟨rfl, update_of_ne ha _ _⟩) ?_
  · rw [hx]
    rfl
  · have hwv : (s.view none b).beingWritten = true := hw
    have hxd : x.dirty = true := by rw [hx]
    rw [dirtyOf_there hthere, dirtyOf_there hxthere, hsame.2.1, hwv, hxd]
    simp
  · rw [update_self]
    cases o with
    | written => exact absurd rfl ho
    | kept =>
      rw [if_neg (by decide)] at hblock
      refine blockOk_returned h hkept hsame.1 ?_ ?_ ⟨hsame.2.1, hsame.2.2.2⟩ fun _ => by rw [hx]
      · rw [hx, hblock]
        rfl
      · rw [hx, hblock]
        rfl
    | realloced =>
      rw [if_pos rfl] at hblock
      have hxo : Owned c x (held b) .realloced := by
        have hrefs := how.refs
        rw [if_neg hkept] at hrefs
        refine ⟨how.nonneg, ?_, ?_, fun _ => by rw [hx], ?_⟩
        · rw [hx, hblock]
          exact hrefs
        · rw [hx, hblock]
          exact ⟨fun _ => by decide, fun _ => hw⟩
        · rw [hsame.2.1, hsame.2.2.2]
          exact how.fileNum
      unfold BlockOk
      obtain hp | hp := hthere
      · rw [hsame.1, hp]
        exact hxo
      · rw [hsame.1, hp]
        exact ⟨hxo, (h.there_of_out hkept).2.2 hp, .inl (by rw [hx])⟩
  · rw [update_self]
    exact ho

section
variable (hb : out b = .written) (hd : (s.blocks b).flags.dirty = false)
    (hblock : block = { s.blocks b with refCount := (s.blocks b).refCount - 1, flags := { (s.blocks b).flags with beingWritten := false } })
    (ht : t.blocks = update s.blocks b block ∧ t.use = s.use ∧ t.hash = s.hash ∧ t.panicked = s.panicked)
    (havail : t.numAvailBlocks = s.numAvailBlocks + if block.refCount = 0 then 1 else 0)
    (hcounts : t.numFreeBlocks = s.numFreeBlocks ∧ t.numCacheBlocks = s.numCacheBlocks)
include hb hd hblock ht havail hcounts

theorem Accounts.returnClean (hp : (s.view none b).place = .cached)
    (hfiles : ∀ g, (t.files g).dirtyList = (s.files g).dirtyList ∧ (t.files g).blocksInCache = (s.files g).blocksInCache ∧
      (t.files g).numDirtyBlocks = (s.files g).numDirtyBlocks + if (s.blocks b).cacheInfo = g then -1 else 0) :
    Accounts c none pending t held (update out b .kept) := by
  have hkept : out b ≠ .kept := by rw [hb]; decide
  obtain ⟨-, -, hold, -, -⟩ := h.out_there hkept
  subst hblock
  refine h.touch (x := viewOf false _) (view_update ht.1 fun _ _ => Iff.rfl) rfl ⟨rfl, rfl⟩ (ht.2.2.2.trans h.calm)
    (ht.2.1 ▸ h.listed.lists) ht.2.2.1 ?_ (fun a ha => ⟨rfl, update_of_ne ha _ _⟩) ?_ ?_ hcounts
    fun g => ⟨(hfiles g).2.1, (hfiles g).2.2.trans ?_⟩
  · rw [update_self]
    exact blockOk_returned h hkept rfl rfl rfl ⟨rfl, rfl⟩ fun heq => absurd (hp.symm.trans heq) (by decide)
  · rw [show (fun g => (t.files g).dirtyList) = fun g => (s.files g).dirtyList from funext fun g => (hfiles g).1]
    refine shelved_dirtyHome_keep h.dirty (fun a ha => update_of_ne ha _ _) ?_
    rw [dirtyHome_written hb, dirtyHome_self, if_neg]
    rintro ⟨-, hdirty, -⟩
    cases hd.symm.trans hdirty
  · rw [havail, hold, availOf_there]
    · simp [viewOf, hd]
    · exact .inl hp
  · rw [dirtyOf_clean hd rfl, dirtyOf_written h hb]

/-- The block was there only to be written: it is neither in the hash table nor on a list. -/
theorem Accounts.returnDeleted (hp : (s.view none b).place = .deleted)
    (hfiles : ∀ g, (t.files g).dirtyList = (s.files g).dirtyList ∧
      (t.files g).blocksInCache = (s.files g).blocksInCache + (if (s.blocks b).cacheInfo = g then -1 else 0) ∧
      (t.files g).numDirtyBlocks = (s.files g).numDirtyBlocks + if (s.blocks b).cacheInfo = g then -1 else 0) :
    Accounts c (some b) pending t held (update out b .kept) := by
  have hkept : out b ≠ .kept := by rw [hb]; decide
  obtain ⟨hthere, -, hold, hrc, hw⟩ := h.out_there hkept
  have hheld := (h.there_of_out hkept).2.2 hp
  have hzero : block.refCount = 0 := by
    rw [hblock]
    dsimp only
    omega
  rw [if_pos hzero] at havail
  have hxp : (viewOf true block).place = .loose := rfl
  have hnot : ¬ ((viewOf true block).place = .cached ∨ (viewOf true block).place = .deleted) := by
    rw [hxp]
    decide
  have hlt : b < c.maxNumBlocks := h.listed.lt (by rw [hp]; decide)
  have hhome : ∀ a, homeOf c (update (s.view none) b (viewOf true block)) a = homeOf c (s.view none) a := by
    intro a
    by_cases ha : a = b
    · subst ha
      rw [homeOf_update_self hlt, hxp]
      unfold homeOf
      rw [if_pos hlt, hp]
    · refine homeOf_update_of_ne ha fun _ _ _ => ?_
      rw [hxp, hp]
      decide
  refine h.change (b := b) (x := viewOf true block) ?_ (ht.2.2.2.trans h.calm) ?_ ?_ (fun a ha => ⟨rfl, update_of_ne ha _ _⟩) ?_ ?_ ?_
  · rw [view_update ht.1 (loose_iff b), decide_eq_true rfl]
  · rw [ht.2.1]
    exact h.listed.change hlt (fun _ => by rw [hxp, hp]; decide) (h.listed.lists.congr hhome)
  · rw [update_self]
    exact ⟨hzero, hheld, rfl⟩
  · rw [ht.2.2.1]
    exact h.hashed.keep (by rw [hxp, hp]; decide) fun hc => by rw [hxp] at hc; cases hc
  · rw [show (fun g => (t.files g).dirtyList) = fun g => (s.files g).dirtyList from funext fun g => (hfiles g).1]
    refine shelved_dirtyHome_keep h.dirty (fun a ha => update_of_ne ha _ _) ?_
    rw [dirtyHome_written hb, dirtyHome_self, if_neg fun hx => hnot hx.1]
  · refine h.counted.change b _ ?_ ?_ ?_ (fun g => ?_) fun g => ?_
    · rw [havail, hold]
      rfl
    · rw [hcounts.1]
      unfold View.freeOf
      rw [hxp, hp]
      exact (Int.add_zero _).symm
    · rw [hcounts.2]
      unfold View.cacheOf
      rw [hxp, hp]
      exact (Int.add_zero _).symm
    · rw [(hfiles g).2.1, inFileOf_elsewhere hnot, inFileOf_there hthere]
      show _ = _ + (0 - if (s.blocks b).cacheInfo = g then 1 else 0)
      split <;> omega
    · rw [(hfiles g).2.2, dirtyOf_elsewhere hnot, dirtyOf_written h hb]

end

end

theorem addDirtyBlocks_putOnFreeList {n : Int} : (s.putOnFreeList c b).addDirtyBlocks f n = (s.addDirtyBlocks f n).putOnFreeList c b := by
  unfold BlockCache.putOnFreeList
  by_cases h8 : c.pageIs8K = true
  · rw [if_pos h8, if_pos h8]
    by_cases ho : (((s.setFlags b { free := true }).addFree 1).blocks (otherBlock b)).flags.free = true
    · rw [if_pos ho]
      exact (if_pos ho).symm
    · rw [if_neg ho]
      exact (if_neg ho).symm
  · rw [if_neg h8, if_neg h8]
    rfl

theorem files_addDirtyBlocks {n : Int} (g : Nat) : ((s.addDirtyBlocks f n).files g).dirtyList = (s.files g).dirtyList ∧
    ((s.addDirtyBlocks f n).files g).blocksInCache = (s.files g).blocksInCache ∧
    ((s.addDirtyBlocks f n).files g).numDirtyBlocks = (s.files g).numDirtyBlocks + if f = g then n else 0 := by
  unfold BlockCache.addDirtyBlocks BlockCache.setFile
  dsimp only
  by_cases hg : g = f
  · subst hg
    rw [update_self, if_pos rfl]
    exact ⟨rfl, rfl, rfl⟩
  · rw [update_of_ne hg, if_neg (Ne.symm hg)]
    exact ⟨rfl, rfl, (Int.add_zero _).symm⟩

theorem files_setFileFlags (g : Nat) : ((s.setFileFlags f flags).files g).dirtyList = (s.files g).dirtyList ∧
    ((s.setFileFlags f flags).files g).blocksInCache = (s.files g).blocksInCache ∧
    ((s.setFileFlags f flags).files g).numDirtyBlocks = (s.files g).numDirtyBlocks := by
  refine files_same ?_ g
  exact ⟨rfl, rfl, rfl⟩

/-- What `Fscache_ReturnDirtyBlock` does with a block not modified while it was written -/
theorem Accounts.blockCleaned (h : Accounts c none pending s held out) (hb : out b = .written)
    (hd : (s.blocks b).flags.dirty = false)
    (hblock : block = { s.blocks b with refCount := (s.blocks b).refCount - 1, flags := { (s.blocks b).flags with beingWritten := false } })
    (hinfo : (s.blocks b).cacheInfo = f) :
    Accounts c none pending (((s.setBlock b block).setFileFlags f flags).blockCleaned c f b) held (update out b .kept) := by
  have hkept : out b ≠ .kept := by rw [hb]; decide
  obtain ⟨hthere, -⟩ := h.out_there hkept
  obtain ⟨t, ht⟩ : ∃ t : BlockCache, t = if block.refCount = 0 then ((s.setBlock b block).setFileFlags f flags).addAvail 1
    else (s.setBlock b block).setFileFlags f flags := ⟨_, rfl⟩
  have hself : ((s.setBlock b block).setFileFlags f flags).blocks b = block := update_self _ _ _
  have hrest : t.blocks = update s.blocks b block ∧ t.use = s.use ∧ t.hash = s.hash ∧ t.panicked = s.panicked ∧
      t.numAvailBlocks = s.numAvailBlocks + (if block.refCount = 0 then 1 else 0) ∧ t.numFreeBlocks = s.numFreeBlocks ∧
      t.numCacheBlocks = s.numCacheBlocks ∧ t.files = ((s.setBlock b block).setFileFlags f flags).files := by
    rw [ht]
    split
    · exact ⟨rfl, rfl, rfl, rfl, rfl, rfl, rfl, rfl⟩
    · exact ⟨rfl, rfl, rfl, rfl, (Int.add_zero _).symm, rfl, rfl, rfl⟩
  obtain ⟨hblocks, huse, hhash, hcalm, havail, hfree, hcache, hf⟩ := hrest
  have hfiles := fun g => @files_setFileFlags (s.setBlock b block) f flags g
  have htself : t.blocks b = block := by rw [hblocks, update_self]
  unfold BlockCache.blockCleaned
  dsimp only
  rw [hself, ← ht, htself]
  by_cases hdel : block.flags.deleted = true
  · -- the block is freed
    have hp : (s.view none b).place = .deleted := by
      obtain hc | hp := hthere
      · have hndel := (placeOf_cached.1 hc).2.2
        rw [hblock] at hdel
        rw [hndel] at hdel
        cases hdel
      · exact hp
    rw [if_pos hdel, addDirtyBlocks_putOnFreeList]
    refine Accounts.putOnFreeList ?_
    refine h.returnDeleted hb hd hblock ⟨hblocks, huse, hhash, hcalm⟩ havail ⟨hfree, hcache⟩ hp fun g => ?_
    obtain ⟨h₁, h₂, h₃⟩ := @files_addDirtyBlocks (t.addBlocksInCache f (-1)) f (-1) g
    obtain ⟨k₁, k₂, k₃⟩ := @files_addBlocksInCache t f (-1) g
    obtain ⟨l₁, l₂, l₃⟩ := hfiles g
    rw [h₁, h₂, h₃, k₁, k₂, k₃, hf, l₁, l₂, l₃, hinfo]
    exact ⟨rfl, rfl, rfl⟩
  · have hp : (s.view none b).place = .cached := by
      obtain hc | hp := hthere
      · exact hc
      · have hd' := (placeOf_deleted.1 hp).2.2
        rw [hblock] at hdel
        exact absurd hd' hdel
    have hclean : Accounts c none pending (t.addDirtyBlocks f (-1)) held (update out b .kept) := by
      refine h.returnClean hb hd hblock ⟨hblocks, huse, hhash, hcalm⟩ havail ⟨hfree, hcache⟩ hp fun g => ?_
      obtain ⟨h₁, h₂, h₃⟩ := @files_addDirtyBlocks t f (-1) g
      obtain ⟨l₁, l₂, l₃⟩ := hfiles g
      rw [h₁, h₂, h₃, hf, l₁, l₂, l₃, hinfo]
      exact ⟨rfl, rfl, rfl⟩
    rw [if_neg hdel]
    split
    · have hpt : ((t.addDirtyBlocks f (-1)).view none b).place = .cached := by
        show placeOf false (t.blocks b).flags = _
        rw [htself, hblock]
        exact hp
      have hmoved := hclean.moveLru hpt (.inl rfl)
      refine hmoved.setBlock_same fun l => ?_
      show viewOf l { t.blocks b with flags := { block.flags with moveToFront := false } } = viewOf l (t.blocks b)
      rw [htself]
      rfl
    · exact hclean

/-- A file's flags, errors and the time it was last tried are not part of the books. -/
theorem files_writeFailed {now : Int} : ∃ files, s.writeFailed f status now = { s with files := files } ∧
    ∀ g, (files g).dirtyList = (s.files g).dirtyList ∧ (files g).blocksInCache = (s.files g).blocksInCache ∧
      (files g).numDirtyBlocks = (s.files g).numDirtyBlocks :=
  ⟨_, rfl, files_same ⟨rfl, rfl, rfl⟩⟩

theorem dirty_setFlags {flags : BlockFlags} {fileFlags : FileFlags} :
    (((s.setFlags b flags).setFileFlags f fileFlags).blocks b).flags.dirty = flags.dirty := by
  show (update s.blocks b _ b).flags.dirty = _
  rw [update_self]

def returnedAs (status : WriteStatus) : BlockOut :=
  match status with
  | .deviceError => .realloced
  | _ => .kept

section
variable (h : Accounts c none pending s held out)
include h

theorem Accounts.returnDirtyBlock {now : Int} (hb : out b = .written) :
    Accounts c none pending (s.returnDirtyBlock c b status now) held (update out b (returnedAs status)) := by
  obtain ⟨block, hblock⟩ : ∃ block : FscacheBlock, block = { s.blocks b with
    refCount := (s.blocks b).refCount - 1, flags := { (s.blocks b).flags with beingWritten := false } } := ⟨_, rfl⟩
  have hkeep : block = if BlockOut.kept = .realloced then s.blocks b else { s.blocks b with
      refCount := (s.blocks b).refCount - 1, flags := { (s.blocks b).flags with beingWritten := false } } := by
    exact hblock
  have hfail : ∀ st : WriteStatus, Accounts c none pending
      (((s.setBlock b block).writeFailed (s.blocks b).cacheInfo st now).putBlockOnDirtyList b true) held (update out b .kept) := by
    intro st
    obtain ⟨files, hw, hfiles⟩ := @files_writeFailed (s.setBlock b block) (s.blocks b).cacheInfo st now
    rw [hw]
    exact h.returnDirty hb hkeep (by decide) hfiles ⟨⟨block.flags.dirty, rfl⟩, rfl, rfl, rfl⟩ ⟨rfl, rfl, rfl⟩
  have hwritten : ∀ d, Accounts c none pending
      (((s.setBlock b { block with flags := { block.flags with dirty := d } }).setFileFlags (s.blocks b).cacheInfo
        { (s.files (s.blocks b).cacheInfo).flags with serverDown := false, noDiskSpace := false, genericError := false }).putBlockOnDirtyList b true)
      held (update out b .kept) := by
    intro d
    exact h.returnDirty hb hkeep (by decide) (fun g => files_setFileFlags g) ⟨⟨d, rfl⟩, rfl, rfl, rfl⟩
      ⟨rfl, rfl, rfl⟩
  unfold BlockCache.returnDirtyBlock returnedAs
  rw [← hblock]
  cases status with
  | success =>
    dsimp only
    have hself : ∀ flags, (((s.setBlock b block).setFileFlags (s.blocks b).cacheInfo flags).blocks b).flags.dirty = (s.blocks b).flags.dirty := by
      intro flags
      show (update s.blocks b block b).flags.dirty = _
      rw [update_self, hblock]
    rw [hself]
    cases hd : (s.blocks b).flags.dirty with
    | true => exact hwritten block.flags.dirty
    | false => exact h.blockCleaned hb hd hblock rfl
  | interrupted =>
    dsimp only
    split
    next =>
      refine h.returnDirty hb hkeep (by decide) (fun g => files_setFileFlags g)
        ⟨⟨true, ?_⟩, rfl, rfl, rfl⟩ ⟨rfl, rfl, rfl⟩
      refine (Function.update_idem _ _ _).trans ?_
      rw [show (s.setBlock b block).blocks b = block from update_self _ _ _, hblock]
    next hclean => exact absurd dirty_setFlags hclean
  | deviceError =>
    obtain ⟨back, hback⟩ : ∃ back : FscacheBlock, back = { block with
      refCount := block.refCount + 1, flags := { block.flags with beingWritten := true } } := ⟨_, rfl⟩
    have hsame : back = s.blocks b := by
      have hkept : out b ≠ .kept := by rw [hb]; decide
      have hw := (h.out_there hkept).2.2.2.2
      rw [hback, hblock]
      cases hs : s.blocks b with
      | mk td tr ci fn bn db bs rc fl =>
        rw [hs] at hw
        rw [Int.sub_add_cancel, ← hw]
    have hagain : ∀ t : BlockCache, t.blocks = update s.blocks b back → t = { s with blocks := t.blocks } →
        Accounts c none pending ((t.writeFailed (s.blocks b).cacheInfo .deviceError now).putBlockOnDirtyList b true) held
          (update out b .realloced) := by
      intro t hblocks hrest
      obtain ⟨files, hw, hfiles⟩ := @files_writeFailed t (s.blocks b).cacheInfo .deviceError now
      rw [hw]
      refine h.returnDirty hb (if_pos rfl).symm (by decide) ?_ ⟨⟨(s.blocks b).flags.dirty, ?_⟩, ?_, ?_, ?_⟩ ?_
      · rw [hrest] at hfiles
        exact hfiles
      · exact hblocks.trans (by rw [hsame])
      · rw [hrest]
      · rw [hrest]
      · rw [hrest]
      · rw [hrest]
        exact ⟨rfl, rfl, rfl⟩
    refine hagain _ ?_ rfl
    rw [hback]
    show update (update s.blocks b block) b _ = _
    rw [Function.update_idem, hblock]
  | serverDown => exact hfail .serverDown
  | noDiskSpace => exact hfail .noDiskSpace
  | domainUnavailable => exact hfail .domainUnavailable
  | other => exact hfail .other

theorem Accounts.finishRealloc {diskBlock : Int} (hb : out b = .realloced) :
    Accounts c none pending (s.finishRealloc b diskBlock) held (update out b .kept) := by
  have hkept : out b ≠ .kept := by rw [hb]; decide
  obtain ⟨hthere, ho, havail, -, hw⟩ := h.out_there hkept
  have hd : (s.view none b).dirty = true := ho.realloced hb
  have hgive : ∀ block : FscacheBlock, (∀ l, viewOf l block = viewOf l { s.blocks b with
      refCount := (s.blocks b).refCount - 1, flags := { (s.blocks b).flags with beingWritten := false } }) →
      Accounts c none pending (s.setBlock b block) held (update out b .kept) := by
    intro block hblock
    refine h.touch ((view_update rfl fun _ _ => Iff.rfl).trans (congrArg _ (hblock _))) rfl ⟨rfl, rfl⟩ h.calm h.listed.lists rfl ?_
      (fun a ha => ⟨rfl, update_of_ne ha _ _⟩) ?_ ?_ ⟨rfl, rfl⟩ fun g => ⟨rfl, ?_⟩
    · rw [update_self]
      exact blockOk_returned h hkept rfl rfl rfl ⟨rfl, rfl⟩ fun _ => hd
    · refine shelved_dirtyHome_keep h.dirty (fun a ha => update_of_ne ha _ _) ?_
      rw [dirtyHome_of hthere hd (by rw [hb]; decide), dirtyHome_self, update_self, if_pos]
      · rfl
      · exact ⟨hthere, hd, by decide⟩
    · rw [havail, availOf_dirty]
      exacts [(Int.add_zero _).symm, hthere, hd]
    · rw [dirtyOf_dirty hthere hd, dirtyOf_dirty]
      exacts [((congrArg _ (Int.sub_self _)).trans (Int.add_zero _)).symm, hthere, hd]
  unfold BlockCache.finishRealloc
  split
  · refine Accounts.putFileOnDirtyList ?_
    refine Accounts.setFile_same ?_ rfl rfl rfl
    have hset : (s.setBlock b { s.blocks b with
        refCount := (s.blocks b).refCount - 1, flags := { (s.blocks b).flags with beingWritten := false } }).setBlock b { s.blocks b with
        refCount := (s.blocks b).refCount - 1, flags := { (s.blocks b).flags with beingWritten := false }, diskBlock := diskBlock } =
        s.setBlock b { s.blocks b with
        refCount := (s.blocks b).refCount - 1, flags := { (s.blocks b).flags with beingWritten := false }, diskBlock := diskBlock } := by
      unfold BlockCache.setBlock
      rw [Function.update_idem]
    exact hset ▸ hgive _ fun _ => rfl
  · exact hgive _ fun _ => rfl

theorem Accounts.getDirtyFile (ht : s.getDirtyFile f = some t) : Accounts c none pending t held out := by
  unfold BlockCache.getDirtyFile at ht
  dsimp only at ht
  split at ht
  next =>
    cases ht
    exact h.setFile_same rfl rfl rfl
  next => cases ht

theorem Accounts.returnDirtyFile : Accounts c none pending (s.returnDirtyFile f) held out := by
  have hset : ∀ flags, Accounts c none pending (s.setFileFlags f flags) held out := fun flags => h.setFile_same rfl rfl rfl
  have hput : ∀ flags : FileFlags, Accounts c none pending
      (if ((s.files f).numDirtyBlocks > 0 ∨ flags.descDirty = true) ∧ flags.gone = false then
        (s.setFileFlags f flags).putFileOnDirtyList f (s.files f).oldestDirtyBlockTime
      else s.setFileFlags f flags) held out := by
    intro flags
    split
    · exact (hset flags).putFileOnDirtyList
    · exact hset flags
  exact hput _

end

end SpriteKernel.Fscache
