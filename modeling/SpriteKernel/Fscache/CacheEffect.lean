import SpriteKernel.Fscache.CacheFrame

/- What a step of writers, backends and processes that wait for blocks to be written does to the cache: it
   leaves alone what `Frame` says, or a block is entered, modified, taken to be written or returned, or
   a file is taken or returned. -/
namespace SpriteKernel.Fscache

open Function
open Shelves Tally
variable {c : CacheConfig} {pending : Set BlockHashKey}

/-- A backend asks for blocks of a file it has, and returns the file after them; no blocks are deleted. -/
def CacheSystem.WritesBack (s : CacheSystem) : CacheStep → Prop
  | .getDirtyBlock f _ => (s.cache.files f).flags.beingWritten = true
  | .returnDirtyFile f => ∀ b, s.out b = .written → (s.cache.blocks b).cacheInfo ≠ f
  | .fileInvalidate .. => False
  | .unlockBlock _ _ _ _ _ flags _ => flags.delete = false
  | .resume p _ _ _ => ∀ f i lastBlock, s.calls p ≠ some (.invalidate f i lastBlock)
  | .destroyBlock => False
  | _ => True

def WriteStatus.outAfter : WriteStatus → BlockOut
  | .deviceError => .realloced
  | _ => .kept

inductive CacheSystem.Effect (c : CacheConfig) (s t : CacheSystem) : CacheStep → Prop
  | frame {a : CacheStep} (hframe : Frame s.cache t.cache) (hout : t.out = s.out) : Effect c s t a
  | entered {a : CacheStep} (u : BlockCache) (b f : Nat) (n : Int) (flags : FetchFlags) (now : Int) (hframe : Frame s.cache u)
      (hclean : (u.blocks b).dirtyOrWritten = false) (hcache : t.cache = u.enterBlock c f n flags now b) (hout : t.out = s.out) :
      Effect c s t a
  | dirtied {p b : Nat} {time diskBlock blockSize now : Int} {flags : UnlockFlags} (hheld : s.held b > 0) (htime : time ≠ 0)
      (hdirty : Dirtied s.cache t.cache b) (hout : t.out = s.out) : Effect c s t (.unlockBlock p b time diskBlock blockSize flags now)
  | started {f : Nat} {blockMatch : Nat → Bool} (u : BlockCache) (b : Nat) (hclose : (s.cache.files f).flags.closeInProgress = false)
      (hframe : Frame s.cache u) (hhome : dirtyHome (u.view none) s.out b = some f) (hidle : ¬ (u.blocks b).refCount > 0)
      (hcache : t.cache = u.startWrite f b) (hout : t.out = update s.out b .written) : Effect c s t (.getDirtyBlock f blockMatch)
  | returned {b : Nat} {status : WriteStatus} {now : Int} (hb : s.out b = .written)
      (hcache : t.cache = s.cache.returnDirtyBlock c b status now)
      (hout : t.out = update s.out b status.outAfter) :
      Effect c s t (.returnDirtyBlock b status now)
  | realloced {b : Nat} {diskBlock : Int} (hb : s.out b = .realloced) (hcache : t.cache = s.cache.finishRealloc b diskBlock)
      (hout : t.out = update s.out b .kept) : Effect c s t (.finishRealloc b diskBlock)
  | taken {f : Nat} (hcache : s.cache.getDirtyFile f = some t.cache) (hout : t.out = s.out) : Effect c s t (.getDirtyFile f)
  | given {f : Nat} (hf : (s.cache.files f).flags.beingWritten = true) (hcache : t.cache = s.cache.returnDirtyFile f)
      (hout : t.out = s.out) : Effect c s t (.returnDirtyFile f)

theorem CacheSystem.finish_cache {s : CacheSystem} {p : Nat} {r : BlockCache × CacheEnd} :
    (s.finish p r).cache = r.1 ∧ (s.finish p r).out = s.out := by
  obtain ⟨t, e⟩ := r
  cases e with
  | waits call => exact ⟨rfl, rfl⟩
  | returns o => cases o <;> exact ⟨rfl, rfl⟩

section Effects
variable {s t : CacheSystem} {a : CacheStep}

theorem CacheSystem.effect_finish {p : Nat} {r : BlockCache × CacheEnd} {held : Nat → Int} (h : Frame s.cache r.1) :
    Effect c s (CacheSystem.finish { s with held := held } p r) a := by
  obtain ⟨hcache, hout⟩ := @CacheSystem.finish_cache { s with held := held } p r
  exact .frame (hcache ▸ h) hout

theorem CacheSystem.effect_fetch {p f : Nat} {n now : Int} {flags : FetchFlags} {vms : List VmAnswer} {r : BlockCache × CacheEnd}
    (h : Accounts c none pending s.cache s.held s.out) (hr : BlockCache.fetchLoop c f n flags now vms s.cache = some r) :
    Effect c s (s.finish p r) a := by
  obtain ⟨u, e⟩ := r
  obtain ⟨hcache, hout⟩ := @CacheSystem.finish_cache s p (u, e)
  obtain hframe | ⟨v, b, hframe, -, hclean, hu⟩ := h.fetchLoop_frame hr
  · exact .frame (hcache ▸ hframe) hout
  · exact .entered v b f n flags now hframe hclean (hcache.trans hu) hout

theorem Accounts.getDirtyBlock_cases {s : BlockCache} {held : Nat → Int} {out : Nat → BlockOut} {f : Nat} {blockMatch : Nat → Bool}
    (h : Accounts c none pending s held out) :
    (Frame s (s.getDirtyBlock c f blockMatch).1 ∧ (s.getDirtyBlock c f blockMatch).2 = none) ∨
      ∃ u b, (s.files f).flags.closeInProgress = false ∧ Frame s u ∧ dirtyHome (u.view none) out b = some f ∧
        ¬ (u.blocks b).refCount > 0 ∧ s.getDirtyBlock c f blockMatch = (u.startWrite f b, some b) := by
  unfold BlockCache.getDirtyBlock
  dsimp only
  split
  next => exact .inl ⟨.refl s, rfl⟩
  next hflags =>
    obtain ⟨u, o, heq, -, hfound⟩ := @Accounts.scanDirty c s pending held out f blockMatch (s.files f).dirtyList h fun b hb => (h.dirty.mem f b).1 hb
    have hframe := @Frame.scanDirty c f blockMatch (s.files f).dirtyList s
    rw [heq] at hframe ⊢
    cases o with
    | none => exact .inl ⟨hframe, rfl⟩
    | some b =>
      obtain ⟨hhome, hidle⟩ := hfound b rfl
      refine .inr ⟨u, b, ?_, hframe, hhome, hidle, rfl⟩
      exact Bool.eq_false_iff.2 fun hclose => hflags (.inl hclose)

theorem CacheSystem.effect_of_step (h : Accounts c none pending s.cache s.held s.out) (hw : s.WritesBack a) (hs : s.step c a = some t) :
    Effect c s t a := by
  unfold CacheSystem.step at hs
  split at hs
  next => cases hs
  next =>
    cases a with
    | fetchBlock p f n flags now vms =>
      dsimp only at hs
      split at hs
      next =>
        obtain ⟨r, hr, rfl⟩ := Option.map_eq_some_iff.1 hs
        exact effect_fetch h hr
      next => cases hs
    | fileInvalidate p f firstBlock lastBlock lastByte => exact hw.elim
    | fileWriteBack p f firstBlock lastBlock lastByte flags =>
      dsimp only at hs
      split at hs
      next =>
        cases hs
        exact effect_finish h.fileWriteBack_frame
      next => cases hs
    | unlockBlock p b time diskBlock blockSize flags now =>
      dsimp only at hs
      split at hs
      next hb =>
        cases hs
        obtain ⟨-, hfree, -⟩ := placeOf_cached.1 (h.cached_of_held hb.2)
        obtain ⟨-, hframe⟩ | ⟨htime, hdirty⟩ := @unlockBlock_frame c s.cache b time diskBlock blockSize now flags hfree hw
        · exact effect_finish hframe
        · obtain ⟨hcache, hout⟩ := @finish_cache { s with held := update s.held b (s.held b - 1) } p
            (s.cache.unlockBlock c b time diskBlock blockSize flags now)
          exact .dirtied hb.2 htime (hcache ▸ hdirty) hout
      next => cases hs
    | resume p shuttingDown now vms =>
      obtain ⟨call, hcall, hmap⟩ := Option.bind_eq_some_iff.1 hs
      obtain ⟨r, hr, rfl⟩ := Option.map_eq_some_iff.1 hmap
      cases call with
      | fetchBlock f n flags => exact effect_fetch h hr
      | invalidate f i lastBlock => exact absurd hcall (hw f i lastBlock)
      | writeBack f i lastBlock flags fsyncFile =>
        cases hr
        cases shuttingDown with
        | true => exact effect_finish (.refl s.cache)
        | false => exact effect_finish h.writeBackFrom_frame
    | ioDone b =>
      dsimp only at hs
      split at hs
      next =>
        cases hs
        exact .frame Frame.ioDone rfl
      next => cases hs
    | getDirtyBlock f blockMatch =>
      dsimp only at hs
      obtain ⟨hframe, hnone⟩ | ⟨u, b, hclose, hframe, hhome, hidle, heq⟩ := @Accounts.getDirtyBlock_cases c pending s.cache s.held s.out f blockMatch h
      · split at hs
        next hcase =>
          rw [hcase] at hnone
          cases hnone
        next hcase =>
          cases hs
          rw [hcase] at hframe
          exact .frame hframe rfl
      · rw [heq] at hs
        cases hs
        exact .started u b hclose hframe hhome hidle rfl rfl
    | returnDirtyBlock b status now =>
      dsimp only at hs
      split at hs
      next hb =>
        cases hs
        exact .returned hb rfl (by cases status <;> rfl)
      next => cases hs
    | finishRealloc b diskBlock =>
      dsimp only at hs
      split at hs
      next hb =>
        cases hs
        exact .realloced hb rfl rfl
      next => cases hs
    | getDirtyFile f =>
      obtain ⟨u, hu, rfl⟩ := Option.map_eq_some_iff.1 hs
      exact .taken hu rfl
    | returnDirtyFile f =>
      dsimp only at hs
      split at hs
      next hf =>
        cases hs
        exact .given hf rfl rfl
      next => cases hs
    | createBlock mapped =>
      obtain ⟨⟨u, b⟩, hu, rfl⟩ := Option.map_eq_some_iff.1 hs
      exact .frame (h.createBlock_frame hu).1 rfl
    | destroyBlock => exact hw.elim
    | setMaxCacheBlocks n =>
      cases hs
      exact .frame (Frame.of_same rfl rfl fun _ _ => id) rfl
    | setMinNumAvailBlocks n =>
      cases hs
      exact .frame (Frame.of_same rfl rfl fun _ _ => id) rfl

end Effects

/-! ### What is left of a file -/

section Files
variable {s : BlockCache} {b f : Nat}

theorem startWrite_files (g : Nat) : ((s.startWrite f b).files g).flags = (s.files g).flags ∧
    ((s.startWrite f b).files g).numDirtyBlocks = (s.files g).numDirtyBlocks := by
  have hset : ((s.startWrite f b).files g) = update s.files f { s.files f with dirtyList := (s.files f).dirtyList.erase b } g := by
    unfold BlockCache.startWrite
    dsimp only
    split <;> rfl
  rw [hset]
  by_cases hg : g = f
  · subst hg
    rw [update_self]
    exact ⟨rfl, rfl⟩
  · rw [update_of_ne hg]
    exact ⟨rfl, rfl⟩

theorem putFileOnDirtyList_num {time : Int} (g : Nat) : ((s.putFileOnDirtyList f time).files g).numDirtyBlocks = (s.files g).numDirtyBlocks := by
  have hframe := @Frame.putFileOnDirtyList s f time
  exact (hframe.file g).numDirtyBlocks

theorem finishRealloc_num {diskBlock : Int} (g : Nat) :
    ((s.finishRealloc b diskBlock).files g).numDirtyBlocks = (s.files g).numDirtyBlocks := by
  unfold BlockCache.finishRealloc
  split
  · rw [putFileOnDirtyList_num]
    exact update_same (f := s.files) (g := FileInfo.numDirtyBlocks) (by rfl) g
  · rfl

theorem enterBlock_same {n now : Int} {flags : FetchFlags} : (∀ g, ((s.enterBlock c f n flags now b).files g).flags = (s.files g).flags ∧
    ((s.enterBlock c f n flags now b).files g).numDirtyBlocks = (s.files g).numDirtyBlocks ∧
    ((s.enterBlock c f n flags now b).files g).dirtyList = (s.files g).dirtyList) ∧
    ∀ a, a ≠ b → (s.enterBlock c f n flags now b).blocks a = s.blocks a := by
  obtain ⟨x, hx⟩ : ∃ x : FscacheBlock, x = { s.blocks b with
    cacheInfo := f, refCount := 1, flags := { readAhead := flags.readAhead, ioInProgress := true }, fileNum := c.fileNum f,
    blockNum := n, blockSize := -1, timeDirtied := 0, timeReferenced := now } := ⟨_, rfl⟩
  obtain ⟨u, hu⟩ : ∃ u, u = (s.addBlocksInCache f 1).setBlock b x := ⟨_, rfl⟩
  have hframe : (s.enterBlock c f n flags now b).files = u.files ∧ (s.enterBlock c f n flags now b).blocks = u.blocks := by
    unfold BlockCache.enterBlock BlockCache.checkAvail
    dsimp only
    rw [hu, hx]
    split
    · split <;> exact ⟨rfl, rfl⟩
    · exact ⟨rfl, rfl⟩
  rw [hframe.1, hframe.2, hu]
  constructor
  · intro g
    show (update s.files f _ g).flags = _ ∧ (update s.files f _ g).numDirtyBlocks = _ ∧
      (update s.files f _ g).dirtyList = _
    by_cases hg : g = f
    · subst hg
      rw [update_self]
      exact ⟨rfl, rfl, rfl⟩
    · rw [update_of_ne hg]
      exact ⟨rfl, rfl, rfl⟩
  · intro a ha
    exact update_of_ne ha _ _

end Files
end SpriteKernel.Fscache
