import SpriteKernel.Fscache.CacheWrite

/- Files are invalidated and written back, block by block: each block that is found is taken from the cache,
   or is left to the block cleaner. -/
namespace SpriteKernel.Fscache

open Function
open Shelves Tally
variable {c : CacheConfig} {s t : BlockCache} {pending : Set BlockHashKey} {held : Nat → Int} {out : Nat → BlockOut} {b f : Nat} {i : Int}

theorem place_dereference : ((s.dereference b).view none b).place = (s.view none b).place := by
  have hset : ∀ t : BlockCache, t.blocks = update s.blocks b { s.blocks b with refCount := (s.blocks b).refCount - 1 } →
      (t.view none b).place = (s.view none b).place := by
    intro t ht
    rw [@view_update s t none none b _ ht fun _ _ => Iff.rfl, update_self]
    rfl
  unfold BlockCache.dereference
  dsimp only
  split
  · exact hset _ rfl
  · exact hset _ rfl

theorem Accounts.found (h : Accounts c none pending s held out) (hkey : s.hash (f, i) = some (some b)) :
    (s.view none b).place = .cached ∧ (s.blocks b).cacheInfo = f ∧ (s.blocks b).blockNum = i ∧ (s.blocks b).fileNum = c.fileNum f := by
  obtain ⟨hp, hk⟩ := (h.hashed.block (f, i) b).1 hkey
  have hf : (s.blocks b).cacheInfo = f := (congrArg Prod.fst hk).symm
  exact ⟨hp, hf, (congrArg Prod.snd hk).symm, hf ▸ (h.owned hp).fileNum⟩

/-- What a routine comes to that may use the block of an entry that has none -/
def Kept (c : CacheConfig) (pending : Set BlockHashKey) (held : Nat → Int) (out : Nat → BlockOut) (s : BlockCache) : Prop :=
  (s.panicked = some .nilBlock ∧ pending.Nonempty) ∨ Accounts c none pending s held out

theorem Accounts.panic_nil (h : Accounts c none pending s held out) (hkey : s.hash (f, i) = some none) :
    Kept c pending held out (s.panic .nilBlock) :=
  .inl ⟨rfl, (f, i), (h.hashed.nil (f, i)).1 hkey⟩

theorem Kept.setFileFlags {flags : FileFlags} (h : Kept c pending held out s) : Kept c pending held out (s.setFileFlags f flags) := by
  obtain hp | h := h
  · exact .inl hp
  · exact .inr (h.setFile_same rfl rfl rfl)

theorem Accounts.loosen_dirty (h : Accounts c none pending s held out) (hp : (s.view none b).place = .cached)
    (hz : ¬ (s.blocks b).refCount > 0) (hd : (s.blocks b).flags.dirty = true) (hf : (s.blocks b).cacheInfo = f)
    (hfiles : ∀ g, (t.files g).dirtyList = update (fun g => (s.files g).dirtyList) f ((s.files f).dirtyList.erase b) g ∧
      (t.files g).blocksInCache = (s.files g).blocksInCache + (if f = g then -1 else 0) ∧
      (t.files g).numDirtyBlocks = (s.files g).numDirtyBlocks + if f = g then -1 else 0)
    (ht : t = { s with
      files := t.files, hash := update s.hash (f, (s.blocks b).blockNum) none, use := takeOff s.use b,
      numAvailBlocks := s.numAvailBlocks + 1 }) :
    Accounts c (some b) pending t held out := by
  have hthere : (s.view none b).There := .inl hp
  have hkept := ((h.owned hp).idle hz).2.2.1
  have hhome : dirtyHome (s.view none) out b = some f := hf ▸ dirtyHome_of hthere hd (by rw [hkept]; decide)
  refine h.loosen hp hz ?_ ?_ ?_ ?_ ?_ ?_ ?_ fun g => ⟨?_, ?_⟩
  · rw [ht]
  · rw [ht]
    exact h.calm
  · rw [ht]
  · rw [ht, hf]
  · rw [show (fun g => (t.files g).dirtyList) = _ from funext fun g => (hfiles g).1]
    exact h.dirty.takeFrom fun j hj => Option.some.inj (hj.symm.trans hhome)
  · rw [ht, availOf_dirty hthere hd]
    rfl
  · rw [ht]
    exact ⟨rfl, rfl⟩
  · rw [(hfiles g).2.1, hf]
  · rw [(hfiles g).2.2, dirtyOf_dirty hthere hd, show (s.view none b).cacheInfo = f from hf]
    split <;> rfl

theorem deleteBlockFromDirtyList_eq (hf : (s.blocks b).cacheInfo = f) : ∃ flags, s.deleteBlockFromDirtyList b =
    s.setFile f { s.files f with dirtyList := (s.files f).dirtyList.erase b, flags := flags } := by
  subst hf
  unfold BlockCache.deleteBlockFromDirtyList
  dsimp only
  split
  · exact ⟨_, rfl⟩
  · exact ⟨_, rfl⟩

theorem files_deleteBlockFromDirtyList (hf : (s.blocks b).cacheInfo = f) (g : Nat) :
    ((s.deleteBlockFromDirtyList b).files g).dirtyList = update (fun g => (s.files g).dirtyList) f ((s.files f).dirtyList.erase b) g ∧
    ((s.deleteBlockFromDirtyList b).files g).blocksInCache = (s.files g).blocksInCache ∧
    ((s.deleteBlockFromDirtyList b).files g).numDirtyBlocks = (s.files g).numDirtyBlocks := by
  obtain ⟨flags, heq⟩ := deleteBlockFromDirtyList_eq hf
  rw [heq]
  exact files_relist (by rfl) (by rfl) g

theorem Accounts.invalidateBlock (h : Accounts c none pending s held out) (hkey : s.hash (f, i) = some (some b))
    (hz : ¬ (s.blocks b).refCount > 0) : Accounts c none pending (s.invalidateBlock c f i b) held out := by
  obtain ⟨hp, hf, hi, hnum⟩ := h.found hkey
  have hidle := (h.owned hp).idle hz
  unfold BlockCache.invalidateBlock
  rw [if_neg (not_not.2 hnum)]
  refine Accounts.putOnFreeList ?_
  have hdirty : (((s.addBlocksInCache f (-1)).hashDelete (f, i)).blocks b).flags.dirty = (s.blocks b).flags.dirty := rfl
  rw [hdirty]
  cases hd : (s.blocks b).flags.dirty with
  | true =>
    obtain ⟨t, ht⟩ : ∃ t, t = ((s.addBlocksInCache f (-1)).hashDelete (f, i)).addDirtyBlocks f (-1) := ⟨_, rfl⟩
    have htf : (t.blocks b).cacheInfo = f := by
      rw [ht]
      exact hf
    have hlists := fun g => @files_deleteBlockFromDirtyList t b f htf g
    have hcounts := fun g => @files_addDirtyBlocks ((s.addBlocksInCache f (-1)).hashDelete (f, i)) f (-1) g
    have hblocks := fun g => @files_addBlocksInCache s f (-1) g
    obtain ⟨flags, heq⟩ := deleteBlockFromDirtyList_eq htf
    rw [if_pos rfl, ← ht]
    refine h.loosen_dirty hp hz hd hf (fun g => ?_) ?_
    · obtain ⟨h₁, h₂, h₃⟩ := hlists g
      have hsame : ∀ g, (t.files g).dirtyList = (s.files g).dirtyList := by
        intro g
        rw [ht]
        exact (hcounts g).1.trans (hblocks g).1
      refine ⟨h₁.trans ?_, h₂.trans ?_, h₃.trans ?_⟩
      · rw [funext hsame, hsame]
      · rw [ht]
        exact (hcounts g).2.1.trans (hblocks g).2.1
      · rw [ht, (hcounts g).2.2]
        show ((s.addBlocksInCache f (-1)).files g).numDirtyBlocks + _ = _
        rw [(hblocks g).2.2]
    · rw [heq, ht, hi]
      rfl
  | false =>
    rw [if_neg (by decide)]
    refine h.loosen_clean hp hz ?_ (by rw [hf, hi])
    unfold FscacheBlock.dirtyOrWritten
    rw [hd, show (s.blocks b).flags.beingWritten = false from hidle.2.2.2]
    rfl

/-- A block a write-back takes from the cache stays, if dirty, until it has been written. -/
theorem Accounts.releaseBlock (h : Accounts c none pending s held out) (hkey : s.hash (f, i) = some (some b))
    (hz : ¬ (s.blocks b).refCount > 0) : Accounts c none pending (s.releaseBlock c f i b) held out := by
  obtain ⟨hp, hf, hi, -⟩ := h.found hkey
  have ho := h.owned hp
  have hidle := ho.idle hz
  have hflags := placeOf_cached.1 hp
  unfold BlockCache.releaseBlock
  dsimp only
  split
  next hdw =>
    rw [if_neg (by rw [hflags.2.2]; decide)]
    have hd : (s.blocks b).flags.dirty = true := by
      unfold FscacheBlock.dirtyOrWritten at hdw
      rw [show (s.blocks b).flags.beingWritten = false from hidle.2.2.2, Bool.or_false] at hdw
      exact hdw
    obtain ⟨block, hblock⟩ : ∃ block : FscacheBlock,
      block = { s.blocks b with flags := { (s.blocks b).flags with deleted := true } } := ⟨_, rfl⟩
    obtain ⟨x, hx⟩ : ∃ x : View, x = viewOf false block := ⟨_, rfl⟩
    have hxp : x.place = .deleted := by
      rw [hx, hblock]
      exact placeOf_deleted.2 ⟨hflags.1, hflags.2.1, rfl⟩
    have hsame : x.refCount = (s.view none b).refCount ∧ x.dirty = (s.view none b).dirty ∧ x.beingWritten = (s.view none b).beingWritten ∧
        x.cacheInfo = (s.view none b).cacheInfo ∧ x.blockNum = (s.view none b).blockNum ∧ x.fileNum = (s.view none b).fileNum := by
      rw [hx, hblock]
      exact ⟨rfl, rfl, rfl, rfl, rfl, rfl⟩
    obtain ⟨hr, hdx, hw, hc, -, hn⟩ := hsame
    have hdv : (s.view none b).dirty = true := hd
    refine h.change (b := b) (x := x) ?_ h.calm (h.listed.remove hp (.inr hxp)) ?_ (fun _ _ => ⟨rfl, rfl⟩) ?_ ?_ ?_
    · rw [hx]
      exact @view_update s _ none none b block (by rw [hblock]; rfl) fun _ _ => Iff.rfl
    · unfold BlockOk
      rw [hxp]
      refine ⟨⟨ho.nonneg, hr ▸ ho.refs, hw ▸ ho.written, fun _ => hdx.trans hdv, ?_⟩, hidle.2.1, .inl (hdx.trans hdv)⟩
      rw [hn, hc]
      exact ho.fileNum
    · exact h.hashed.delete hp (by rw [hxp]; decide) (by rw [show (s.view none b).cacheInfo = f from hf, show (s.view none b).blockNum = i from hi])
    · refine shelved_dirtyHome_keep h.dirty (fun _ _ => rfl) ?_
      rw [dirtyHome_of (.inl hp) hdv (by rw [hidle.2.2.1]; decide), dirtyHome_self,
        if_pos ⟨.inr hxp, hdx.trans hdv, by rw [hidle.2.2.1]; decide⟩, hc]
    · have hthere : x.There := .inr hxp
      refine h.counted.change b x ?_ ?_ ?_ (fun g => ?_) fun g => ?_
      · rw [availOf_dirty hthere (hdx.trans hdv), availOf_dirty (.inl hp) hdv]
        exact (Int.add_zero _).symm
      · unfold View.freeOf
        rw [hxp, hp]
        exact (Int.add_zero _).symm
      · unfold View.cacheOf
        rw [hxp, hp]
        exact (Int.add_zero _).symm
      · rw [inFileOf_there hthere, inFileOf_there (.inl hp), hc, Int.sub_self]
        exact (Int.add_zero _).symm
      · rw [dirtyOf_dirty hthere (hdx.trans hdv), dirtyOf_dirty (.inl hp) hdv, hc, Int.sub_self]
        exact (Int.add_zero _).symm
  next hdw =>
    refine Accounts.putOnFreeList ?_
    exact h.loosen_clean hp hz (Bool.eq_false_iff.2 hdw) (by rw [hf, hi])

/-! ### The loops -/

theorem Accounts.invalidateLoop (n : Nat) (h : Accounts c none pending s held out) :
    Kept c pending held out (s.invalidateLoop c f n i).1 := by
  induction n generalizing s i with
  | zero => exact .inr h
  | succ n ih =>
    unfold BlockCache.invalidateLoop BlockCache.getUnlockedBlock
    cases hkey : s.hash (f, i) with
    | none => exact ih h
    | some o =>
      cases o with
      | none => exact h.panic_nil hkey
      | some b =>
        dsimp only
        split
        next heq => split at heq <;> cases heq
        next heq => split at heq <;> cases heq
        next => exact .inr h
        next heq =>
          split at heq
          next => cases heq
          next hidle =>
            cases heq
            exact ih (h.invalidateBlock hkey fun hr => hidle (.inl hr))

theorem Kept.clearIfNone (h : Kept c pending held out s) : Kept c pending held out (s.clearIfNone f) := by
  unfold BlockCache.clearIfNone
  split
  · exact h.setFileFlags
  · exact h

variable {lastBlock : Int}

theorem Accounts.invalidateFrom (h : Accounts c none pending s held out) :
    Kept c pending held out (s.invalidateFrom c f i lastBlock).1 ∧ received held (s.invalidateFrom c f i lastBlock).2 = held := by
  have hl := @Accounts.invalidateLoop c s pending held out f i (lastBlock - i + 1).toNat h
  unfold BlockCache.invalidateFrom
  cases hloop : s.invalidateLoop c f (lastBlock - i + 1).toNat i with
  | mk t o =>
    rw [hloop] at hl
    cases o with
    | none => exact ⟨hl.clearIfNone, rfl⟩
    | some i => exact ⟨hl, rfl⟩

theorem Accounts.cacheFileInvalidate (h : Accounts c none pending s held out) :
    Kept c pending held out (s.cacheFileInvalidate c f i lastBlock).1 ∧
      received held (s.cacheFileInvalidate c f i lastBlock).2 = held := by
  unfold BlockCache.cacheFileInvalidate
  split
  · exact h.invalidateFrom
  · refine ⟨?_, rfl⟩
    have hkept : Kept c pending held out s := .inr h
    exact hkept.clearIfNone

variable {flags : WriteBackFlags}

theorem Accounts.writeBackLoop {fsyncFile : Bool} (n : Nat) (h : Accounts c none pending s held out) :
    Kept c pending held out (s.writeBackLoop c f flags n i fsyncFile).1 := by
  induction n generalizing s i fsyncFile with
  | zero => exact .inr h
  | succ n ih =>
    unfold BlockCache.writeBackLoop
    cases hkey : s.hash (f, i) with
    | none => exact ih h
    | some o =>
      cases o with
      | none => exact h.panic_nil hkey
      | some b =>
        dsimp only
        rw [if_neg (not_not.2 (h.found hkey).2.2.2)]
        split
        next =>
          split
          · exact .inr h
          · exact ih h
        next hz =>
          refine ih ?_
          split
          · exact h.releaseBlock hkey hz
          · exact h

theorem Accounts.writeBackFrom {fsyncFile : Bool} (h : Accounts c none pending s held out) :
    Kept c pending held out (s.writeBackFrom c f i lastBlock flags fsyncFile).1 ∧
      received held (s.writeBackFrom c f i lastBlock flags fsyncFile).2 = held := by
  have hl := @Accounts.writeBackLoop c s pending held out f i flags fsyncFile (lastBlock - i + 1).toNat h
  unfold BlockCache.writeBackFrom
  cases hloop : s.writeBackLoop c f flags (lastBlock - i + 1).toNat i fsyncFile with
  | mk t r =>
    obtain ⟨o, fsyncFile'⟩ := r
    rw [hloop] at hl
    cases o with
    | none =>
      refine ⟨?_, rfl⟩
      dsimp only
      split
      · exact hl.setFileFlags
      · exact hl
    | some i => exact ⟨hl, rfl⟩

theorem Accounts.fileWriteBack (h : Accounts c none pending s held out) :
    Kept c pending held out (s.fileWriteBack c f i lastBlock flags).1 ∧
      received held (s.fileWriteBack c f i lastBlock flags).2 = held := by
  have hclear : Accounts c none pending (s.setFileFlags f (s.files f).flags.clearErrors) held out := h.setFile_same rfl rfl rfl
  unfold BlockCache.fileWriteBack
  dsimp only
  split
  · refine ⟨.inr ?_, rfl⟩
    split
    · exact hclear.startFileSync
    · exact hclear
  · exact hclear.writeBackFrom

/-! ### Fscache_UnlockBlock -/

theorem Accounts.unlockBlock {timeDirtied diskBlock blockSize now : Int} {flags : UnlockFlags} (h : Accounts c none pending s held out)
    (hb : held b > 0) : Kept c pending (update held b (held b - 1)) out
      (s.unlockBlock c b timeDirtied diskBlock blockSize flags now).1 ∧
    received (update held b (held b - 1)) (s.unlockBlock c b timeDirtied diskBlock blockSize flags now).2 =
      update held b (held b - 1) := by
  have hfree := (placeOf_cached.1 (h.cached_of_held hb)).2.1
  unfold BlockCache.unlockBlock
  rw [if_neg (show ¬ (s.blocks b).flags.free = true by rw [hfree]; decide)]
  split
  · exact (h.ioDone.dereference hb).cacheFileInvalidate
  · have hgive : ∀ u : BlockCache, Accounts c none pending u held out → Accounts c none pending
        (if (((u.setSize b diskBlock blockSize).dereference b).blocks b).refCount = 0 then
          ((u.setSize b diskBlock blockSize).dereference b).placeUnlocked b flags.unneeded now
        else (u.setSize b diskBlock blockSize).dereference b) (update held b (held b - 1)) out := by
      intro u hu
      have hsized := @Accounts.setSize c u none pending held out b hu diskBlock blockSize
      have hgiven := hsized.dereference hb
      split
      · exact hgiven.placeUnlocked (place_dereference.trans (hsized.cached_of_held hb))
      · exact hgiven
    have hread : ∀ u : BlockCache, Accounts c none pending u held out →
        Accounts c none pending (if timeDirtied ≠ 0 then u.markDirty b timeDirtied flags.beingCleaned else u) held out := by
      intro u hu
      split
      · exact hu.markDirty hb
      · exact hu
    refine ⟨.inr (hgive _ (hread _ ?_)), rfl⟩
    split
    · exact h.ioDone.setBlock_same fun _ => rfl
    · exact h.ioDone

end SpriteKernel.Fscache
