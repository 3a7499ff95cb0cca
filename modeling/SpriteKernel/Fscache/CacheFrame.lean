import SpriteKernel.Fscache.CacheAccounts

/- What the cache's routines leave alone: a block that is dirty or being written stays, for the block of the file
   that it is, unless it is modified, or given to the block cleaner or returned; and so do the file flags that closes
   and write-backs go by. -/
namespace SpriteKernel.Fscache

open Function
open Shelves Tally
variable {c : CacheConfig} {s t u : BlockCache} {pending : Set BlockHashKey}
  {held : Nat → Int} {out : Nat → BlockOut} {b f : Nat} {i : Int} {block : FscacheBlock}

def FscacheBlock.key (b : FscacheBlock) : BlockHashKey := (b.cacheInfo, b.blockNum)

/-- What is left alone of a file -/
structure FileFrame (x y : FileInfo) : Prop where
  closeInProgress : y.flags.closeInProgress = x.flags.closeInProgress
  beingWritten : y.flags.beingWritten = x.flags.beingWritten
  descDirty : y.flags.descDirty = x.flags.descDirty
  gone : y.flags.gone = x.flags.gone
  onDirtyList : x.flags.onDirtyList = true → y.flags.onDirtyList = true
  dirtyList : y.dirtyList = x.dirtyList
  numDirtyBlocks : y.numDirtyBlocks = x.numDirtyBlocks

/-- What is left alone of a block -/
structure BlockFrame (hash : BlockHashKey → Option (Option Nat)) (x y : FscacheBlock) : Prop where
  dirty : y.flags.dirty = x.flags.dirty
  beingWritten : y.flags.beingWritten = x.flags.beingWritten
  key : x.dirtyOrWritten = true → y.key = x.key
  deleted : x.dirtyOrWritten = true → y.flags.deleted = true → x.flags.deleted = true ∨ ∀ b, hash y.key ≠ some (some b)

structure Frame (s t : BlockCache) : Prop where
  file : ∀ f, FileFrame (s.files f) (t.files f)
  block : ∀ b, BlockFrame t.hash (s.blocks b) (t.blocks b)
  hash : ∀ key b, t.hash key = some (some b) → s.hash key = some (some b)

theorem FileFrame.refl (x : FileInfo) : FileFrame x x := ⟨rfl, rfl, rfl, rfl, id, rfl, rfl⟩

theorem FileFrame.trans {x y z : FileInfo} (h : FileFrame x y) (h' : FileFrame y z) : FileFrame x z where
  closeInProgress := h'.closeInProgress.trans h.closeInProgress
  beingWritten := h'.beingWritten.trans h.beingWritten
  descDirty := h'.descDirty.trans h.descDirty
  gone := h'.gone.trans h.gone
  onDirtyList hx := h'.onDirtyList (h.onDirtyList hx)
  dirtyList := h'.dirtyList.trans h.dirtyList
  numDirtyBlocks := h'.numDirtyBlocks.trans h.numDirtyBlocks

theorem BlockFrame.refl (hash : BlockHashKey → Option (Option Nat)) (x : FscacheBlock) : BlockFrame hash x x :=
  ⟨rfl, rfl, fun _ => rfl, fun _ => .inl⟩

variable {hash : BlockHashKey → Option (Option Nat)} {x y : FscacheBlock} {cantBlock : Bool} {key : BlockHashKey}

theorem BlockFrame.dirtyOrWritten (h : BlockFrame hash x y) : y.dirtyOrWritten = x.dirtyOrWritten := by
  unfold FscacheBlock.dirtyOrWritten
  rw [h.dirty, h.beingWritten]

theorem Frame.refl (s : BlockCache) : Frame s s := ⟨fun _ => .refl _, fun _ => .refl _ _, fun _ _ => id⟩

theorem BlockFrame.trans {hash' : BlockHashKey → Option (Option Nat)} {z : FscacheBlock} (h : BlockFrame hash x y)
    (h' : BlockFrame hash' y z) (hhash : ∀ key a, hash' key = some (some a) → hash key = some (some a)) : BlockFrame hash' x z := by
  refine ⟨h'.dirty.trans h.dirty, h'.beingWritten.trans h.beingWritten, fun hx => ?_, fun hx hdel => ?_⟩
  · exact (h'.key (h.dirtyOrWritten.trans hx)).trans (h.key hx)
  · have hy := h.dirtyOrWritten.trans hx
    obtain hd | hnone := h'.deleted hy hdel
    · obtain hd | hnone := h.deleted hx hd
      · exact .inl hd
      · right
        intro a ha
        rw [h'.key hy] at ha
        exact hnone a (hhash _ a ha)
    · exact .inr hnone

theorem Frame.trans (h : Frame s t) (h' : Frame t u) : Frame s u :=
  ⟨fun f => (h.file f).trans (h'.file f), fun b => (h.block b).trans (h'.block b) h'.hash, fun key b hk => h.hash key b (h'.hash key b hk)⟩

/-- Only lists, counts and entries of the hash table are changed. -/
theorem Frame.of_same (hf : t.files = s.files) (hb : t.blocks = s.blocks)
    (hh : ∀ key b, t.hash key = some (some b) → s.hash key = some (some b)) : Frame s t := by
  refine ⟨fun f => ?_, fun b => ?_, hh⟩
  · rw [hf]
    exact .refl _
  · rw [hb]
    exact .refl _ _

theorem Frame.setBlock (hx : BlockFrame s.hash (s.blocks b) block) : Frame s (s.setBlock b block) := by
  refine ⟨fun _ => .refl _, fun a => ?_, fun _ _ => id⟩
  exact update_rel (R := fun new old => BlockFrame s.hash old new) hx (BlockFrame.refl _) a

theorem Frame.setFile {info : FileInfo} (hx : FileFrame (s.files f) info) : Frame s (s.setFile f info) := by
  refine ⟨fun g => ?_, fun _ => .refl _ _, fun _ _ => id⟩
  exact update_rel (R := fun new old => FileFrame old new) hx FileFrame.refl g

theorem Frame.hashDelete : Frame s (s.hashDelete key) := by
  refine Frame.of_same rfl rfl fun k b hk => ?_
  exact (of_update_ne hk nofun).2

theorem Frame.hashFind : Frame s (s.hashFind key) := by
  unfold BlockCache.hashFind
  split
  next => exact .refl s
  next hnone =>
    refine Frame.of_same rfl rfl fun k b hk => ?_
    exact (of_update_ne hk nofun).2

theorem Frame.checkAvail : Frame s s.checkAvail := by
  unfold BlockCache.checkAvail
  split
  · exact Frame.of_same rfl rfl fun _ _ => id
  · exact .refl s

theorem Frame.addBlocksInCache {n : Int} : Frame s (s.addBlocksInCache f n) := Frame.setFile ⟨rfl, rfl, rfl, rfl, id, rfl, rfl⟩

theorem Frame.startFileSync : Frame s (s.startFileSync f) := Frame.setFile ⟨rfl, rfl, rfl, rfl, id, rfl, rfl⟩

theorem Frame.deleteBlock : Frame s (s.deleteBlock b) := by
  unfold BlockCache.deleteBlock
  dsimp only
  split
  · exact Frame.of_same rfl rfl fun _ _ => id
  · exact Frame.hashDelete.trans Frame.addBlocksInCache

/-- A block that is neither dirty nor being written is put to another use. -/
theorem BlockFrame.reuse (hx : x.dirtyOrWritten = false) (hy : y.dirtyOrWritten = false) : BlockFrame hash x y := by
  unfold FscacheBlock.dirtyOrWritten at hy
  rw [Bool.or_eq_false_iff] at hy
  have hx' := hx
  unfold FscacheBlock.dirtyOrWritten at hx'
  rw [Bool.or_eq_false_iff] at hx'
  refine ⟨hy.1.trans hx'.1.symm, hy.2.trans hx'.2.symm, fun h => ?_, fun h => ?_⟩
  · rw [hx] at h
    cases h
  · rw [hx] at h
    cases h

/-! ### Allocation -/

theorem Frame.scanLru (l : List Nat) (s : BlockCache) : Frame s (BlockCache.scanLru l s).1 ∧
    ∀ b, (BlockCache.scanLru l s).2 = some b → ((BlockCache.scanLru l s).1.blocks b).dirtyOrWritten = false := by
  induction l generalizing s with
  | nil => exact ⟨.refl s, fun _ hb => nomatch hb⟩
  | cons a rest ih =>
    unfold BlockCache.scanLru
    dsimp only
    split
    next => exact ih s
    next =>
      split
      next =>
        have hmark : Frame s (s.setFlags a { (s.blocks a).flags with moveToFront := true }) :=
          Frame.setBlock ⟨rfl, rfl, fun _ => rfl, fun _ => .inl⟩
        have hnext : Frame s (if ((s.setFlags a { (s.blocks a).flags with moveToFront := true }).files
            (s.blocks a).cacheInfo).flags.beingWritten then s.setFlags a { (s.blocks a).flags with moveToFront := true }
          else (s.setFlags a { (s.blocks a).flags with moveToFront := true }).startFileSync (s.blocks a).cacheInfo) := by
          split
          · exact hmark
          · exact hmark.trans Frame.startFileSync
        obtain ⟨hframe, hclean⟩ := ih _
        exact ⟨hnext.trans hframe, hclean⟩
      next hclean =>
        split
        next => exact ih s
        next =>
          have hrem : Frame s (s.remove a) := Frame.of_same rfl rfl fun _ _ => id
          refine ⟨hrem.trans Frame.deleteBlock, fun b hb => ?_⟩
          cases hb
          have hframe : Frame s ((s.remove a).deleteBlock a) := hrem.trans Frame.deleteBlock
          exact (hframe.block a).dirtyOrWritten.trans (Bool.eq_false_iff.2 hclean)

theorem Frame.fetchBlock : Frame s (s.fetchBlock cantBlock).1 ∧
    ∀ b, (s.fetchBlock cantBlock).2 = some b → ((s.fetchBlock cantBlock).1.blocks b).dirtyOrWritten = false := by
  unfold BlockCache.fetchBlock
  split
  · exact Frame.scanLru _ _
  · exact ⟨.refl s, fun _ hb => nomatch hb⟩

theorem Accounts.idle_clean (h : Accounts c none pending s held out)
    (hp : (s.view none b).place = .unmapped ∨ (s.view none b).place = .free) : (s.blocks b).dirtyOrWritten = false := by
  have hok := h.blocks b
  unfold BlockOk at hok
  unfold FscacheBlock.dirtyOrWritten
  rw [Bool.or_eq_false_iff]
  obtain hp | hp := hp
  · rw [hp] at hok
    exact hok.2.2.2
  · rw [hp] at hok
    exact hok.2.2.2

theorem Accounts.unmapped_page (h : Accounts c none pending s held out) (hb : b ∈ s.use .unmapped) :
    (s.blocks b).dirtyOrWritten = false ∧ (c.pageIs8K = true → (s.blocks (otherBlock b)).dirtyOrWritten = false) := by
  obtain ⟨hlt, hp⟩ := h.listed.unmapped hb
  exact ⟨h.idle_clean (.inl hp), fun h8 => h.idle_clean (.inl ((h.listed.pages h8 b hlt).1 hp))⟩

/-- A block that is neither dirty nor being written is put on a free list. -/
theorem Frame.setFree (h : Frame s t) (hb : (s.blocks b).dirtyOrWritten = false) : Frame s (t.setFlags b { free := true }) :=
  h.trans (Frame.setBlock (BlockFrame.reuse ((h.block b).dirtyOrWritten.trans hb) rfl))

theorem Frame.relist (h : Frame s t) (hf : u.files = t.files) (hb : u.blocks = t.blocks) (hh : u.hash = t.hash) : Frame s u :=
  h.trans (Frame.of_same hf hb fun _ _ hk => hh ▸ hk)

theorem Accounts.createBlock_frame {retBlock mapped : Bool} (h : Accounts c none pending s held out)
    (ht : s.createBlock c retBlock mapped = some (t, b)) : Frame s t ∧ (t.blocks b).dirtyOrWritten = false := by
  have hboth : Frame s t ∧ (s.blocks b).dirtyOrWritten = false := by
    unfold BlockCache.createBlock at ht
    split at ht
    next => cases ht
    next a rest huse =>
      obtain ⟨hself, hother⟩ := h.unmapped_page (huse ▸ List.mem_cons_self)
      split at ht
      next =>
        dsimp only at ht
        have hcount : Frame s ((s.addAvail c.blocksPerPage).addCache c.blocksPerPage) := (Frame.refl s).relist rfl rfl rfl
        have hfirst : Frame s (if retBlock then ((s.addAvail c.blocksPerPage).addCache c.blocksPerPage).remove a
            else ((((s.addAvail c.blocksPerPage).addCache c.blocksPerPage).addFree 1).setFlags a { free := true }).moveRear .totFree a) := by
          split
          · exact hcount.relist rfl rfl rfl
          · have hadd : Frame s (((s.addAvail c.blocksPerPage).addCache c.blocksPerPage).addFree 1) := hcount.relist rfl rfl rfl
            exact (hadd.setFree hself).relist rfl rfl rfl
        split at ht
        next h8 =>
          cases ht
          exact ⟨(hfirst.setFree (hother h8)).relist rfl rfl rfl, hself⟩
        next =>
          cases ht
          exact ⟨hfirst, hself⟩
      next => cases ht
  exact ⟨hboth.1, (hboth.1.block b).dirtyOrWritten.trans hboth.2⟩

theorem Accounts.takeFree_frame (h : Accounts c none pending s held out) (ht : s.takeFree c cantBlock = some (t, b)) :
    Frame s t ∧ (t.blocks b).dirtyOrWritten = false := by
  have hboth : Frame s t ∧ (s.blocks b).dirtyOrWritten = false := by
    unfold BlockCache.takeFree at ht
    split at ht
    next =>
      split at ht
      next a rest huse =>
        cases ht
        have hfree := (h.mem_use b).2.1.1 (.inr (huse ▸ List.mem_cons_self))
        exact ⟨(Frame.refl s).relist rfl rfl rfl, h.idle_clean (.inr hfree)⟩
      next a rest huse =>
        cases ht
        have hfree := (h.mem_use b).2.1.1 (.inl (huse ▸ List.mem_cons_self))
        refine ⟨?_, h.idle_clean (.inr hfree)⟩
        split
        · exact (Frame.refl s).relist rfl rfl rfl
        · exact (Frame.refl s).relist rfl rfl rfl
      next => cases ht
    next => cases ht
  exact ⟨hboth.1, (hboth.1.block b).dirtyOrWritten.trans hboth.2⟩

/-- A block neither dirty nor being written is found, or none, and nothing else is disturbed. -/
def Found (s : BlockCache) (r : BlockCache × Option Nat) : Prop :=
  Frame s r.1 ∧ ∀ b, r.2 = some b → (r.1.blocks b).dirtyOrWritten = false

theorem Accounts.getBlock_frame {vm : VmAnswer} (h : Accounts c none pending s held out) :
    Found s (s.getBlock c cantBlock vm) := by
  unfold BlockCache.getBlock
  cases hc : s.createBlock c true vm.mapped with
  | some r =>
    obtain ⟨hframe, hclean⟩ := h.createBlock_frame hc
    exact ⟨hframe, fun a ha => Option.some.inj ha ▸ hclean⟩
  | none => exact Frame.fetchBlock

theorem Accounts.allocateBlock_frame {vm : VmAnswer} (h : Accounts c none pending s held out) :
    Found s (s.allocateBlock c cantBlock vm) := by
  unfold BlockCache.allocateBlock
  cases hfree : s.takeFree c cantBlock with
  | some r =>
    obtain ⟨hframe, hclean⟩ := h.takeFree_frame hfree
    exact ⟨hframe, fun a ha => Option.some.inj ha ▸ hclean⟩
  | none =>
    dsimp only
    split
    · have hfetch := @Frame.fetchBlock s cantBlock
      obtain ⟨t, -, ht, heq, -⟩ | ⟨t, b, -, -, heq, -⟩ := @Accounts.fetchBlock _ _ _ _ _ cantBlock h
      · rw [heq] at hfetch ⊢
        dsimp only
        split
        · obtain ⟨hframe, hclean⟩ := @Accounts.getBlock_frame c t pending held out cantBlock vm ht
          exact ⟨hfetch.1.trans hframe, hclean⟩
        · exact hfetch
      · rw [heq] at hfetch ⊢
        exact hfetch
    · split
      · exact h.getBlock_frame
      · exact Frame.fetchBlock

/-! ### Blocks that are used -/

theorem Frame.referenceBlock {flags : FetchFlags} : Frame s (s.referenceBlock flags b) := by
  have hset : ∀ refCount io, Frame s (s.setBlock b { s.blocks b with
      refCount := refCount, flags := { (s.blocks b).flags with ioInProgress := io } }) :=
    fun _ _ => Frame.setBlock ⟨rfl, rfl, fun _ => rfl, fun _ => .inl⟩
  unfold BlockCache.referenceBlock
  dsimp only
  split
  · refine Frame.trans ?_ Frame.checkAvail
    exact (hset _ _).relist rfl rfl rfl
  · exact hset _ _

theorem Frame.ioDone : Frame s (s.ioDone b) := Frame.setBlock ⟨rfl, rfl, fun _ => rfl, fun _ => .inl⟩

theorem Frame.setSize {diskBlock blockSize : Int} : Frame s (s.setSize b diskBlock blockSize) := by
  unfold BlockCache.setSize
  dsimp only
  split
  · exact Frame.setBlock ⟨rfl, rfl, fun _ => rfl, fun _ => .inl⟩
  · split
    · exact Frame.setBlock ⟨rfl, rfl, fun _ => rfl, fun _ => .inl⟩
    · exact .refl s

theorem Frame.dereference : Frame s (s.dereference b) := by
  have hset : Frame s (s.setBlock b { s.blocks b with refCount := (s.blocks b).refCount - 1 }) :=
    Frame.setBlock ⟨rfl, rfl, fun _ => rfl, fun _ => .inl⟩
  unfold BlockCache.dereference
  dsimp only
  split
  · exact hset.relist rfl rfl rfl
  · exact hset

variable {now time : Int} {flags : WriteBackFlags} {fsyncFile : Bool} {lastBlock : Int}

theorem Frame.placeUnlocked {unneeded : Bool} : Frame s (s.placeUnlocked b unneeded now) := by
  have hset : ∀ m w time, Frame s (s.setBlock b { s.blocks b with
      flags := { (s.blocks b).flags with cleanerWaiting := w, moveToFront := m }, timeReferenced := time }) :=
    fun _ _ _ => Frame.setBlock ⟨rfl, rfl, fun _ => rfl, fun _ => .inl⟩
  unfold BlockCache.placeUnlocked
  dsimp only
  split
  · split
    · exact hset _ _ _
    · exact (hset _ _ _).relist rfl rfl rfl
  · exact (hset _ _ _).relist rfl rfl rfl

/-- What becomes of the files and the other blocks where one is modified -/
structure Dirtied (s t : BlockCache) (b : Nat) : Prop where
  file : ∀ f, (t.files f).flags.closeInProgress = (s.files f).flags.closeInProgress ∧
    (t.files f).flags.beingWritten = (s.files f).flags.beingWritten ∧ (t.files f).flags.descDirty = (s.files f).flags.descDirty ∧
    (t.files f).flags.gone = (s.files f).flags.gone ∧
    ((s.files f).flags.onDirtyList = true → (t.files f).flags.onDirtyList = true) ∧
    (s.files f).numDirtyBlocks ≤ (t.files f).numDirtyBlocks
  listed : ∀ f, (t.files f).numDirtyBlocks = (s.files f).numDirtyBlocks ∨
    (t.files f).flags.onDirtyList = true ∨ (t.files f).flags.beingWritten = true
  block : ∀ a, a ≠ b → BlockFrame t.hash (s.blocks a) (t.blocks a)
  self : (t.blocks b).flags.dirty = true ∧ (t.blocks b).flags.beingWritten = (s.blocks b).flags.beingWritten ∧
    (t.blocks b).key = (s.blocks b).key ∧
    ((t.blocks b).flags.deleted = true → (s.blocks b).flags.deleted = true ∨ ∀ a, t.hash (t.blocks b).key ≠ some (some a))
  hash : ∀ key a, t.hash key = some (some a) → s.hash key = some (some a)

/-- A block that is in use stays what it is. -/
def SameBlock (x y : FscacheBlock) : Prop :=
  y.key = x.key ∧ y.flags.deleted = x.flags.deleted ∧ y.flags.dirty = x.flags.dirty ∧ y.flags.beingWritten = x.flags.beingWritten

theorem Dirtied.after (h : Frame s u) (hb : SameBlock (s.blocks b) (u.blocks b)) (h' : Dirtied u t b) : Dirtied s t b := by
  refine ⟨fun f => ?_, fun f => ?_, fun a ha => (h.block a).trans (h'.block a ha) h'.hash, ?_, fun key a hk => h.hash key a (h'.hash key a hk)⟩
  · obtain ⟨h₁, h₂, h₃, h₄, h₅, h₆⟩ := h'.file f
    have hf := h.file f
    exact ⟨h₁.trans hf.closeInProgress, h₂.trans hf.beingWritten, h₃.trans hf.descDirty, h₄.trans hf.gone, fun hon => h₅ (hf.onDirtyList hon),
      hf.numDirtyBlocks ▸ h₆⟩
  · rw [← (h.file f).numDirtyBlocks]
    exact h'.listed f
  · obtain ⟨hd, hw, hk, hdel⟩ := h'.self
    exact ⟨hd, hw.trans hb.2.2.2, hk.trans hb.1, fun hx => (hdel hx).imp_left fun hu => hb.2.1 ▸ hu⟩

/-- What is done after that is no more than what is done otherwise. -/
theorem Dirtied.before (h : Dirtied s u b) (h' : Frame u t) : Dirtied s t b := by
  obtain ⟨hd, hw, hk, hdel⟩ := h.self
  have hub : (u.blocks b).dirtyOrWritten = true := by
    unfold FscacheBlock.dirtyOrWritten
    rw [hd]
    rfl
  have hb := h'.block b
  refine ⟨fun f => ?_, fun f => ?_, fun a ha => (h.block a ha).trans (h'.block a) h'.hash, ⟨hb.dirty.trans hd, hb.beingWritten.trans hw,
    (hb.key hub).trans hk, fun hx => ?_⟩, fun key a hk => h.hash key a (h'.hash key a hk)⟩
  · obtain ⟨h₁, h₂, h₃, h₄, h₅, h₆⟩ := h.file f
    have hf := h'.file f
    exact ⟨hf.closeInProgress.trans h₁, hf.beingWritten.trans h₂, hf.descDirty.trans h₃, hf.gone.trans h₄, fun hon => hf.onDirtyList (h₅ hon),
      hf.numDirtyBlocks ▸ h₆⟩
  · rw [(h'.file f).numDirtyBlocks, (h'.file f).beingWritten]
    exact (h.listed f).imp_right fun hon => hon.imp_left (h'.file f).onDirtyList
  · obtain hu | hnone := hb.deleted hub hx
    · refine (hdel hu).imp_right fun hnone a ha => hnone a ?_
      rw [hb.key hub] at ha
      exact h'.hash _ a ha
    · exact .inr hnone

theorem Frame.putFileOnDirtyList : Frame s (s.putFileOnDirtyList f time) := by
  unfold BlockCache.putFileOnDirtyList
  dsimp only
  split
  · exact .refl s
  · exact Frame.setFile ⟨rfl, rfl, rfl, rfl, fun _ => rfl, rfl, rfl⟩

theorem putFileOnDirtyList_listed : ((s.putFileOnDirtyList f time).files f).flags.onDirtyList = true ∨
    ((s.putFileOnDirtyList f time).files f).flags.beingWritten = true := by
  unfold BlockCache.putFileOnDirtyList
  dsimp only
  split
  next h =>
    rw [Bool.or_eq_true] at h
    exact h
  next =>
    left
    show (update s.files f _ f).flags.onDirtyList = true
    rw [update_self]

theorem Dirtied.mark (hw : ∀ r, r = { s.blocks b with flags := { (s.blocks b).flags with dirty := true }, timeDirtied := time } →
    t = if (s.blocks b).flags.beingWritten then s.setBlock b r
      else ((s.setBlock b r).addDirtyBlocks (s.blocks b).cacheInfo 1).putBlockOnDirtyList b false) : Dirtied s t b := by
  obtain ⟨r, hr⟩ : ∃ r : FscacheBlock,
    r = { s.blocks b with flags := { (s.blocks b).flags with dirty := true }, timeDirtied := time } := ⟨_, rfl⟩
  have ht := hw r hr
  split at ht
  next =>
    subst ht
    refine ⟨fun f => ⟨rfl, rfl, rfl, rfl, id, Int.le_refl _⟩, fun f => .inl rfl, fun a ha => ?_, ?_, fun _ _ => id⟩
    · show BlockFrame _ (s.blocks a) (update s.blocks b r a)
      rw [update_of_ne ha]
      exact .refl _ _
    · show (update s.blocks b r b).flags.dirty = true ∧ (update s.blocks b r b).flags.beingWritten = _ ∧
        (update s.blocks b r b).key = _ ∧ ((update s.blocks b r b).flags.deleted = true → _)
      rw [update_self, hr]
      exact ⟨rfl, rfl, rfl, .inl⟩
  next =>
    obtain ⟨v, hv⟩ : ∃ v, v = (s.setBlock b r).addDirtyBlocks (s.blocks b).cacheInfo 1 := ⟨_, rfl⟩
    rw [← hv] at ht
    have hself : v.blocks b = r := by
      rw [hv]
      exact update_self _ _ _
    have hinfo : (v.blocks b).cacheInfo = (s.blocks b).cacheInfo := by
      rw [hself, hr]
    obtain ⟨u, time', heq, ⟨files, hu⟩, hufiles⟩ := @putBlockOnDirtyList_eq v b _ false hinfo
    have hframe : Frame u t := by
      rw [ht, heq]
      exact Frame.putFileOnDirtyList
    -- putting the file on a list touches no block
    have hblocks : t.blocks = update s.blocks b r := by
      obtain ⟨files', hrest⟩ := @rest_putFileOnDirtyList u (s.blocks b).cacheInfo time'
      rw [ht, heq, hrest, hu]
      rw [hself]
      have hdirty : ({ r with flags := { r.flags with dirty := true } } : FscacheBlock) = r := by
        rw [hr]
      rw [hdirty, hv]
      exact Function.update_idem _ _ _
    have hhash : t.hash = s.hash := by
      obtain ⟨files', hrest⟩ := @rest_putFileOnDirtyList u (s.blocks b).cacheInfo time'
      rw [ht, heq, hrest, hu, hv]
      rfl
    have hfile : ∀ g, (u.files g).flags = (s.files g).flags ∧
        (u.files g).numDirtyBlocks = (s.files g).numDirtyBlocks + if (s.blocks b).cacheInfo = g then 1 else 0 := by
      intro g
      have hcount := @files_addDirtyBlocks (s.setBlock b r) (s.blocks b).cacheInfo 1 g
      rw [hufiles]
      by_cases hg : g = (s.blocks b).cacheInfo
      · subst hg
        rw [update_self]
        rw [hv]
        refine ⟨?_, hcount.2.2⟩
        show (update s.files _ _ _).flags = _
        rw [update_self]
        rfl
      · rw [update_of_ne hg, hv]
        refine ⟨?_, hcount.2.2⟩
        show (update s.files _ _ g).flags = _
        rw [update_of_ne hg]
    refine ⟨fun g => ?_, fun g => ?_, fun a ha => ?_, ?_, fun key a hk => hhash ▸ hk⟩
    · have hf := hframe.file g
      obtain ⟨hflags, hnum⟩ := hfile g
      rw [hf.closeInProgress, hf.beingWritten, hf.descDirty, hf.gone, hf.numDirtyBlocks, hflags, hnum]
      refine ⟨rfl, rfl, rfl, rfl, fun hon => hf.onDirtyList (hflags ▸ hon), ?_⟩
      split <;> omega
    · by_cases hg : (s.blocks b).cacheInfo = g
      · right
        rw [ht, heq, ← hg]
        exact putFileOnDirtyList_listed
      · left
        rw [(hframe.file g).numDirtyBlocks, (hfile g).2, if_neg hg, Int.add_zero]
    · rw [hblocks, update_of_ne ha]
      exact .refl _ _
    · rw [hblocks, update_self, hr]
      exact ⟨rfl, rfl, rfl, .inl⟩

theorem dirtied_markDirty {beingCleaned : Bool} (s : BlockCache) : Dirtied s (s.markDirty b time beingCleaned) b := by
  have hset : ∀ u : BlockCache, Frame s u → SameBlock (s.blocks b) (u.blocks b) → Dirtied s (if (u.blocks b).flags.dirty then u
      else if (u.blocks b).flags.beingWritten then
        u.setBlock b { u.blocks b with flags := { (u.blocks b).flags with dirty := true }, timeDirtied := time }
      else ((u.setBlock b { u.blocks b with flags := { (u.blocks b).flags with dirty := true }, timeDirtied := time }).addDirtyBlocks
        (u.blocks b).cacheInfo 1).putBlockOnDirtyList b false) b := by
    intro u hframe hsame
    refine Dirtied.after hframe hsame ?_
    split
    next hd =>
      exact ⟨fun f => ⟨rfl, rfl, rfl, rfl, id, Int.le_refl _⟩, fun f => .inl rfl, fun a _ => .refl _ _, ⟨hd, rfl, rfl, .inl⟩, fun _ _ => id⟩
    next => exact Dirtied.mark fun r hr => by rw [hr]
  cases beingCleaned with
  | false => exact hset s (.refl s) ⟨rfl, rfl, rfl, rfl⟩
  | true =>
    have hfile : Frame s (s.setFileFlags (s.blocks b).cacheInfo { (s.files (s.blocks b).cacheInfo).flags with beingCleaned := true }) :=
      Frame.setFile ⟨rfl, rfl, rfl, rfl, id, rfl, rfl⟩
    obtain ⟨x, hx⟩ : ∃ x : FscacheBlock, x = { s.blocks b with flags := { (s.blocks b).flags with beingCleaned := true } } := ⟨_, rfl⟩
    obtain ⟨u, hu⟩ : ∃ u, u = (s.setFileFlags (s.blocks b).cacheInfo
      { (s.files (s.blocks b).cacheInfo).flags with beingCleaned := true }).setBlock b x := ⟨_, rfl⟩
    have hself : u.blocks b = x := by
      rw [hu]
      exact update_self _ _ _
    have hsame : SameBlock (s.blocks b) (u.blocks b) := by
      rw [hself, hx]
      exact ⟨rfl, rfl, rfl, rfl⟩
    have hframe : Frame s u := by
      rw [hu]
      refine hfile.trans (Frame.setBlock ?_)
      rw [hx]
      exact ⟨rfl, rfl, fun _ => rfl, fun _ => .inl⟩
    have hdone := hset u hframe hsame
    have hinfo : (u.blocks b).cacheInfo = (s.blocks b).cacheInfo := congrArg Prod.fst hsame.1
    rw [hinfo] at hdone
    rw [hu, hx] at hdone
    exact hdone

theorem unlockBlock_eq {timeDirtied diskBlock blockSize now : Int} {flags : UnlockFlags} (hfree : (s.blocks b).flags.free = false)
    (hdel : flags.delete = false) : ∃ u, Frame s u ∧ SameBlock (s.blocks b) (u.blocks b) ∧
      Frame (if timeDirtied ≠ 0 then u.markDirty b timeDirtied flags.beingCleaned else u)
        (s.unlockBlock c b timeDirtied diskBlock blockSize flags now).1 := by
  obtain ⟨u, hu⟩ : ∃ u, u = if flags.clearReadAhead then (s.ioDone b).setFlags b { ((s.ioDone b).blocks b).flags with readAhead := false }
    else s.ioDone b := ⟨_, rfl⟩
  have hdone : ((s.ioDone b).blocks b) = { s.blocks b with flags := { (s.blocks b).flags with ioInProgress := false } } :=
    update_self _ _ _
  refine ⟨u, ?_, ?_, ?_⟩
  · rw [hu]
    split
    · exact Frame.ioDone.trans (Frame.setBlock ⟨rfl, rfl, fun _ => rfl, fun _ => .inl⟩)
    · exact Frame.ioDone
  · rw [hu]
    split
    · have hself : ∀ fl, ((s.ioDone b).setFlags b fl).blocks b = { (s.ioDone b).blocks b with flags := fl } :=
        fun fl => update_self _ _ _
      rw [hself, hdone]
      exact ⟨rfl, rfl, rfl, rfl⟩
    · rw [hdone]
      exact ⟨rfl, rfl, rfl, rfl⟩
  · have hgive : ∀ v : BlockCache, Frame v (if (((v.setSize b diskBlock blockSize).dereference b).blocks b).refCount = 0 then
        ((v.setSize b diskBlock blockSize).dereference b).placeUnlocked b flags.unneeded now
        else (v.setSize b diskBlock blockSize).dereference b) := by
      intro v
      have hgiven : Frame v ((v.setSize b diskBlock blockSize).dereference b) := Frame.setSize.trans Frame.dereference
      split
      · exact hgiven.trans Frame.placeUnlocked
      · exact hgiven
    have hnot : ¬ (s.blocks b).flags.free = true := by rw [hfree]; decide
    have hkeep : ¬ flags.delete = true := by rw [hdel]; decide
    unfold BlockCache.unlockBlock
    rw [if_neg hnot]
    rw [if_neg hkeep, ← hu]
    exact hgive _

/-- What `Fscache_UnlockBlock` does, where it does not delete the block -/
theorem unlockBlock_frame {timeDirtied diskBlock blockSize now : Int} {flags : UnlockFlags} (hfree : (s.blocks b).flags.free = false)
    (hdel : flags.delete = false) :
    (timeDirtied = 0 ∧ Frame s (s.unlockBlock c b timeDirtied diskBlock blockSize flags now).1) ∨
      (timeDirtied ≠ 0 ∧ Dirtied s (s.unlockBlock c b timeDirtied diskBlock blockSize flags now).1 b) := by
  obtain ⟨u, hframe, hsame, hlast⟩ := @unlockBlock_eq c s b timeDirtied diskBlock blockSize now flags hfree hdel
  by_cases htime : timeDirtied = 0
  · rw [if_neg (not_not.2 htime)] at hlast
    exact .inl ⟨htime, hframe.trans hlast⟩
  · rw [if_pos htime] at hlast
    exact .inr ⟨htime, ((dirtied_markDirty u).before hlast).after hframe hsame⟩

/-! ### Fscache_FetchBlock and Fscache_FileWriteBack -/

/-- A block is found, or a clean one entered under the key, and nothing else is disturbed. -/
theorem Accounts.fetchLoop_frame {flags : FetchFlags} {vms : List VmAnswer} {e : CacheEnd} {n : Int}
    (h : Accounts c none pending s held out) (hs : BlockCache.fetchLoop c f n flags now vms s = some (t, e)) :
    Frame s t ∨ ∃ u b, Frame s u ∧ e = .returns (some b) ∧ (u.blocks b).dirtyOrWritten = false ∧ t = u.enterBlock c f n flags now b := by
  induction vms generalizing s pending with
  | nil => cases hs
  | cons vm vms ih =>
    obtain ⟨r, hr⟩ : ∃ r, r = s.hashFind (f, n) := ⟨_, rfl⟩
    have hfind : Frame s r := hr ▸ Frame.hashFind
    obtain ⟨pending', hacc⟩ : ∃ pending', Accounts c none pending' r held out := by
      rw [hr]
      unfold BlockCache.hashFind
      split
      next => exact ⟨pending, h⟩
      next hnone => exact ⟨_, h.calm, h.listed, h.blocks, h.hashed.look hnone, h.dirty, h.counted⟩
    unfold BlockCache.fetchLoop at hs
    rw [← hr] at hs
    split at hs
    next b hb =>
      split at hs
      next =>
        cases hs
        exact .inl (Frame.of_same rfl rfl fun _ _ => id)
      next =>
        split at hs
        next =>
          cases hs
          exact .inl (.refl _)
        next =>
          cases hs
          exact .inl Frame.referenceBlock
    next =>
      have hfound := @Accounts.allocateBlock_frame c r pending' held out flags.cantBlock vm hacc
      have hkeep := @Accounts.allocateBlock c r pending' held out flags.cantBlock vm hacc
      cases hall : r.allocateBlock c flags.cantBlock vm with
      | mk u o =>
        rw [hall] at hs hfound hkeep
        cases o with
        | some b =>
          cases hs
          exact .inr ⟨u, b, hfind.trans hfound.1, rfl, hfound.2 b rfl, rfl⟩
        | none =>
          dsimp only at hs
          split at hs
          next =>
            cases hs
            exact .inl (hfind.trans hfound.1)
          next =>
            split at hs
            next =>
              obtain ⟨v, -, hv, heq, -⟩ | ⟨v, b, heq, -⟩ := hkeep
              · cases heq
                obtain hframe | ⟨w, b, hframe, hrest⟩ := ih hv hs
                · exact .inl ((hfind.trans hfound.1).trans hframe)
                · exact .inr ⟨w, b, (hfind.trans hfound.1).trans hframe, hrest⟩
              · cases heq
            next =>
              cases hs
              exact .inl (hfind.trans hfound.1)

theorem Frame.putOnFreeList (h : Frame s t) (hb : (s.blocks b).dirtyOrWritten = false) : Frame s (t.putOnFreeList c b) := by
  have hfree : Frame s ((t.setFlags b { free := true }).addFree 1) := (h.setFree hb).relist rfl rfl rfl
  unfold BlockCache.putOnFreeList
  dsimp only
  split
  · split
    · exact hfree.relist rfl rfl rfl
    · exact hfree.relist rfl rfl rfl
  · exact hfree.relist rfl rfl rfl

theorem Accounts.releaseBlock_frame (h : Accounts c none pending s held out) (hkey : s.hash (f, i) = some (some b)) :
    Frame s (s.releaseBlock c f i b) := by
  obtain ⟨-, hf, hi, -⟩ := h.found hkey
  unfold BlockCache.releaseBlock
  dsimp only
  split
  next =>
    split
    next => exact .refl s
    next =>
      refine ⟨fun _ => .refl _, fun a => ?_, fun key a hk => ?_⟩
      · show BlockFrame (update s.hash (f, i) none) (s.blocks a) (update s.blocks b _ a)
        by_cases ha : a = b
        · subst ha
          rw [update_self]
          refine ⟨rfl, rfl, fun _ => rfl, fun _ _ => .inr fun d hd => ?_⟩
          have hself : ({ s.blocks a with flags := { (s.blocks a).flags with deleted := true } } : FscacheBlock).key = (f, i) := by
            unfold FscacheBlock.key
            rw [hf, hi]
          rw [hself, update_self] at hd
          cases hd
        · rw [update_of_ne ha]
          exact .refl _ _
      · exact Frame.hashDelete.hash key a hk
  next hclean =>
    have hdel : Frame s (((s.addBlocksInCache f (-1)).hashDelete (f, i)).remove b) :=
      (Frame.addBlocksInCache.trans Frame.hashDelete).relist rfl rfl rfl
    exact hdel.putOnFreeList (Bool.eq_false_iff.2 hclean)

theorem Accounts.writeBackLoop_frame (n : Nat) (h : Accounts c none pending s held out) :
    Frame s (s.writeBackLoop c f flags n i fsyncFile).1 := by
  induction n generalizing s i fsyncFile with
  | zero => exact .refl s
  | succ n ih =>
    unfold BlockCache.writeBackLoop
    cases hkey : s.hash (f, i) with
    | none => exact ih h
    | some o =>
      cases o with
      | none => exact Frame.of_same rfl rfl fun _ _ => id
      | some b =>
        dsimp only
        rw [if_neg (not_not.2 (h.found hkey).2.2.2)]
        split
        next =>
          split
          · exact .refl s
          · exact ih h
        next hz =>
          cases flags.invalidate with
          | false => exact ih h
          | true => exact (h.releaseBlock_frame hkey).trans (ih (h.releaseBlock hkey hz))

theorem Accounts.writeBackFrom_frame (h : Accounts c none pending s held out) :
    Frame s (s.writeBackFrom c f i lastBlock flags fsyncFile).1 := by
  have hl := @Accounts.writeBackLoop_frame c s pending held out f i flags fsyncFile (lastBlock - i + 1).toNat h
  unfold BlockCache.writeBackFrom
  cases hloop : s.writeBackLoop c f flags (lastBlock - i + 1).toNat i fsyncFile with
  | mk t r =>
    obtain ⟨o, fsyncFile'⟩ := r
    rw [hloop] at hl
    cases o with
    | none =>
      dsimp only
      split
      · exact hl.trans Frame.startFileSync
      · exact hl
    | some i => exact hl

theorem Accounts.fileWriteBack_frame (h : Accounts c none pending s held out) :
    Frame s (s.fileWriteBack c f i lastBlock flags).1 := by
  have hclear : Accounts c none pending (s.setFileFlags f (s.files f).flags.clearErrors) held out := h.setFile_same rfl rfl rfl
  have hframe : Frame s (s.setFileFlags f (s.files f).flags.clearErrors) := Frame.setFile ⟨rfl, rfl, rfl, rfl, id, rfl, rfl⟩
  unfold BlockCache.fileWriteBack
  dsimp only
  split
  · split
    · exact hframe.trans Frame.startFileSync
    · exact hframe
  · exact hframe.trans hclear.writeBackFrom_frame

/-! ### The block cleaner -/

theorem Frame.scanDirty {blockMatch : Nat → Bool} (l : List Nat) (s : BlockCache) : Frame s (s.scanDirty c f blockMatch l).1 := by
  induction l generalizing s with
  | nil => exact .refl s
  | cons a rest ih =>
    unfold BlockCache.scanDirty
    dsimp only
    split
    next => exact Frame.of_same rfl rfl fun _ _ => id
    next =>
      split
      next =>
        have hmark : Frame s (s.setFlags a { (s.blocks a).flags with cleanerWaiting := true }) :=
          Frame.setBlock ⟨rfl, rfl, fun _ => rfl, fun _ => .inl⟩
        exact hmark.trans (ih _)
      next =>
        split
        next => exact .refl s
        next => exact ih s

/-- What is done to one block, that is with the block cleaner, and to its file `f` -/
structure Cleaned (s t : BlockCache) (f b : Nat) : Prop where
  file : ∀ g, (t.files g).flags.closeInProgress = (s.files g).flags.closeInProgress ∧
    (t.files g).flags.beingWritten = (s.files g).flags.beingWritten ∧ (t.files g).flags.descDirty = (s.files g).flags.descDirty ∧
    (t.files g).flags.gone = (s.files g).flags.gone ∧ ((s.files g).flags.onDirtyList = true → (t.files g).flags.onDirtyList = true)
  other : ∀ g, g ≠ f → (t.files g).numDirtyBlocks = (s.files g).numDirtyBlocks
  block : ∀ a, a ≠ b → t.blocks a = s.blocks a
  key : (t.blocks b).key = (s.blocks b).key
  hash : t.hash = s.hash

theorem Cleaned.refl (s : BlockCache) (f b : Nat) : Cleaned s s f b :=
  ⟨fun _ => ⟨rfl, rfl, rfl, rfl, id⟩, fun _ _ => rfl, fun _ _ => rfl, rfl, rfl⟩

section
variable (h : Cleaned s t f b)
include h

theorem Cleaned.trans (h' : Cleaned t u f b) : Cleaned s u f b := by
  refine ⟨fun g => ?_, fun g hg => (h'.other g hg).trans (h.other g hg), fun a ha => (h'.block a ha).trans (h.block a ha),
    h'.key.trans h.key, h'.hash.trans h.hash⟩
  obtain ⟨h₁, h₂, h₃, h₄, h₅⟩ := h.file g
  obtain ⟨k₁, k₂, k₃, k₄, k₅⟩ := h'.file g
  exact ⟨k₁.trans h₁, k₂.trans h₂, k₃.trans h₃, k₄.trans h₄, fun hon => k₅ (h₅ hon)⟩

theorem Cleaned.relist (hf : u.files = t.files) (hb : u.blocks = t.blocks) (hh : u.hash = t.hash) :
    Cleaned s u f b := by
  refine h.trans ⟨fun g => ?_, fun g _ => by rw [hf], fun a _ => by rw [hb], by rw [hb], hh⟩
  rw [hf]
  exact ⟨rfl, rfl, rfl, rfl, id⟩

theorem Cleaned.setBlock (hk : block.key = (s.blocks b).key) : Cleaned s (t.setBlock b block) f b := by
  refine ⟨h.file, h.other, fun a ha => ?_, ?_, h.hash⟩
  · exact (update_of_ne ha _ _).trans (h.block a ha)
  · show (update t.blocks b block b).key = _
    rw [update_self]
    exact hk

theorem Cleaned.setFile {info : FileInfo}
    (hf : info.flags.closeInProgress = (t.files f).flags.closeInProgress ∧ info.flags.beingWritten = (t.files f).flags.beingWritten ∧
      info.flags.descDirty = (t.files f).flags.descDirty ∧ info.flags.gone = (t.files f).flags.gone ∧
      ((t.files f).flags.onDirtyList = true → info.flags.onDirtyList = true)) : Cleaned s (t.setFile f info) f b := by
  refine h.trans ⟨fun g => ?_, fun g hg => ?_, fun _ _ => rfl, rfl, rfl⟩
  · unfold BlockCache.setFile
    dsimp only
    by_cases hg : g = f
    · subst hg
      rw [update_self]
      exact hf
    · rw [update_of_ne hg]
      exact ⟨rfl, rfl, rfl, rfl, id⟩
  · show (update t.files f info g).numDirtyBlocks = _
    rw [update_of_ne hg]

theorem Cleaned.putFileOnDirtyList : Cleaned s (t.putFileOnDirtyList f time) f b := by
  unfold BlockCache.putFileOnDirtyList
  dsimp only
  split
  · exact h
  · exact h.setFile ⟨rfl, rfl, rfl, rfl, fun _ => rfl⟩

theorem Cleaned.putBlockOnDirtyList {onFront : Bool} (hinfo : (t.blocks b).cacheInfo = f) :
    Cleaned s (t.putBlockOnDirtyList b onFront) f b := by
  subst hinfo
  have hset : Cleaned s (t.setFlags b { (t.blocks b).flags with dirty := true }) (t.blocks b).cacheInfo b := h.setBlock h.key
  refine Cleaned.putFileOnDirtyList (hset.setFile ?_)
  exact ⟨rfl, rfl, rfl, rfl, id⟩

theorem Cleaned.putOnFreeList : Cleaned s (t.putOnFreeList c b) f b := by
  have hfree : Cleaned s ((t.setFlags b { free := true }).addFree 1) f b :=
    (h.setBlock (show FscacheBlock.key { t.blocks b with flags := { free := true } } = _ from h.key)).relist rfl rfl rfl
  unfold BlockCache.putOnFreeList
  dsimp only
  split
  · split
    · exact hfree.relist rfl rfl rfl
    · exact hfree.relist rfl rfl rfl
  · exact hfree.relist rfl rfl rfl

theorem Cleaned.writeFailed {status : WriteStatus} : Cleaned s (t.writeFailed f status now) f b := by
  refine h.setFile ?_
  cases status <;> exact ⟨rfl, rfl, rfl, rfl, id⟩

theorem Cleaned.blockCleaned : Cleaned s (t.blockCleaned c f b) f b := by
  obtain ⟨u, hu⟩ : ∃ u, u = if (t.blocks b).refCount = 0 then t.addAvail 1 else t := ⟨_, rfl⟩
  have hcount : Cleaned s u f b := by
    rw [hu]
    split
    · exact h.relist rfl rfl rfl
    · exact h
  unfold BlockCache.blockCleaned
  rw [← hu]
  refine Cleaned.setFile ?_ ⟨rfl, rfl, rfl, rfl, id⟩
  split
  · refine Cleaned.putOnFreeList (hcount.setFile ?_)
    exact ⟨rfl, rfl, rfl, rfl, id⟩
  · split
    · have hmoved : Cleaned s (u.moveFront .lru b) f b := hcount.relist rfl rfl rfl
      exact hmoved.setBlock hmoved.key
    · exact hcount

end

theorem cleaned_returnDirtyBlock {status : WriteStatus} (hinfo : (s.blocks b).cacheInfo = f) :
    Cleaned s (s.returnDirtyBlock c b status now) f b := by
  subst hinfo
  obtain ⟨x, hx⟩ : ∃ x : FscacheBlock, x = { s.blocks b with
    refCount := (s.blocks b).refCount - 1, flags := { (s.blocks b).flags with beingWritten := false } } := ⟨_, rfl⟩
  have hkey : x.key = (s.blocks b).key := by
    rw [hx]
    rfl
  have hfirst : Cleaned s (s.setBlock b x) (s.blocks b).cacheInfo b := (Cleaned.refl s _ b).setBlock hkey
  have hwritten : ∀ u : BlockCache, Cleaned s u (s.blocks b).cacheInfo b → Cleaned s
      (if ((u.setFileFlags (s.blocks b).cacheInfo { (u.files (s.blocks b).cacheInfo).flags with serverDown := false, noDiskSpace := false, genericError := false }).blocks b).flags.dirty
        then (u.setFileFlags (s.blocks b).cacheInfo { (u.files (s.blocks b).cacheInfo).flags with serverDown := false, noDiskSpace := false, genericError := false }).putBlockOnDirtyList b true
        else (u.setFileFlags (s.blocks b).cacheInfo { (u.files (s.blocks b).cacheInfo).flags with serverDown := false, noDiskSpace := false, genericError := false }).blockCleaned c (s.blocks b).cacheInfo b)
      (s.blocks b).cacheInfo b := by
    intro u hu
    have hflags : Cleaned s (u.setFileFlags (s.blocks b).cacheInfo { (u.files (s.blocks b).cacheInfo).flags with serverDown := false, noDiskSpace := false, genericError := false }) (s.blocks b).cacheInfo b :=
      hu.setFile ⟨rfl, rfl, rfl, rfl, id⟩
    split
    · exact hflags.putBlockOnDirtyList (congrArg Prod.fst hflags.key)
    · exact hflags.blockCleaned
  have hfail : ∀ (u : BlockCache) (st : WriteStatus), Cleaned s u (s.blocks b).cacheInfo b → Cleaned s ((u.writeFailed (s.blocks b).cacheInfo st now).putBlockOnDirtyList b true) (s.blocks b).cacheInfo b := by
    intro u st hu
    have hfailed : Cleaned s (u.writeFailed (s.blocks b).cacheInfo st now) (s.blocks b).cacheInfo b := hu.writeFailed
    exact hfailed.putBlockOnDirtyList (congrArg Prod.fst hfailed.key)
  unfold BlockCache.returnDirtyBlock
  dsimp only
  rw [← hx]
  cases status with
  | success => exact hwritten _ hfirst
  | interrupted => exact hwritten _ (hfirst.setBlock hfirst.key)
  | deviceError =>
    refine hfail _ .deviceError (hfirst.setBlock ?_)
    rfl
  | serverDown => exact hfail _ .serverDown hfirst
  | noDiskSpace => exact hfail _ .noDiskSpace hfirst
  | domainUnavailable => exact hfail _ .domainUnavailable hfirst
  | other => exact hfail _ .other hfirst

theorem cleaned_finishRealloc {diskBlock : Int} (hinfo : (s.blocks b).cacheInfo = f) : Cleaned s (s.finishRealloc b diskBlock) f b := by
  subst hinfo
  have hset : ∀ x : FscacheBlock, x.key = (s.blocks b).key → Cleaned s (s.setBlock b x) (s.blocks b).cacheInfo b :=
    fun x hx => (Cleaned.refl s _ b).setBlock hx
  unfold BlockCache.finishRealloc
  split
  · refine Cleaned.putFileOnDirtyList (Cleaned.setFile (Cleaned.setBlock (hset _ ?_) ?_) ?_)
    · rfl
    · rfl
    · exact ⟨rfl, rfl, rfl, rfl, id⟩
  · exact hset _ rfl

theorem cleaned_startWrite : Cleaned s (s.startWrite f b) f b := by
  have hset : Cleaned s (s.setFile f { s.files f with dirtyList := (s.files f).dirtyList.erase b }) f b :=
    (Cleaned.refl s f b).setFile ⟨rfl, rfl, rfl, rfl, id⟩
  have hstart := hset.setBlock (show FscacheBlock.key { s.blocks b with
    refCount := (s.blocks b).refCount + 1,
    flags := { (s.blocks b).flags with dirty := false, beingCleaned := false, beingWritten := true } } = _ from rfl)
  unfold BlockCache.startWrite
  dsimp only
  split
  · exact hstart.relist rfl rfl rfl
  · exact hstart

end SpriteKernel.Fscache
