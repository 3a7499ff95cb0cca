import SpriteKernel.Fscache.CacheEffect

/- Closes of a file and write-backs of its blocks exclude each other by `FSCACHE_CLOSE_IN_PROGRESS`: a close is
   bracketed by `Fscache_PreventWriteBacks` and `Fscache_AllowWriteBacks`. The first of two overlapping closes that
   ends clears the flag. -/
namespace SpriteKernel.Fscache

open Function
open Shelves Tally Transition
variable {c : CacheConfig}

namespace BlockCache
variable (s : BlockCache) (f : Nat)

/-- `Fscache_PreventWriteBacks`, up to where it may wait. -/
def preventWriteBacks : BlockCache := s.setFileFlags f { (s.files f).flags with closeInProgress := true }

def allowWriteBacks : BlockCache :=
  let s := s.setFileFlags f { (s.files f).flags with closeInProgress := false }
  if (s.files f).numDirtyBlocks > 0 ∨ (s.files f).flags.descDirty = true then
    let s := s.putFileOnDirtyList f (s.files f).oldestDirtyBlockTime
    if (s.files f).flags.fsync then s.startFileSync f else s
  else s

/-- `Fscache_PutFileOnDirtyList`, with FSCACHE_FILE_DESC_DIRTY as its callers have it. -/
def putDescOnDirtyList (now : Int) : BlockCache :=
  (s.setFileFlags f { (s.files f).flags with descDirty := true }).putFileOnDirtyList f now

/-- A backend has the descriptor of a file that it is writing. -/
def descWritten : BlockCache := s.setFileFlags f { (s.files f).flags with descDirty := false }

end BlockCache

/-- A process that closes a file: asleep in `Fscache_PreventWriteBacks`, woken, or back with a number of dirty
    blocks. -/
inductive Closer where
  | idle
  | asleep (f : Nat)
  | awake (f : Nat)
  | closing (f : Nat) (n : Int)
  deriving DecidableEq

/-- The file that a process is between the calls for. -/
def Closer.file : Closer → Option Nat
  | idle => none
  | asleep f => some f
  | awake f => some f
  | closing f _ => some f

/-- `Sync_Broadcast(&closeCondition)` -/
def Closer.broadcast : Closer → Closer
  | asleep f => awake f
  | p => p

structure CloseSystem where
  sys : CacheSystem
  closers : Nat → Closer
  notCacheable : Nat → Bool

inductive CloseStep where
  | cache (a : CacheStep)
  | preventWriteBacks (p f : Nat)
  | resume (p : Nat)
  | allowWriteBacks (p : Nat)
  | putDescOnDirtyList (f : Nat) (now : Int)
  | descWritten (f : Nat)
  | setNotCacheable (f : Nat) (value : Bool)

namespace CloseSystem
variable (c : CacheConfig) (s : CloseSystem)

def setCache (cache : BlockCache) : CloseSystem := { s with sys := { s.sys with cache := cache } }

def setCloser (p : Nat) (x : Closer) : CloseSystem := { s with closers := update s.closers p x }

/-- The loop of `Fscache_PreventWriteBacks`, and what it returns. -/
def awaitWritten (p f : Nat) : CloseSystem :=
  let info := s.sys.cache.files f
  s.setCloser p (if info.flags.beingWritten then .asleep f else .closing f (if s.notCacheable f then -1 else info.numDirtyBlocks))

/-- Where a file is returned with a close in progress, who waits is woken. -/
def wake : CacheStep → CloseSystem
  | .returnDirtyFile f => if (s.sys.cache.files f).flags.closeInProgress then { s with closers := fun p => (s.closers p).broadcast } else s
  | _ => s

def step (s : CloseSystem) (a : CloseStep) : Option CloseSystem :=
  if s.sys.cache.panicked ≠ none then none
  else
    match a with
    | .cache a => (s.sys.step c a).map fun sys => wake { s with sys := sys } a
    | .preventWriteBacks p f => if s.closers p = .idle then some ((s.setCache (s.sys.cache.preventWriteBacks f)).awaitWritten p f) else none
    | .resume p =>
      match s.closers p with
      | .awake f => some (s.awaitWritten p f)
      | _ => none
    | .allowWriteBacks p =>
      match s.closers p with
      | .closing f _ => some ((s.setCache (s.sys.cache.allowWriteBacks f)).setCloser p .idle)
      | _ => none
    | .putDescOnDirtyList f now => some (s.setCache (s.sys.cache.putDescOnDirtyList f now))
    | .descWritten f => if (s.sys.cache.files f).flags.beingWritten then some (s.setCache (s.sys.cache.descWritten f)) else none
    | .setNotCacheable f value => some { s with notCacheable := update s.notCacheable f value }

def init (raw : Nat → FscacheBlock) : CloseSystem := ⟨.init c raw, fun _ => .idle, fun _ => false⟩

end CloseSystem

def CloseSystem.WritesBack (s : CloseSystem) : CloseStep → Prop
  | .cache a => s.sys.WritesBack a
  | _ => True

/-- No other process is between its calls for the file whose close ends. -/
def CloseSystem.Alone (s : CloseSystem) : CloseStep → Prop
  | .allowWriteBacks p => ∀ q, q ≠ p → (s.closers q).file = none ∨ (s.closers q).file ≠ (s.closers p).file
  | _ => True

/-- Closes and write-backs exclude each other; nobody waits for a file not being written. -/
structure CloseSystem.Excludes (c : CacheConfig) (s : CloseSystem) : Prop where
  closing : ∀ p f n, 0 ≤ n → s.closers p = .closing f n → (s.sys.cache.files f).flags.beingWritten = false ∧
    n ≤ (s.sys.cache.files f).numDirtyBlocks ∧ ∀ blockMatch, (s.sys.cache.getDirtyBlock c f blockMatch).2 = none
  asleep : ∀ p f, s.closers p = .asleep f → (s.sys.cache.files f).flags.beingWritten = true

/-- What has to be written of a file is on the list of its backend. -/
def BlockCache.Listed (s : BlockCache) (f : Nat) : Prop :=
  (s.files f).numDirtyBlocks > 0 ∨ (s.files f).flags.descDirty = true → (s.files f).flags.onDirtyList = true

/-! ### What a step of the cache does to the flags of a file -/

section Flags
variable {s t : CacheSystem} {a : CacheStep} {pending : Set BlockHashKey}

variable {f : Nat}

theorem setFile_flags {s : BlockCache} {info : FileInfo} (g : Nat) : (s.setFile f info).files g = if g = f then info else s.files g := by
  exact update_apply _ _ _ _

theorem getDirtyFile_files {s t : BlockCache} (h : s.getDirtyFile f = some t) : (s.files f).flags.closeInProgress = false ∧
    t.blocks = s.blocks ∧ ∀ g, (t.files g).flags.closeInProgress = (s.files g).flags.closeInProgress ∧
      (t.files g).numDirtyBlocks = (s.files g).numDirtyBlocks ∧ (t.files g).flags.beingWritten = ((s.files g).flags.beingWritten || decide (g = f)) := by
  unfold BlockCache.getDirtyFile at h
  dsimp only at h
  split at h
  next hflags =>
    cases h
    refine ⟨Bool.eq_false_iff.2 fun hclose => hflags.2.1 (.inl hclose), rfl, fun g => ?_⟩
    unfold BlockCache.setFileFlags
    rw [setFile_flags]
    split
    next hg => simp [hg]
    next hg => simp [hg]
  next => cases h

theorem putFileOnDirtyList_blocks {s : BlockCache} {time : Int} : (s.putFileOnDirtyList f time).blocks = s.blocks := by
  obtain ⟨files, hrest⟩ := @rest_putFileOnDirtyList s f time
  rw [hrest]

theorem returnDirtyFile_eq {s : BlockCache} {f : Nat} : ∃ flags : FileFlags,
    flags.closeInProgress = (s.files f).flags.closeInProgress ∧ flags.beingWritten = false ∧
    Frame (s.setFileFlags f flags) (s.returnDirtyFile f) ∧ (s.returnDirtyFile f).blocks = s.blocks := by
  obtain ⟨flags, hflags⟩ : ∃ flags : FileFlags, flags = if (s.files f).numDirtyBlocks = 0 ∧ (s.files f).flags.descDirty = false
    then { (s.files f).flags with beingWritten := false, fsync := false, beingCleaned := false }
    else { (s.files f).flags with beingWritten := false } := ⟨_, rfl⟩
  have hkept : flags.closeInProgress = (s.files f).flags.closeInProgress ∧ flags.beingWritten = false := by
    rw [hflags]
    split <;> exact ⟨rfl, rfl⟩
  refine ⟨flags, hkept.1, hkept.2, ?_⟩
  unfold BlockCache.returnDirtyFile
  dsimp only
  rw [← hflags]
  split
  · exact ⟨Frame.putFileOnDirtyList, putFileOnDirtyList_blocks⟩
  · exact ⟨.refl _, rfl⟩

theorem returnDirtyFile_files {s : BlockCache} {f : Nat} (g : Nat) :
    ((s.returnDirtyFile f).files g).flags.closeInProgress = (s.files g).flags.closeInProgress ∧
    ((s.returnDirtyFile f).files g).numDirtyBlocks = (s.files g).numDirtyBlocks ∧
    ((s.returnDirtyFile f).files g).flags.beingWritten = ((s.files g).flags.beingWritten && decide (g ≠ f)) := by
  obtain ⟨flags, hclose, hwritten, hframe, -⟩ := @returnDirtyFile_eq s f
  have hf := hframe.file g
  rw [hf.closeInProgress, hf.numDirtyBlocks, hf.beingWritten]
  unfold BlockCache.setFileFlags
  rw [setFile_flags]
  split
  next hg => simp [hg, hclose, hwritten]
  next hg => simp [hg]

def CacheSystem.Writing (s : CacheSystem) : Prop :=
  ∀ b, s.out b = .written → (s.cache.files (s.cache.blocks b).cacheInfo).flags.beingWritten = true

/-- No backend takes a file while it is closed, and with nobody writing it no block gets clean. -/
structure CacheSystem.FileStep (s t : CacheSystem) (a : CacheStep) (f : Nat) : Prop where
  closeInProgress : (t.cache.files f).flags.closeInProgress = (s.cache.files f).flags.closeInProgress
  taken : (t.cache.files f).flags.beingWritten = true → (s.cache.files f).flags.beingWritten = true ∨ (s.cache.files f).flags.closeInProgress = false
  given : (s.cache.files f).flags.beingWritten = true → (t.cache.files f).flags.beingWritten = true ∨ a = .returnDirtyFile f
  num : (s.cache.files f).numDirtyBlocks ≤ (t.cache.files f).numDirtyBlocks ∨ (s.cache.files f).flags.beingWritten = true

theorem CacheSystem.FileStep.of_eq (hclose : (t.cache.files f).flags.closeInProgress = (s.cache.files f).flags.closeInProgress)
    (hwritten : (t.cache.files f).flags.beingWritten = (s.cache.files f).flags.beingWritten)
    (hnum : (s.cache.files f).numDirtyBlocks ≤ (t.cache.files f).numDirtyBlocks ∨ (s.cache.files f).flags.beingWritten = true) :
    FileStep s t a f :=
  ⟨hclose, fun h => .inl (hwritten ▸ h), fun h => .inl (hwritten.trans h), hnum⟩

theorem CacheSystem.Effect.file (h : Effect c s t a) (hwriting : s.Writing) (f : Nat) : FileStep s t a f := by
  cases h with
  | frame hframe hout =>
    have hf := hframe.file f
    exact .of_eq hf.closeInProgress hf.beingWritten (.inl (Int.le_of_eq hf.numDirtyBlocks.symm))
  | entered u b g n flags now hframe hclean hcache hout =>
    have hf := hframe.file f
    obtain ⟨hflags, hnum, -⟩ := (@enterBlock_same c u b g n now flags).1 f
    rw [← hcache] at hflags hnum
    refine .of_eq ?_ ?_ (.inl ?_)
    · rw [hflags, hf.closeInProgress]
    · rw [hflags, hf.beingWritten]
    · rw [hnum, hf.numDirtyBlocks]
  | dirtied hheld htime hdirty hout =>
    obtain ⟨hclose, hwritten, -, -, -, hnum⟩ := hdirty.file f
    exact .of_eq hclose hwritten (.inl hnum)
  | started u b hclose hframe hhome hidle hcache hout =>
    rename_i g blockMatch
    have hf := hframe.file f
    obtain ⟨hflags, hnum⟩ := @startWrite_files u b g f
    rw [← hcache] at hflags hnum
    refine .of_eq ?_ ?_ (.inl ?_)
    · rw [hflags, hf.closeInProgress]
    · rw [hflags, hf.beingWritten]
    · rw [hnum, hf.numDirtyBlocks]
  | returned hb hcache hout =>
    rename_i b status now
    have hcleaned := @cleaned_returnDirtyBlock c s.cache b (s.cache.blocks b).cacheInfo now status rfl
    rw [← hcache] at hcleaned
    obtain ⟨hclose, hwritten, -⟩ := hcleaned.file f
    refine .of_eq hclose hwritten ?_
    by_cases hf : f = (s.cache.blocks b).cacheInfo
    · subst hf
      exact .inr (hwriting b hb)
    · exact .inl (Int.le_of_eq (hcleaned.other f hf).symm)
  | realloced hb hcache hout =>
    rename_i b diskBlock
    have hcleaned := @cleaned_finishRealloc s.cache b (s.cache.blocks b).cacheInfo diskBlock rfl
    have hnum := @finishRealloc_num s.cache b diskBlock f
    rw [← hcache] at hcleaned hnum
    obtain ⟨hclose, hwritten, -⟩ := hcleaned.file f
    exact .of_eq hclose hwritten (.inl (Int.le_of_eq hnum.symm))
  | taken hcache hout =>
    obtain ⟨hclose, -, hfiles⟩ := getDirtyFile_files hcache
    obtain ⟨hsame, hnum, hwritten⟩ := hfiles f
    refine ⟨hsame, fun h => ?_, fun h => .inl ?_, .inl (Int.le_of_eq hnum.symm)⟩
    · rw [hwritten, Bool.or_eq_true] at h
      refine h.imp_right fun heq => ?_
      rw [of_decide_eq_true heq]
      exact hclose
    · rw [hwritten, h]
      rfl
  | given hg hcache hout =>
    rename_i g
    obtain ⟨hsame, hnum, hwritten⟩ := @returnDirtyFile_files s.cache g f
    rw [← hcache] at hsame hnum hwritten
    refine ⟨hsame, fun h => ?_, fun h => ?_, .inl (Int.le_of_eq hnum.symm)⟩
    · rw [hwritten, Bool.and_eq_true] at h
      exact .inl h.1
    · by_cases hf : f = g
      · right
        rw [hf]
      · left
        rw [hwritten, h, decide_eq_true hf]
        rfl

theorem CacheSystem.Effect.writing (h : Effect c s t a) (hacc : Accounts c none pending s.cache s.held s.out) (hw : s.WritesBack a)
    (hwriting : s.Writing) : t.Writing := by
  intro b hb
  have hsame : t.out b = s.out b → (t.cache.blocks b).cacheInfo = (s.cache.blocks b).cacheInfo →
      a ≠ .returnDirtyFile (s.cache.blocks b).cacheInfo → (t.cache.files (t.cache.blocks b).cacheInfo).flags.beingWritten = true := by
    intro hout hinfo ha
    rw [hinfo]
    exact ((h.file hwriting _).given (hwriting b (hout ▸ hb))).resolve_right ha
  have hkept : ∀ u : BlockCache, Frame s.cache u → s.out b = .written → (u.blocks b).cacheInfo = (s.cache.blocks b).cacheInfo := by
    intro u hframe hout
    refine congrArg Prod.fst ((hframe.block b).key ?_)
    unfold FscacheBlock.dirtyOrWritten
    rw [(hacc.out_there (by rw [hout]; decide)).2.2.2.2, Bool.or_true]
  cases h with
  | frame hframe hout =>
    rw [hout] at hb
    refine hsame (by rw [hout]) (hkept _ hframe hb) ?_
    rintro rfl
    exact hw b hb rfl
  | entered u d g n flags now hframe hclean hcache hout =>
    rw [hout] at hb
    -- what is found for the new block is not with the cleaner
    have hne : b ≠ d := by
      rintro rfl
      have hdirty := (hframe.block b).dirtyOrWritten
      unfold FscacheBlock.dirtyOrWritten at hdirty hclean
      rw [hclean, (hacc.out_there (by rw [hb]; decide)).2.2.2.2, Bool.or_true] at hdirty
      cases hdirty
    refine hsame (by rw [hout]) ?_ ?_
    · rw [hcache, (@enterBlock_same c u d g n now flags).2 b hne]
      exact hkept u hframe hb
    · rintro rfl
      exact hw b hb rfl
  | dirtied hheld htime hdirty hout =>
    rename_i p d time diskBlock blockSize now flags
    rw [hout] at hb
    refine hsame (by rw [hout]) ?_ (by simp)
    by_cases hne : b = d
    · subst hne
      exact congrArg Prod.fst hdirty.self.2.2.1
    · refine congrArg Prod.fst ((hdirty.block b hne).key ?_)
      unfold FscacheBlock.dirtyOrWritten
      rw [(hacc.out_there (by rw [hb]; decide)).2.2.2.2, Bool.or_true]
  | started u d hclose hframe hhome hidle hcache hout =>
    rename_i f blockMatch
    have hcleaned := @cleaned_startWrite u d f
    rw [← hcache] at hcleaned
    by_cases hne : b = d
    · subst hne
      have hinfo : (u.blocks b).cacheInfo = f := (dirtyHome_some hhome).2.2.2
      have hkey : (t.cache.blocks b).cacheInfo = f := (congrArg Prod.fst hcleaned.key).trans hinfo
      rw [hkey, (hcleaned.file f).2.1, (hframe.file f).beingWritten]
      exact hw
    · rw [hout, update_of_ne hne] at hb
      refine hsame (by rw [hout, update_of_ne hne]) ?_ (by simp)
      rw [hcleaned.block b hne]
      exact hkept u hframe hb
  | returned hd hcache hout =>
    rename_i d status now
    have hcleaned := @cleaned_returnDirtyBlock c s.cache d (s.cache.blocks d).cacheInfo now status rfl
    rw [← hcache] at hcleaned
    have hne : b ≠ d := by
      rintro rfl
      rw [hout, update_self] at hb
      cases status <;> cases hb
    exact hsame (by rw [hout, update_of_ne hne]) (by rw [hcleaned.block b hne]) (by simp)
  | realloced hd hcache hout =>
    rename_i d diskBlock
    have hcleaned := @cleaned_finishRealloc s.cache d (s.cache.blocks d).cacheInfo diskBlock rfl
    rw [← hcache] at hcleaned
    have hne : b ≠ d := by
      rintro rfl
      rw [hout, update_self] at hb
      cases hb
    exact hsame (by rw [hout, update_of_ne hne]) (by rw [hcleaned.block b hne]) (by simp)
  | taken hcache hout =>
    obtain ⟨-, hblocks, -⟩ := getDirtyFile_files hcache
    exact hsame (by rw [hout]) (by rw [hblocks]) (by simp)
  | given hf hcache hout =>
    rename_i f
    rw [hout] at hb
    have hne := hw b hb
    obtain ⟨-, -, -, -, hblocks⟩ := @returnDirtyFile_eq s.cache f
    refine hsame (by rw [hout]) (by rw [hcache, hblocks]) ?_
    intro heq
    cases heq
    exact hne rfl

end Flags

/-! ### Every run -/

structure CloseSystem.Bracketed (s : CloseSystem) : Prop where
  closing : ∀ p f n, s.closers p = .closing f n → (s.sys.cache.files f).flags.closeInProgress = true ∧
    (s.sys.cache.files f).flags.beingWritten = false ∧ (0 ≤ n → n ≤ (s.sys.cache.files f).numDirtyBlocks)
  asleep : ∀ p f, s.closers p = .asleep f → (s.sys.cache.files f).flags.closeInProgress = true ∧
    (s.sys.cache.files f).flags.beingWritten = true
  awake : ∀ p f, s.closers p = .awake f → (s.sys.cache.files f).flags.closeInProgress = true
  writing : s.sys.Writing

variable {s : CloseSystem}

/-- The flags of the files are as they were, but for a file that nobody is between the calls for. -/
theorem CloseSystem.Bracketed.setCache {cache : BlockCache} (h : s.Bracketed)
    (hclose : ∀ f, (∃ p, (s.closers p).file = some f) → (s.sys.cache.files f).flags.closeInProgress = true →
      (cache.files f).flags.closeInProgress = true)
    (hwritten : ∀ f, (cache.files f).flags.beingWritten = (s.sys.cache.files f).flags.beingWritten)
    (hnum : ∀ f, (cache.files f).numDirtyBlocks = (s.sys.cache.files f).numDirtyBlocks) (hblocks : cache.blocks = s.sys.cache.blocks) :
    (s.setCache cache).Bracketed := by
  refine ⟨fun p f n hp => ?_, fun p f hp => ?_, fun p f hp => ?_, fun b hb => ?_⟩
  · obtain ⟨h₁, h₂, h₃⟩ := h.closing p f n hp
    have hp : s.closers p = .closing f n := hp
    refine ⟨hclose f ⟨p, by rw [hp]; rfl⟩ h₁, (hwritten f).trans h₂, fun hn => ?_⟩
    exact (h₃ hn).trans (Int.le_of_eq (hnum f).symm)
  · obtain ⟨h₁, h₂⟩ := h.asleep p f hp
    have hp : s.closers p = .asleep f := hp
    exact ⟨hclose f ⟨p, by rw [hp]; rfl⟩ h₁, (hwritten f).trans h₂⟩
  · have hp : s.closers p = .awake f := hp
    exact hclose f ⟨p, by rw [hp]; rfl⟩ (h.awake p f hp)
  · show (cache.files (cache.blocks b).cacheInfo).flags.beingWritten = true
    rw [hblocks, hwritten]
    exact h.writing b hb

theorem CloseSystem.Bracketed.setCloser {p : Nat} {x : Closer} (h : s.Bracketed)
    (hx : match x with
      | .idle => True
      | .asleep f => (s.sys.cache.files f).flags.closeInProgress = true ∧ (s.sys.cache.files f).flags.beingWritten = true
      | .awake f => (s.sys.cache.files f).flags.closeInProgress = true
      | .closing f n => (s.sys.cache.files f).flags.closeInProgress = true ∧
        (s.sys.cache.files f).flags.beingWritten = false ∧ (0 ≤ n → n ≤ (s.sys.cache.files f).numDirtyBlocks)) :
    (s.setCloser p x).Bracketed := by
  refine ⟨fun q f n hq => ?_, fun q f hq => ?_, fun q f hq => ?_, h.writing⟩ <;>
  · change update s.closers p x q = _ at hq
    rw [update_apply] at hq
    split at hq
    · subst hq
      exact hx
    · first
        | exact h.closing q f n hq
        | exact h.asleep q f hq
        | exact h.awake q f hq

variable {f : Nat}

theorem CloseSystem.Bracketed.awaitWritten {p : Nat} (h : s.Bracketed)
    (hclose : (s.sys.cache.files f).flags.closeInProgress = true) : (s.awaitWritten p f).Bracketed := by
  unfold CloseSystem.awaitWritten
  dsimp only
  split
  next hw => exact h.setCloser ⟨hclose, hw⟩
  next hw =>
    refine h.setCloser ⟨hclose, Bool.eq_false_iff.2 hw, ?_⟩
    split
    · intro hn
      exact absurd hn (by decide)
    · exact fun _ => Int.le_refl _

theorem allowWriteBacks_files {s : BlockCache} {f : Nat} : (s.allowWriteBacks f).blocks = s.blocks ∧ ∀ g,
    (g ≠ f → ((s.allowWriteBacks f).files g).flags.closeInProgress = (s.files g).flags.closeInProgress) ∧
    ((s.allowWriteBacks f).files g).flags.beingWritten = (s.files g).flags.beingWritten ∧
    ((s.allowWriteBacks f).files g).numDirtyBlocks = (s.files g).numDirtyBlocks ∧
    ((s.allowWriteBacks f).files g).flags.descDirty = (s.files g).flags.descDirty := by
  obtain ⟨u, hu⟩ : ∃ u, u = s.setFileFlags f { (s.files f).flags with closeInProgress := false } := ⟨_, rfl⟩
  have hset : ∀ g, (g ≠ f → (u.files g).flags.closeInProgress = (s.files g).flags.closeInProgress) ∧
      (u.files g).flags.beingWritten = (s.files g).flags.beingWritten ∧ (u.files g).numDirtyBlocks = (s.files g).numDirtyBlocks ∧
      (u.files g).flags.descDirty = (s.files g).flags.descDirty := by
    intro g
    rw [hu]
    unfold BlockCache.setFileFlags
    rw [setFile_flags]
    split
    next hg =>
      subst hg
      exact ⟨fun hne => absurd rfl hne, rfl, rfl, rfl⟩
    next => exact ⟨fun _ => rfl, rfl, rfl, rfl⟩
  have hafter : ∀ v, Frame u v → v.blocks = u.blocks → v.blocks = s.blocks ∧ ∀ g,
      (g ≠ f → (v.files g).flags.closeInProgress = (s.files g).flags.closeInProgress) ∧
      (v.files g).flags.beingWritten = (s.files g).flags.beingWritten ∧ (v.files g).numDirtyBlocks = (s.files g).numDirtyBlocks ∧
      (v.files g).flags.descDirty = (s.files g).flags.descDirty := by
    intro v hframe hblocks
    refine ⟨by rw [hblocks, hu]; rfl, fun g => ?_⟩
    obtain ⟨h₁, h₂, h₃, h₄⟩ := hset g
    have hf := hframe.file g
    exact ⟨fun hne => hf.closeInProgress.trans (h₁ hne), hf.beingWritten.trans h₂, hf.numDirtyBlocks.trans h₃, hf.descDirty.trans h₄⟩
  unfold BlockCache.allowWriteBacks
  dsimp only
  rw [← hu]
  split
  · split
    · exact hafter _ (Frame.putFileOnDirtyList.trans Frame.startFileSync) putFileOnDirtyList_blocks
    · exact hafter _ Frame.putFileOnDirtyList putFileOnDirtyList_blocks
  · exact hafter u (.refl u) rfl

theorem allowWriteBacks_listed {s : BlockCache} (h : (s.files f).flags.beingWritten = false) : (s.allowWriteBacks f).Listed f := by
  intro hdirty
  obtain ⟨-, hwritten, hnum, hdesc⟩ := (@allowWriteBacks_files s f).2 f
  rw [hnum, hdesc] at hdirty
  rw [h] at hwritten
  obtain ⟨u, hu⟩ : ∃ u, u = s.setFileFlags f { (s.files f).flags with closeInProgress := false } := ⟨_, rfl⟩
  have hself : u.files f = { s.files f with flags := { (s.files f).flags with closeInProgress := false } } := by
    rw [hu]
    exact update_self _ _ _
  have hput : (u.files f).numDirtyBlocks > 0 ∨ (u.files f).flags.descDirty = true := by
    rw [hself]
    exact hdirty
  unfold BlockCache.allowWriteBacks at hwritten ⊢
  dsimp only at hwritten ⊢
  rw [← hu, if_pos hput] at hwritten ⊢
  have hlisted := @putFileOnDirtyList_listed u f (u.files f).oldestDirtyBlockTime
  split at hwritten
  next hsync =>
    rw [if_pos hsync]
    have hframe := (@Frame.startFileSync (u.putFileOnDirtyList f (u.files f).oldestDirtyBlockTime) f).file f
    refine hframe.onDirtyList (hlisted.resolve_right ?_)
    rw [← hframe.beingWritten, hwritten]
    decide
  next hsync =>
    rw [if_neg hsync]
    refine hlisted.resolve_right ?_
    rw [hwritten]
    decide

def CloseSystem.Inv (c : CacheConfig) (s : CloseSystem) : Prop := (∃ pending, s.sys.Inv c pending) ∧ s.Bracketed

theorem CloseSystem.wake_closers {s : CloseSystem} {a : CacheStep} (p : Nat) : (s.wake a).sys = s.sys ∧
    ((s.wake a).closers p = s.closers p ∨ (s.wake a).closers p = (s.closers p).broadcast) := by
  unfold CloseSystem.wake
  split
  next =>
    split
    · exact ⟨rfl, .inr rfl⟩
    · exact ⟨rfl, .inl rfl⟩
  next => exact ⟨rfl, .inl rfl⟩

theorem CloseSystem.Bracketed.cacheStep {sys : CacheSystem} {a : CacheStep} (h : s.Bracketed)
    (heff : s.sys.Effect c sys a) (hwriting : sys.Writing) : (wake { s with sys := sys } a).Bracketed := by
  have hfile := heff.file h.writing
  refine ⟨fun p f n hp => ?_, fun p f hp => ?_, fun p f hp => ?_, ?_⟩
  · obtain ⟨hsys, hcloser⟩ := @wake_closers { s with sys := sys } a p
    rw [hsys]
    have hp' : s.closers p = .closing f n := by
      obtain heq | heq := hcloser
      · exact heq.symm.trans hp
      · rw [heq] at hp
        revert hp
        cases s.closers p <;> intro hp <;> cases hp
        rfl
    obtain ⟨h₁, h₂, h₃⟩ := h.closing p f n hp'
    have hf := hfile f
    refine ⟨hf.closeInProgress.trans h₁, ?_, fun hn => (h₃ hn).trans ?_⟩
    · refine Bool.eq_false_iff.2 fun hw => ?_
      obtain hw | hc := hf.taken hw
      · rw [h₂] at hw
        cases hw
      · rw [h₁] at hc
        cases hc
    · refine hf.num.resolve_right ?_
      rw [h₂]
      decide
  · obtain ⟨hsys, hcloser⟩ := @wake_closers { s with sys := sys } a p
    have hp' : s.closers p = .asleep f := by
      obtain heq | heq := hcloser
      · exact heq.symm.trans hp
      · rw [heq] at hp
        revert hp
        cases s.closers p <;> intro hp <;> cases hp
    obtain ⟨h₁, h₂⟩ := h.asleep p f hp'
    have hf := hfile f
    have hclose := hf.closeInProgress.trans h₁
    rw [hsys]
    refine ⟨hclose, (hf.given h₂).resolve_right ?_⟩
    rintro rfl
    -- the file has been returned, and the process woken
    have hwoken : wake { s with sys := sys } (.returnDirtyFile f) = { s with sys := sys, closers := fun p => (s.closers p).broadcast } :=
      if_pos hclose
    rw [hwoken] at hp
    change (s.closers p).broadcast = _ at hp
    rw [hp'] at hp
    cases hp
  · obtain ⟨hsys, hcloser⟩ := @wake_closers { s with sys := sys } a p
    rw [hsys]
    have hp' : s.closers p = .awake f ∨ s.closers p = .asleep f := by
      obtain heq | heq := hcloser
      · exact .inl (heq.symm.trans hp)
      · rw [heq] at hp
        revert hp
        cases s.closers p <;> intro hp <;> cases hp
        · exact .inr rfl
        · exact .inl rfl
    obtain hp' | hp' := hp'
    · exact (hfile f).closeInProgress.trans (h.awake p f hp')
    · exact (hfile f).closeInProgress.trans (h.asleep p f hp').1
  · rw [(@wake_closers { s with sys := sys } a 0).1]
    exact hwriting

theorem CloseSystem.Bracketed.setFileFlags {flags : FileFlags} (h : s.Bracketed)
    (hclose : (s.sys.cache.files f).flags.closeInProgress = true → flags.closeInProgress = true)
    (hwritten : flags.beingWritten = (s.sys.cache.files f).flags.beingWritten) : (s.setCache (s.sys.cache.setFileFlags f flags)).Bracketed := by
  unfold BlockCache.setFileFlags
  refine h.setCache (fun g _ hg => ?_) (fun g => ?_) (fun g => ?_) rfl <;> rw [setFile_flags] <;> split
  next heq => exact hclose (heq ▸ hg)
  next => exact hg
  next heq => rw [heq]; exact hwritten
  next => rfl
  next heq => rw [heq]
  next => rfl

theorem CloseSystem.inv_step {t : CloseSystem} {a : CloseStep} (hi : s.Inv c) (hw : s.WritesBack a) (ha : s.Alone a)
    (hs : s.step c a = some t) : t.Inv c := by
  obtain ⟨⟨pending, hinv⟩, hb⟩ := hi
  unfold CloseSystem.step at hs
  split at hs
  next => cases hs
  next hcalm =>
    have h : Accounts c none pending s.sys.cache s.sys.held s.sys.out := by
      obtain hp | ⟨hp, -⟩ | h := hinv
      · exact absurd (by rw [hp]; decide) hcalm
      · exact absurd (by rw [hp]; decide) hcalm
      · exact h
    cases a with
    | cache a =>
      obtain ⟨sys, hsys, rfl⟩ := Option.map_eq_some_iff.1 hs
      have heff := CacheSystem.effect_of_step h hw hsys
      obtain ⟨pending', hinv', -⟩ := CacheSystem.inv_step (.inr (.inr h)) hsys fun heq => by
        subst heq
        exact hw.elim
      refine ⟨⟨pending', ?_⟩, hb.cacheStep heff (heff.writing h hw hb.writing)⟩
      rw [(@wake_closers { s with sys := sys } a 0).1]
      exact hinv'
    | preventWriteBacks p f =>
      dsimp only at hs
      split at hs
      next =>
        cases hs
        refine ⟨⟨pending, .inr (.inr (h.setFile_same rfl rfl rfl))⟩, ?_⟩
        refine Bracketed.awaitWritten (hb.setFileFlags ?_ ?_) ?_
        · exact fun _ => rfl
        · rfl
        · show (update s.sys.cache.files f _ f).flags.closeInProgress = true
          rw [update_self]
      next => cases hs
    | resume p =>
      dsimp only at hs
      split at hs
      next f hp =>
        cases hs
        exact ⟨⟨pending, hinv⟩, hb.awaitWritten (hb.awake p f hp)⟩
      next => cases hs
    | allowWriteBacks p =>
      dsimp only at hs
      split at hs
      next f n hp =>
        cases hs
        obtain ⟨hblocks, hfiles⟩ := @allowWriteBacks_files s.sys.cache f
        refine ⟨⟨pending, .inr (.inr ?_)⟩, ?_⟩
        · have hset : Accounts c none pending (s.sys.cache.setFileFlags f { (s.sys.cache.files f).flags with closeInProgress := false })
            s.sys.held s.sys.out := h.setFile_same rfl rfl rfl
          unfold BlockCache.allowWriteBacks
          dsimp only
          split
          · split
            · exact hset.putFileOnDirtyList.startFileSync
            · exact hset.putFileOnDirtyList
          · exact hset
        · have hidle : (s.setCloser p .idle).Bracketed := hb.setCloser trivial
          refine hidle.setCache (fun g hg hclose => ?_) (fun g => (hfiles g).2.1) (fun g => (hfiles g).2.2.1) hblocks
          rw [(hfiles g).1]
          · exact hclose
          · rintro rfl
            obtain ⟨q, hq⟩ := hg
            obtain ⟨-, hself⟩ | ⟨heq, hq⟩ := update_cases (f := s.closers) (P := (Closer.file · = _)) hq
            · cases hself
            · obtain hnone | hne := ha q heq
              · rw [hnone] at hq
                cases hq
              · rw [hq, hp] at hne
                exact hne rfl
      next => cases hs
    | putDescOnDirtyList f now =>
      cases hs
      have hset : Accounts c none pending (s.sys.cache.setFileFlags f { (s.sys.cache.files f).flags with descDirty := true })
        s.sys.held s.sys.out := h.setFile_same rfl rfl rfl
      refine ⟨⟨pending, .inr (.inr hset.putFileOnDirtyList)⟩, ?_⟩
      have hflags : (s.setCache (s.sys.cache.setFileFlags f { (s.sys.cache.files f).flags with descDirty := true })).Bracketed :=
        hb.setFileFlags id rfl
      have hframe := @Frame.putFileOnDirtyList (s.sys.cache.setFileFlags f { (s.sys.cache.files f).flags with descDirty := true }) f now
      exact hflags.setCache (fun g _ hg => (hframe.file g).closeInProgress.trans hg) (fun g => (hframe.file g).beingWritten)
        (fun g => (hframe.file g).numDirtyBlocks) putFileOnDirtyList_blocks
    | descWritten f =>
      dsimp only at hs
      split at hs
      next =>
        cases hs
        refine ⟨⟨pending, .inr (.inr (h.setFile_same rfl rfl rfl))⟩, hb.setFileFlags ?_ ?_⟩
        · exact id
        · rfl
      next => cases hs
    | setNotCacheable f value =>
      cases hs
      exact ⟨⟨pending, hinv⟩, ⟨hb.closing, hb.asleep, hb.awake, hb.writing⟩⟩

/-- Closes and write-backs exclude each other, and nobody waits in vain, where no two closes of a file overlap. -/
theorem closes_exclude_writeBacks (raw : Nat → FscacheBlock) {s : CloseSystem}
    (h : Run (CloseSystem.step c) (fun s a => s.WritesBack a ∧ s.Alone a) (CloseSystem.init c raw) s) :
    s.Excludes c ∧ ∀ p f n t, s.closers p = .closing f n → s.step c (.allowWriteBacks p) = some t → t.sys.cache.Listed f := by
  obtain ⟨-, hb⟩ : s.Inv c := by
    refine h.invariant (I := CloseSystem.Inv c) (fun u a v hu ha hs => CloseSystem.inv_step hu ha.1 ha.2 hs) ?_
    refine ⟨⟨∅, .inr (.inr (accounts_init raw))⟩, ?_⟩
    exact ⟨fun _ _ _ hp => (nomatch hp), fun _ _ hp => (nomatch hp), fun _ _ hp => (nomatch hp), fun _ hb => (nomatch hb)⟩
  refine ⟨⟨fun p f n hn hp => ?_, fun p f hp => (hb.asleep p f hp).2⟩, fun p f n t hp hs => ?_⟩
  · obtain ⟨hclose, hwritten, hnum⟩ := hb.closing p f n hp
    refine ⟨hwritten, hnum hn, fun blockMatch => ?_⟩
    unfold BlockCache.getDirtyBlock
    rw [if_pos (.inl hclose)]
  · unfold CloseSystem.step at hs
    split at hs
    next => cases hs
    next =>
      dsimp only at hs
      rw [hp] at hs
      cases hs
      exact allowWriteBacks_listed (hb.closing p f n hp).2.1

/-- A file is closed while it is being written. -/
theorem closes_exclude_writeBacks_waited : ∃ s : CloseSystem,
    Run (CloseSystem.step oneBlock) (fun s a => s.WritesBack a ∧ s.Alone a) (CloseSystem.init oneBlock fun _ => blankBlock) s ∧
    s.closers 1 = .closing 3 1 ∧ s.Excludes oneBlock ∧
    ∀ p f n t, s.closers p = .closing f n → s.step oneBlock (.allowWriteBacks p) = some t → t.sys.cache.Listed f := by
  have h₀ : Run (CloseSystem.step oneBlock) (fun s a => s.WritesBack a ∧ s.Alone a) (CloseSystem.init oneBlock fun _ => blankBlock)
      (CloseSystem.init oneBlock fun _ => blankBlock) := Run.refl _ _
  have hsleeps := h₀.free [.cache (.createBlock true), .cache (.fetchBlock 0 3 0 {} 5 [noPage]),
    .cache (.unlockBlock 0 0 7 (-1) 4096 {} 8), .cache (.getDirtyFile 3), .preventWriteBacks 1 3]
    (by simp [CloseSystem.WritesBack, CacheSystem.WritesBack, CloseSystem.Alone]) rfl
  have hback := hsleeps.snoc (l := .cache (.returnDirtyFile 3)) (by exact ⟨fun b hb => (nomatch hb), trivial⟩) rfl
  have hrun := hback.snoc (l := .resume 1) (by exact ⟨trivial, trivial⟩) rfl
  exact ⟨_, hrun, rfl, closes_exclude_writeBacks _ hrun⟩

/-- Of two closes that overlap the first to end lets blocks be written; a waiter is not woken. -/
theorem closes_exclude_writeBacks_fails :
    (∃ s : CloseSystem, Run (CloseSystem.step oneBlock) CloseSystem.WritesBack (CloseSystem.init oneBlock fun _ => blankBlock) s ∧
      s.closers 2 = .closing 3 1 ∧ (s.sys.cache.files 3).numDirtyBlocks = 0 ∧ ¬ s.Excludes oneBlock) ∧
    ∃ s : CloseSystem, Run (CloseSystem.step oneBlock) CloseSystem.WritesBack (CloseSystem.init oneBlock fun _ => blankBlock) s ∧
      s.closers 2 = .asleep 3 ∧ (s.sys.cache.files 3).flags.beingWritten = false ∧ ¬ s.Excludes oneBlock := by
  have h₀ : Run (CloseSystem.step oneBlock) CloseSystem.WritesBack (CloseSystem.init oneBlock fun _ => blankBlock)
      (CloseSystem.init oneBlock fun _ => blankBlock) := Run.refl _ _
  have hdirty := h₀.free [.cache (.createBlock true), .cache (.fetchBlock 0 3 0 {} 5 [noPage]),
    .cache (.unlockBlock 0 0 7 (-1) 4096 {} 8)] (by simp [CloseSystem.WritesBack, CacheSystem.WritesBack]) rfl
  constructor
  · have htaken := hdirty.free [.preventWriteBacks 1 3, .preventWriteBacks 2 3, .allowWriteBacks 1, .cache (.getDirtyFile 3)]
      (by simp [CloseSystem.WritesBack, CacheSystem.WritesBack]) rfl
    have hwrites := htaken.snoc (l := .cache (.getDirtyBlock 3 fun _ => true)) (by exact rfl) rfl
    have hrun := hwrites.snoc (l := .cache (.returnDirtyBlock 0 .success 9)) (by trivial) rfl
    refine ⟨_, hrun, rfl, rfl, fun hx => ?_⟩
    have hle := (hx.closing 2 3 1 (by decide) rfl).2.1
    exact absurd hle (by decide)
  · have hsleeps := hdirty.free [.cache (.getDirtyFile 3), .preventWriteBacks 2 3]
      (by simp [CloseSystem.WritesBack, CacheSystem.WritesBack]) rfl
    have hback := hsleeps.snoc (l := .cache (.returnDirtyFile 3)) (by exact fun b hb => (nomatch hb)) rfl
    have hagain := hback.free [.preventWriteBacks 1 3, .allowWriteBacks 1, .cache (.getDirtyFile 3), .resume 2]
      (by simp [CloseSystem.WritesBack, CacheSystem.WritesBack]) rfl
    have hrun := hagain.snoc (l := .cache (.returnDirtyFile 3)) (by exact fun b hb => (nomatch hb)) rfl
    refine ⟨_, hrun, rfl, rfl, fun hx => ?_⟩
    have hw := hx.asleep 2 3 rfl
    exact absurd hw (by decide)

end SpriteKernel.Fscache
