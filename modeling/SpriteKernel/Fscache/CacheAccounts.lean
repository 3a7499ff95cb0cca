import SpriteKernel.Fscache.CacheInvalidate

/- The books are right in every state that is reached with the monitor free, if every process that asks for
   a block that is not in the cache is given one, and no page is given back one of whose blocks is on
   the partly-free list. -/
namespace SpriteKernel.Fscache

open List
open Shelves Tally Transition
variable {c : CacheConfig} {pending : Set BlockHashKey}

/-- `Fscache_Init`, before it maps its first page; `raw` is the storage of the blocks. -/
def BlockCache.init (c : CacheConfig) (raw : Nat → FscacheBlock) : BlockCache where
  blocks b := { raw b with flags := { notMapped := true }, refCount := 0 }
  files _ := { dirtyList := [], flags := {}, blocksInCache := 0, numDirtyBlocks := 0, lastTimeTried := 0, oldestDirtyBlockTime := 0 }
  use
    | .unmapped => List.range c.maxNumBlocks
    | _ => []
  hash _ := none
  numAvailBlocks := 0
  minNumAvailBlocks := 0
  numFreeBlocks := 0
  numCacheBlocks := 0
  maxCacheBlocks := c.maxNumBlocks
  panicked := none

def CacheSystem.init (c : CacheConfig) (raw : Nat → FscacheBlock) : CacheSystem where
  cache := BlockCache.init c raw
  calls _ := none
  held _ := 0
  out _ := .kept

/-- A block that is there for a file is on the LRU list, or on none. -/
def BlockCache.ThereFor (s : BlockCache) (f b : Nat) : Prop :=
  (b ∈ s.use .lru ∨ ∀ l, b ∉ s.use l) ∧ (s.blocks b).cacheInfo = f

/-- The books of the cache. -/
structure BlockCache.Accounted (c : CacheConfig) (s : BlockCache) : Prop where
  lists : ∀ l, (s.use l).Nodup ∧ ∀ b ∈ s.use l, b < c.maxNumBlocks
  place : ∀ b, b < c.maxNumBlocks → (∃! l, b ∈ s.use l) ∨
    ((∀ l, b ∉ s.use l) ∧ (s.blocks b).flags.deleted = true ∧ (s.blocks b).dirtyOrWritten = true)
  hashed : ∀ f n b, s.hash (f, n) = some (some b) ↔ b ∈ s.use .lru ∧ (s.blocks b).cacheInfo = f ∧ (s.blocks b).blockNum = n
  notNil : ∀ key, s.hash key ≠ some none
  avail : ∃ P : Finset Nat, (∀ b, b ∈ P ↔ b < c.maxNumBlocks ∧ b ∉ s.use .unmapped ∧ (b ∈ s.use .totFree ∨ b ∈ s.use .partFree ∨
    ((s.blocks b).refCount = 0 ∧ (s.blocks b).dirtyOrWritten = false))) ∧ s.numAvailBlocks = P.card
  free : ∃ P : Finset Nat, (∀ b, b ∈ P ↔ b ∈ s.use .totFree ∨ b ∈ s.use .partFree) ∧ s.numFreeBlocks = P.card
  cache : ∃ P : Finset Nat, (∀ b, b ∈ P ↔ b < c.maxNumBlocks ∧ b ∉ s.use .unmapped) ∧ s.numCacheBlocks = P.card
  inFile : ∀ f, ∃ P : Finset Nat, (∀ b, b ∈ P ↔ b < c.maxNumBlocks ∧ s.ThereFor f b) ∧ (s.files f).blocksInCache = P.card
  dirty : ∀ f, ∃ P : Finset Nat, (∀ b, b ∈ P ↔ b < c.maxNumBlocks ∧ s.ThereFor f b ∧ (s.blocks b).dirtyOrWritten = true) ∧
    (s.files f).numDirtyBlocks = P.card

def CacheSystem.Allowed (c : CacheConfig) (s : CacheSystem) : CacheStep → Prop
  | .fetchBlock _ f n flags _ vms => s.cache.FetchAllowed f n flags vms
  | .resume p _ _ vms => ∀ f n flags, s.calls p = some (.fetchBlock f n flags) → s.cache.FetchAllowed f n flags vms
  | .destroyBlock => s.cache.ShrinkAllowed c
  | _ => True

/-! ### What the invariant says of the lists -/

section Accounted
variable {s : BlockCache} {held : Nat → Int} {out : Nat → BlockOut} {b : Nat}

theorem place_ne_loose : (s.view none b).place ≠ .loose := by
  show placeOf false (s.blocks b).flags ≠ _
  unfold placeOf
  simp only [Bool.false_eq_true, if_false]
  split
  · decide
  · split
    · decide
    · split <;> decide

section
variable (h : Accounts c none pending s held out)
include h

theorem Accounts.mem_use (b : Nat) :
    (b ∈ s.use .unmapped ↔ b < c.maxNumBlocks ∧ (s.view none b).place = .unmapped) ∧
    (b ∈ s.use .totFree ∨ b ∈ s.use .partFree ↔ (s.view none b).place = .free) ∧
    (b ∈ s.use .lru ↔ (s.view none b).place = .cached) := by
  have hmem := fun l => h.listed.lists.mem l b
  simp only [hmem]
  unfold homeOf
  by_cases hb : b < c.maxNumBlocks
  · rw [if_pos hb]
    cases hp : (s.view none b).place with
    | unmapped => simp [hb]
    | cached => simp
    | deleted => simp
    | loose => exact absurd hp place_ne_loose
    | free =>
      dsimp only
      split <;> simp
  · have hp := h.listed.outside b (by omega)
    rw [if_neg hb, hp]
    simp [hb]

theorem Accounts.not_mem_use (b : Nat) :
    (b < c.maxNumBlocks ∧ ∀ l, b ∉ s.use l) ↔ (s.view none b).place = .deleted := by
  obtain ⟨hu, hf, hl⟩ := h.mem_use b
  constructor
  · rintro ⟨hb, hnone⟩
    cases hp : (s.view none b).place with
    | deleted => rfl
    | unmapped => exact absurd (hu.2 ⟨hb, hp⟩) (hnone _)
    | cached => exact absurd (hl.2 hp) (hnone _)
    | loose => exact absurd hp place_ne_loose
    | free =>
      obtain hm | hm := hf.2 hp
      · exact absurd hm (hnone _)
      · exact absurd hm (hnone _)
  · intro hp
    refine ⟨h.listed.lt (by rw [hp]; decide), fun l hm => ?_⟩
    rw [h.listed.lists.mem] at hm
    unfold homeOf at hm
    rw [hp] at hm
    split at hm <;> cases hm

theorem Accounts.thereFor (f b : Nat) : (b < c.maxNumBlocks ∧ s.ThereFor f b) ↔ (s.view none b).InFile f := by
  unfold BlockCache.ThereFor View.InFile
  rw [(h.mem_use b).2.2, ← h.not_mem_use b]
  constructor
  · rintro ⟨hb, hl | hn, hf⟩
    · exact ⟨.inl hl, hf⟩
    · exact ⟨.inr ⟨hb, hn⟩, hf⟩
  · rintro ⟨hl | ⟨hb, hn⟩, hf⟩
    · exact ⟨h.listed.lt (by rw [hl]; decide), .inl hl, hf⟩
    · exact ⟨hb, .inr hn, hf⟩

theorem Accounts.available (b : Nat) :
    (s.view none b).availOf = 1 ∧ (b < c.maxNumBlocks ∧ b ∉ s.use .unmapped ∧ (b ∈ s.use .totFree ∨ b ∈ s.use .partFree ∨
      ((s.blocks b).refCount = 0 ∧ (s.blocks b).dirtyOrWritten = false))) ∨
    (s.view none b).availOf = 0 ∧ ¬ (b < c.maxNumBlocks ∧ b ∉ s.use .unmapped ∧ (b ∈ s.use .totFree ∨ b ∈ s.use .partFree ∨
      ((s.blocks b).refCount = 0 ∧ (s.blocks b).dirtyOrWritten = false))) := by
  obtain ⟨hu, hf, -⟩ := h.mem_use b
  have hdw : (s.blocks b).dirtyOrWritten = false ↔ (s.view none b).dirty = false ∧ (s.view none b).beingWritten = false := by
    unfold FscacheBlock.dirtyOrWritten
    rw [Bool.or_eq_false_iff]
    exact Iff.rfl
  have hmapped : (s.view none b).place ≠ .unmapped → b < c.maxNumBlocks ∧ b ∉ s.use .unmapped := by
    intro hp
    exact ⟨h.listed.lt hp, fun hm => hp (hu.1 hm).2⟩
  rw [← or_assoc, hf, hdw]
  cases hp : (s.view none b).place with
  | loose => exact absurd hp place_ne_loose
  | unmapped =>
    refine .inr ⟨?_, ?_⟩
    · unfold View.availOf
      rw [hp]
    · rintro ⟨hb, hm, -⟩
      exact hm (hu.2 ⟨hb, hp⟩)
  | free =>
    obtain ⟨hb, hm⟩ := hmapped (by rw [hp]; decide)
    refine .inl ⟨?_, hb, hm, .inl rfl⟩
    unfold View.availOf
    rw [hp]
  | cached =>
    obtain ⟨hb, hm⟩ := hmapped (by rw [hp]; decide)
    rw [availOf_there (.inl hp)]
    split
    next hc => exact .inl ⟨rfl, hb, hm, .inr hc⟩
    next hc =>
      refine .inr ⟨rfl, ?_⟩
      rintro ⟨-, -, hfree | hok⟩
      · cases hfree
      · exact hc hok
  | deleted =>
    obtain ⟨hb, hm⟩ := hmapped (by rw [hp]; decide)
    rw [availOf_there (.inr hp)]
    split
    next hc => exact .inl ⟨rfl, hb, hm, .inr hc⟩
    next hc =>
      refine .inr ⟨rfl, ?_⟩
      rintro ⟨-, -, hfree | hok⟩
      · cases hfree
      · exact hc hok

end

theorem Accounts.accounted (h : Accounts c none ∅ s held out) : s.Accounted c := by
  classical
  refine ⟨fun l => ⟨h.listed.lists.nodup l, fun b hb => ?_⟩, fun b hb => ?_, fun f n b => ?_, fun key hk => ?_, ?_, ?_, ?_, fun f => ?_, fun f => ?_⟩
  · rw [h.listed.lists.mem] at hb
    unfold homeOf at hb
    split at hb
    next hlt => exact hlt
    next => cases hb
  · cases hhome : homeOf c (s.view none) b with
    | some l =>
      refine .inl ⟨l, (h.listed.lists.mem l b).2 hhome, fun l' hl' => ?_⟩
      exact Option.some.inj (((h.listed.lists.mem l' b).1 hl').symm.trans hhome)
    | none =>
      have hnone : ∀ l, b ∉ s.use l := by
        intro l hm
        rw [h.listed.lists.mem, hhome] at hm
        cases hm
      have hp := (h.not_mem_use b).1 ⟨hb, hnone⟩
      have hok := h.blocks b
      unfold BlockOk at hok
      rw [hp] at hok
      refine .inr ⟨hnone, (placeOf_deleted.1 hp).2.2, ?_⟩
      unfold FscacheBlock.dirtyOrWritten
      rw [Bool.or_eq_true]
      exact hok.2.2
  · rw [h.hashed.block, (h.mem_use b).2.2]
    constructor
    · rintro ⟨hp, hk⟩
      exact ⟨hp, (congrArg Prod.fst hk).symm, (congrArg Prod.snd hk).symm⟩
    · rintro ⟨hp, rfl, rfl⟩
      exact ⟨hp, rfl⟩
  · exact (h.hashed.nil key).1 hk
  · refine h.counted.avail.card fun b => ?_
    obtain ⟨ha, hin⟩ | ⟨ha, hout⟩ := h.available b
    · rw [ha, if_pos hin]
    · rw [ha, if_neg hout]
  · refine h.counted.free.card fun b => ?_
    simp only [(h.mem_use b).2.1]
    rfl
  · refine h.counted.cache.card fun b => ?_
    have hiff : (b < c.maxNumBlocks ∧ b ∉ s.use .unmapped) ↔ ¬ (s.view none b).place = .unmapped := by
      rw [(h.mem_use b).1]
      constructor
      · rintro ⟨hb, hm⟩ hp
        exact hm ⟨hb, hp⟩
      · intro hp
        exact ⟨h.listed.lt hp, fun hm => hp hm.2⟩
    unfold View.cacheOf
    split
    · simp_all
    · simp_all
  · refine (h.counted.inFile f).card fun b => ?_
    simp only [h.thereFor f b]
    rfl
  · refine (h.counted.dirty f).card fun b => ?_
    have hiff : (b < c.maxNumBlocks ∧ s.ThereFor f b ∧ (s.blocks b).dirtyOrWritten = true) ↔
        (s.view none b).InFile f ∧ ((s.view none b).dirty = true ∨ (s.view none b).beingWritten = true) := by
      rw [← and_assoc, h.thereFor f b]
      unfold FscacheBlock.dirtyOrWritten
      rw [Bool.or_eq_true]
      rfl
    simp only [hiff]
    rfl

end Accounted
/-! ### Runs -/

theorem accounts_init (raw : Nat → FscacheBlock) : Accounts c none ∅ (BlockCache.init c raw) (fun _ => 0) fun _ => .kept := by
  have hp : ∀ b, ((BlockCache.init c raw).view none b).place = .unmapped := fun _ => rfl
  have hnot : ∀ b, ¬ ((BlockCache.init c raw).view none b).There := by
    intro b hx
    obtain hx | hx := hx <;> cases hx
  refine ⟨rfl, ⟨fun b _ => hp b, ⟨fun l => ?_, fun l b => ?_⟩, fun _ b _ => by rw [hp, hp]⟩, fun b => ?_,
    ⟨fun key b => ?_, fun key => ?_⟩, ⟨fun _ => nodup_nil, fun f b => ?_⟩, ?_⟩
  · cases l with
    | unmapped => exact nodup_range
    | totFree => exact nodup_nil
    | partFree => exact nodup_nil
    | lru => exact nodup_nil
  · unfold homeOf
    rw [hp]
    cases l with
    | unmapped =>
      show b ∈ List.range c.maxNumBlocks ↔ _
      simp
    | totFree => simp [BlockCache.init]
    | partFree => simp [BlockCache.init]
    | lru => simp [BlockCache.init]
  · exact ⟨rfl, rfl, rfl, rfl, rfl⟩
  · constructor
    · intro hk
      cases hk
    · rintro ⟨hc, -⟩
      cases hc
  · constructor
    · intro hk
      cases hk
    · intro hk
      cases hk
  · constructor
    · intro hm
      cases hm
    · intro hd
      exact absurd (dirtyHome_some hd).1 (hnot b)
  · refine ⟨sums_zero, sums_zero, sums_zero, fun f => ?_, fun f => ?_⟩
    · exact sums_zero.congr fun b => inFileOf_elsewhere (hnot b) f
    · exact sums_zero.congr fun b => dirtyOf_elsewhere (hnot b) f

/-- The invariant of a run -/
def CacheSystem.Inv (c : CacheConfig) (pending : Set BlockHashKey) (s : CacheSystem) : Prop :=
  s.cache.panicked = some .blockSize ∨ Kept c pending s.held s.out s.cache

theorem CacheSystem.inv_finish {s : CacheSystem} {p : Nat} {r : BlockCache × CacheEnd}
    (h : Kept c pending (received s.held r.2) s.out r.1) : (s.finish p r).Inv c pending := by
  obtain ⟨t, e⟩ := r
  cases e with
  | waits call => exact .inr h
  | returns o =>
    cases o with
    | none => exact .inr h
    | some b => exact .inr h

/-- What a step keeps; only where it fetches a block may an entry be left that has none. -/
theorem CacheSystem.inv_step {s t : CacheSystem} {a : CacheStep} (hi : s.Inv c pending) (hs : s.step c a = some t)
    (hshrink : a = .destroyBlock → s.cache.ShrinkAllowed c) : ∃ pending', t.Inv c pending' ∧ (s.Allowed c a → pending' ⊆ pending) := by
  unfold CacheSystem.step at hs
  split at hs
  next => cases hs
  next hcalm =>
    have h : Accounts c none pending s.cache s.held s.out := by
      obtain hp | ⟨hp, -⟩ | h := hi
      · exact absurd (by rw [hp]; decide) hcalm
      · exact absurd (by rw [hp]; decide) hcalm
      · exact h
    have hsame : t.Inv c pending → ∃ pending', t.Inv c pending' ∧ (s.Allowed c a → pending' ⊆ pending) :=
      fun ht => ⟨pending, ht, fun _ => subset_rfl⟩
    cases a with
    | fetchBlock p f n flags now vms =>
      dsimp only at hs
      split at hs
      next =>
        obtain ⟨⟨u, e⟩, hu, rfl⟩ := Option.map_eq_some_iff.1 hs
        obtain ⟨pending', hacc, hsub⟩ := h.fetchLoop hu
        exact ⟨pending', inv_finish (.inr hacc), hsub⟩
      next => cases hs
    | fileInvalidate p f firstBlock lastBlock lastByte =>
      refine hsame ?_
      dsimp only at hs
      split at hs
      next =>
        rw [← Option.some.inj hs]
        obtain ⟨hacc, hheld⟩ := @Accounts.cacheFileInvalidate c s.cache pending s.held s.out f firstBlock (lastBlockOf lastBlock lastByte) h
        exact inv_finish (by rw [hheld]; exact hacc)
      next => cases hs
    | fileWriteBack p f firstBlock lastBlock lastByte flags =>
      refine hsame ?_
      dsimp only at hs
      split at hs
      next =>
        rw [← Option.some.inj hs]
        obtain ⟨hacc, hheld⟩ := @Accounts.fileWriteBack c s.cache pending s.held s.out f firstBlock (lastBlockOf lastBlock lastByte) flags h
        exact inv_finish (by rw [hheld]; exact hacc)
      next => cases hs
    | unlockBlock p b timeDirtied diskBlock blockSize flags now =>
      refine hsame ?_
      dsimp only at hs
      split at hs
      next hb =>
        rw [← Option.some.inj hs]
        obtain ⟨hacc, hheld⟩ := @Accounts.unlockBlock c s.cache pending s.held s.out b timeDirtied diskBlock blockSize now flags h hb.2
        exact inv_finish (s := { s with held := _ }) (by rw [hheld]; exact hacc)
      next => cases hs
    | resume p shuttingDown now vms =>
      obtain ⟨call, hcall, hmap⟩ := Option.bind_eq_some_iff.1 hs
      obtain ⟨⟨u, e⟩, hu, rfl⟩ := Option.map_eq_some_iff.1 hmap
      cases call with
      | fetchBlock f n flags =>
        obtain ⟨pending', hacc, hsub⟩ := h.fetchLoop hu
        exact ⟨pending', inv_finish (.inr hacc), fun ha => hsub (ha f n flags hcall)⟩
      | invalidate f i lastBlock =>
        refine hsame ?_
        rw [← Option.some.inj hu]
        obtain ⟨hacc, hheld⟩ := @Accounts.invalidateFrom c s.cache pending s.held s.out f (if shuttingDown then i + 1 else i) lastBlock h
        exact inv_finish (by rw [hheld]; exact hacc)
      | writeBack f i lastBlock flags fsyncFile =>
        refine hsame ?_
        rw [← Option.some.inj hu]
        cases shuttingDown with
        | true => exact inv_finish (.inr h)
        | false =>
          obtain ⟨hacc, hheld⟩ := @Accounts.writeBackFrom c s.cache pending s.held s.out f i lastBlock flags fsyncFile h
          exact inv_finish (by rw [if_neg (by decide), hheld]; exact hacc)
    | ioDone b =>
      refine hsame ?_
      dsimp only at hs
      split at hs
      next =>
        cases hs
        exact .inr (.inr h.ioDone)
      next => cases hs
    | getDirtyBlock f blockMatch =>
      refine hsame ?_
      obtain ⟨u, o, heq, hu⟩ := @Accounts.getDirtyBlock c s.cache pending s.held s.out f blockMatch h
      dsimp only at hs
      rw [heq] at hs
      cases o with
      | none =>
        cases hs
        exact hu.imp_right .inr
      | some b =>
        cases hs
        exact hu.imp_right .inr
    | returnDirtyBlock b status now =>
      refine hsame ?_
      dsimp only at hs
      split at hs
      next hb =>
        cases hs
        exact .inr (.inr (h.returnDirtyBlock hb))
      next => cases hs
    | finishRealloc b diskBlock =>
      refine hsame ?_
      dsimp only at hs
      split at hs
      next hb =>
        cases hs
        exact .inr (.inr (h.finishRealloc hb))
      next => cases hs
    | getDirtyFile f =>
      refine hsame ?_
      obtain ⟨u, hu, rfl⟩ := Option.map_eq_some_iff.1 hs
      exact .inr (.inr (h.getDirtyFile hu))
    | returnDirtyFile f =>
      refine hsame ?_
      dsimp only at hs
      split at hs
      next =>
        cases hs
        exact .inr (.inr h.returnDirtyFile)
      next => cases hs
    | createBlock mapped =>
      refine hsame ?_
      obtain ⟨⟨u, b⟩, hu, rfl⟩ := Option.map_eq_some_iff.1 hs
      exact .inr (.inr (h.createBlock hu))
    | destroyBlock =>
      refine hsame ?_
      cases hs
      exact .inr (.inr (h.destroyBlock (hshrink rfl)))
    | setMaxCacheBlocks n =>
      refine hsame ?_
      cases hs
      exact .inr (.inr (h.congr h.calm rfl rfl rfl ⟨rfl, rfl, rfl⟩ fun _ => ⟨rfl, rfl, rfl⟩))
    | setMinNumAvailBlocks n =>
      refine hsame ?_
      cases hs
      exact .inr (.inr (h.congr h.calm rfl rfl rfl ⟨rfl, rfl, rfl⟩ fun _ => ⟨rfl, rfl, rfl⟩))

def oneBlock : CacheConfig := ⟨1, false, fun f => f, fun h => nomatch h⟩

def blankBlock : FscacheBlock := ⟨0, 0, 0, 0, 0, 0, 0, 0, {}⟩

def noPage : VmAnswer := ⟨0, false, false⟩

/-- A cache of 34 blocks, two to a page of 8K -/
def pairedBlocks : CacheConfig := ⟨34, true, fun f => f, fun _ => rfl⟩

/-- All pages are mapped, all blocks but one fetched, and the other of its page given up; a page is given back then. -/
def shrinkSteps : List CacheStep :=
  List.replicate 17 (.createBlock true) ++ ((List.range 33).map fun n => .fetchBlock 0 3 n {} 5 [noPage]) ++
    [.unlockBlock 0 32 0 (-1) (-1) {} 6, .destroyBlock]

end SpriteKernel.Fscache
