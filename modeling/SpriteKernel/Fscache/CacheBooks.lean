import SpriteKernel.Fscache.CacheSystem
import SpriteKernel.Lib.Shelves
import SpriteKernel.Lib.Tally

/- The books of the cache. All they depend on of a block is its view: its place, who has it, and for what block of
   what file. A routine that moves a block from one list to another leaves it loose in between. -/
namespace SpriteKernel.Fscache

open Function
open Shelves Tally

inductive Place where
  | unmapped
  | free
  | loose
  | cached
  | deleted
  deriving DecidableEq

structure View where
  place : Place
  refCount : Int
  dirty : Bool
  beingWritten : Bool
  cacheInfo : Nat
  blockNum : Int
  fileNum : Int

def placeOf (isLoose : Bool) (flags : BlockFlags) : Place :=
  if isLoose then .loose
  else if flags.notMapped then .unmapped
  else if flags.free then .free
  else if flags.deleted then .deleted
  else .cached

def viewOf (isLoose : Bool) (block : FscacheBlock) : View where
  place := placeOf isLoose block.flags
  refCount := block.refCount
  dirty := block.flags.dirty
  beingWritten := block.flags.beingWritten
  cacheInfo := block.cacheInfo
  blockNum := block.blockNum
  fileNum := block.fileNum

def BlockCache.view (s : BlockCache) (loose : Option Nat) (b : Nat) : View := viewOf (decide (loose = some b)) (s.blocks b)

section Books
variable {c : CacheConfig} {v : Nat → View} {a b : Nat} {x : View}

/-! ### Lists -/

/-- The list that a block is to be on: partly-free, if it is free and another block of its page is not. -/
def homeOf (c : CacheConfig) (v : Nat → View) (b : Nat) : Option UseList :=
  if b < c.maxNumBlocks then
    match (v b).place with
    | .unmapped => some .unmapped
    | .free => some (if c.pageIs8K = true ∧ (v (otherBlock b)).place ≠ .free then .partFree else .totFree)
    | .cached => some .lru
    | _ => none
  else none

structure Listed (c : CacheConfig) (v : Nat → View) (use : UseList → List Nat) : Prop where
  outside : ∀ b, c.maxNumBlocks ≤ b → (v b).place = .unmapped
  lists : Shelved use (homeOf c v)
  pages : c.pageIs8K = true → ∀ b, b < c.maxNumBlocks → ((v b).place = .unmapped ↔ (v (otherBlock b)).place = .unmapped)

theorem otherBlock_ne : otherBlock b ≠ b := by
  unfold otherBlock
  split <;> omega

theorem otherBlock_otherBlock : otherBlock (otherBlock b) = b := by
  unfold otherBlock
  split <;> split <;> omega

theorem otherBlock_lt (h8 : c.pageIs8K = true) (hb : b < c.maxNumBlocks) : otherBlock b < c.maxNumBlocks := by
  have heven := c.paired h8
  unfold otherBlock
  split <;> omega

theorem otherBlock_eq_iff : otherBlock a = b ↔ a = otherBlock b := by
  constructor
  · intro h
    rw [← h, otherBlock_otherBlock]
  · intro h
    rw [h, otherBlock_otherBlock]

variable {use use' : UseList → List Nat}

theorem Listed.lt (h : Listed c v use) (hb : (v b).place ≠ .unmapped) : b < c.maxNumBlocks := by
  by_contra hge
  exact hb (h.outside b (by omega))

theorem homeOf_update_of_ne (hab : a ≠ b)
    (h : a = otherBlock b → c.pageIs8K = true → (v a).place = .free → (x.place = .free ↔ (v b).place = .free)) :
    homeOf c (update v b x) a = homeOf c v a := by
  unfold homeOf
  rw [update_of_ne hab]
  split
  next =>
    cases hp : (v a).place with
    | free =>
      by_cases ho : otherBlock a = b
      · rw [ho, update_self]
        by_cases h8 : c.pageIs8K = true
        · have hiff := h (otherBlock_eq_iff.1 ho) h8 hp
          simp only [h8, true_and, ne_eq, hiff]
        · simp [h8]
      · rw [update_of_ne ho]
    | unmapped => rfl
    | loose => rfl
    | cached => rfl
    | deleted => rfl
  next => rfl

theorem homeOf_update_self (hb : b < c.maxNumBlocks) : homeOf c (update v b x) b =
    match x.place with
    | .unmapped => some .unmapped
    | .free => some (if c.pageIs8K = true ∧ (v (otherBlock b)).place ≠ .free then .partFree else .totFree)
    | .cached => some .lru
    | _ => none := by
  unfold homeOf
  rw [if_pos hb, update_self, update_of_ne otherBlock_ne]

theorem Listed.change (h : Listed c v use) (hb : b < c.maxNumBlocks)
    (hmap : c.pageIs8K = true → (x.place = .unmapped ↔ (v b).place = .unmapped))
    (hl : Shelved use' (homeOf c (update v b x))) : Listed c (update v b x) use' := by
  refine ⟨fun a ha => ?_, hl, fun h8 a ha => ?_⟩
  · rw [update_of_ne (by omega)]
    exact h.outside a ha
  · have hiff : ∀ a, (update v b x a).place = .unmapped ↔ (v a).place = .unmapped := by
      intro a
      by_cases ha : a = b
      · subst ha
        rw [update_self]
        exact hmap h8
      · rw [update_of_ne ha]
    rw [hiff, hiff]
    exact h.pages h8 a ha

theorem Listed.keep (h : Listed c v use) (hx : x.place = (v b).place) : Listed c (update v b x) use := by
  have hplace : ∀ a, (update v b x a).place = (v a).place := by
    intro a
    by_cases ha : a = b
    · subst ha
      rw [update_self]
      exact hx
    · rw [update_of_ne ha]
  have hhome : homeOf c (update v b x) = homeOf c v := by
    funext a
    unfold homeOf
    rw [hplace, hplace]
  refine ⟨fun a ha => (hplace a).trans (h.outside a ha), ?_, fun h8 a ha => ?_⟩
  · rw [hhome]
    exact h.lists
  · rw [hplace, hplace]
    exact h.pages h8 a ha

theorem Listed.relist {l : Option UseList} (h : Listed c v use) (hb : b < c.maxNumBlocks)
    (hmap : c.pageIs8K = true → (x.place = .unmapped ↔ (v b).place = .unmapped))
    (hl : Shelved use' (update (homeOf c v) b l)) (hself : homeOf c (update v b x) b = l)
    (hpage : c.pageIs8K = true → (v (otherBlock b)).place = .free → (x.place = .free ↔ (v b).place = .free)) :
    Listed c (update v b x) use' := by
  refine h.change hb hmap (hl.congr fun a => ?_)
  by_cases hab : a = b
  · rw [hab, update_self, hself]
  · rw [update_of_ne hab]
    exact homeOf_update_of_ne hab fun heq => heq ▸ hpage

theorem homeOf_loose (hb : b < c.maxNumBlocks) (hv : (v b).place = .loose) : homeOf c v b = none := by
  unfold homeOf
  rw [if_pos hb, hv]

theorem homeOf_some {l : UseList} (hb : homeOf c v b = some l) : b < c.maxNumBlocks ∧
    ((v b).place = .unmapped ∧ l = .unmapped ∨
      (v b).place = .free ∧ l = (if c.pageIs8K = true ∧ (v (otherBlock b)).place ≠ .free then .partFree else .totFree) ∨
      (v b).place = .cached ∧ l = .lru) := by
  unfold homeOf at hb
  split at hb
  next hlt =>
    refine ⟨hlt, ?_⟩
    cases hp : (v b).place <;> rw [hp] at hb <;> cases hb <;> simp
  next => cases hb

theorem Listed.remove (h : Listed c v use) (hv : (v b).place = .cached)
    (hx : x.place = .loose ∨ x.place = .deleted) : Listed c (update v b x) (takeOff use b) := by
  have hb : b < c.maxNumBlocks := h.lt (by rw [hv]; decide)
  refine h.relist hb (fun _ => ?_) (h.lists.takeOff b) ?_ fun _ _ => ?_
  · rw [hv]
    obtain hx | hx := hx <;> rw [hx] <;> decide
  · rw [homeOf_update_self hb]
    obtain hx | hx := hx <;> rw [hx]
  · rw [hv]
    obtain hx | hx := hx <;> rw [hx] <;> decide

theorem Listed.enter (h : Listed c v use) (hv : (v b).place = .loose) (hx : x.place = .cached) :
    Listed c (update v b x) (update use .lru (use .lru ++ [b])) := by
  have hb : b < c.maxNumBlocks := h.lt (by rw [hv]; decide)
  exact h.relist hb (fun _ => by rw [hv, hx]; decide) (h.lists.putRear (homeOf_loose hb hv) .lru)
    (by rw [homeOf_update_self hb, hx]) fun _ _ => by rw [hv, hx]; decide

/-- What `PutOnFreeList` does to the lists. -/
def freeLists (c : CacheConfig) (v : Nat → View) (use : UseList → List Nat) (b : Nat) : UseList → List Nat :=
  if c.pageIs8K then
    if (v (otherBlock b)).place = .free then moveFront (update use .totFree (b :: use .totFree)) .totFree (otherBlock b)
    else update use .partFree (b :: use .partFree)
  else update use .totFree (b :: use .totFree)

section
variable (h : Listed c v use)
include h

theorem Listed.putFree (hv : (v b).place = .loose) (hx : x.place = .free) :
    Listed c (update v b x) (freeLists c v use b) := by
  have hb : b < c.maxNumBlocks := h.lt (by rw [hv]; decide)
  have hnone := homeOf_loose hb hv
  have hmap : c.pageIs8K = true → (x.place = .unmapped ↔ (v b).place = .unmapped) := fun _ => by rw [hv, hx]; decide
  unfold freeLists
  by_cases h8 : c.pageIs8K = true
  · rw [if_pos h8]
    by_cases ho : (v (otherBlock b)).place = .free
    · rw [if_pos ho]
      refine h.change hb hmap (((h.lists.putFront hnone .totFree).moveFront .totFree (otherBlock b)).congr fun a => ?_)
      by_cases hao : a = otherBlock b
      · subst hao
        unfold homeOf
        rw [if_pos (otherBlock_lt h8 hb), update_of_ne otherBlock_ne, ho, otherBlock_otherBlock, update_self, hx]
        simp
      · rw [update_of_ne hao]
        by_cases hab : a = b
        · subst hab
          rw [homeOf_update_self hb, update_self, hx, ho]
          simp
        · rw [update_of_ne hab]
          exact homeOf_update_of_ne hab fun heq => absurd heq hao
    · rw [if_neg ho]
      refine h.relist hb hmap (h.lists.putFront hnone .partFree) ?_ fun _ hfree => absurd hfree ho
      rw [homeOf_update_self hb, hx]
      simp [h8, ho]
  · rw [if_neg h8]
    refine h.relist hb hmap (h.lists.putFront hnone .totFree) ?_ fun hpage => absurd hpage h8
    rw [homeOf_update_self hb, hx]
    simp [h8]

theorem Listed.takePart (hb : b ∈ use .partFree) (hx : x.place = .loose) :
    (v b).place = .free ∧ Listed c (update v b x) (takeOff use b) := by
  obtain ⟨hlt, ⟨-, hl⟩ | ⟨hp, hl⟩ | ⟨-, hl⟩⟩ := homeOf_some ((h.lists.mem _ _).1 hb)
  · cases hl
  · split at hl
    next hother =>
      exact ⟨hp, h.relist hlt (fun _ => by rw [hp, hx]; decide) (h.lists.takeOff b) (by rw [homeOf_update_self hlt, hx])
        fun _ hfree => absurd hfree hother.2⟩
    next => cases hl
  · cases hl

theorem Listed.totFree (hb : b ∈ use .totFree) :
    b < c.maxNumBlocks ∧ (v b).place = .free ∧ (c.pageIs8K = true → (v (otherBlock b)).place = .free) := by
  obtain ⟨hlt, ⟨-, hl⟩ | ⟨hp, hl⟩ | ⟨-, hl⟩⟩ := homeOf_some ((h.lists.mem _ _).1 hb)
  · cases hl
  · split at hl
    next => cases hl
    next hother => exact ⟨hlt, hp, fun h8 => by_contra fun hne => hother ⟨h8, hne⟩⟩
  · cases hl

/-- A block of the totally-free list is taken; the other one of its page is partly free then. -/
theorem Listed.takeTot (hb : b ∈ use .totFree) (hx : x.place = .loose) :
    Listed c (update v b x)
      (if c.pageIs8K then moveRear (takeOff use b) .partFree (otherBlock b) else takeOff use b) := by
  obtain ⟨hlt, hp, hother⟩ := h.totFree hb
  have hmap : c.pageIs8K = true → (x.place = .unmapped ↔ (v b).place = .unmapped) := fun _ => by rw [hp, hx]; decide
  by_cases h8 : c.pageIs8K = true
  · rw [if_pos h8]
    have ho := hother h8
    refine h.change hlt hmap (((h.lists.takeOff b).moveRear .partFree (otherBlock b)).congr fun a => ?_)
    by_cases hao : a = otherBlock b
    · subst hao
      unfold homeOf
      rw [if_pos (otherBlock_lt h8 hlt), update_of_ne otherBlock_ne, ho, otherBlock_otherBlock, update_self, hx]
      simp [h8]
    · rw [update_of_ne hao]
      by_cases hab : a = b
      · subst hab
        rw [homeOf_update_self hlt, update_self, hx]
      · rw [update_of_ne hab]
        exact homeOf_update_of_ne hab fun heq => absurd heq hao
  · rw [if_neg h8]
    exact h.relist hlt hmap (h.lists.takeOff b) (by rw [homeOf_update_self hlt, hx]) fun hpage => absurd hpage h8

end

/-! ### Pages -/

section Pages
variable {y : View} {use use' : UseList → List Nat}

def updatePage (v : Nat → View) (b : Nat) (x y : View) : Nat → View := update (update v b x) (otherBlock b) y

theorem updatePage_self : updatePage v b x y b = x := by
  unfold updatePage
  rw [update_of_ne otherBlock_ne.symm, update_self]

theorem updatePage_other : updatePage v b x y (otherBlock b) = y := update_self _ _ _

theorem updatePage_of_ne (hb : a ≠ b) (ho : a ≠ otherBlock b) : updatePage v b x y a = v a := by
  unfold updatePage
  rw [update_of_ne ho, update_of_ne hb]

theorem homeOf_updatePage_of_ne (hb : a ≠ b) (ho : a ≠ otherBlock b) : homeOf c (updatePage v b x y) a = homeOf c v a := by
  have ho' : otherBlock a ≠ b := fun h => ho (otherBlock_eq_iff.1 h)
  have hb' : otherBlock a ≠ otherBlock b := by
    intro h
    rw [otherBlock_eq_iff, otherBlock_otherBlock] at h
    exact hb h
  unfold homeOf
  rw [updatePage_of_ne hb ho, updatePage_of_ne ho' hb']

theorem Listed.changePage (h : Listed c v use) (h8 : c.pageIs8K = true) (hb : b < c.maxNumBlocks)
    (hmap : x.place = .unmapped ↔ y.place = .unmapped) (hl : Shelved use' (homeOf c (updatePage v b x y))) :
    Listed c (updatePage v b x y) use' := by
  have ho := otherBlock_lt h8 hb
  refine ⟨fun a ha => ?_, hl, fun _ a ha => ?_⟩
  · rw [updatePage_of_ne (by omega) (by omega)]
    exact h.outside a ha
  · by_cases hab : a = b
    · subst hab
      rw [updatePage_self, updatePage_other]
      exact hmap
    · by_cases hao : a = otherBlock b
      · subst hao
        rw [otherBlock_otherBlock, updatePage_self, updatePage_other]
        exact hmap.symm
      · rw [updatePage_of_ne hab hao, updatePage_of_ne (fun h => hao (otherBlock_eq_iff.1 h))
          (fun h => hab (by rw [otherBlock_eq_iff, otherBlock_otherBlock] at h; exact h))]
        exact h.pages h8 a ha

theorem shelved_updatePage {home : Nat → Option UseList} (h : Shelved use' home)
    (hrest : ∀ a, a ≠ b → a ≠ otherBlock b → home a = homeOf c v a)
    (hself : home b = homeOf c (updatePage v b x y) b) (hother : home (otherBlock b) = homeOf c (updatePage v b x y) (otherBlock b)) :
    Shelved use' (homeOf c (updatePage v b x y)) := by
  refine h.congr fun a => ?_
  by_cases hab : a = b
  · subst hab
    exact hself.symm
  · by_cases hao : a = otherBlock b
    · subst hao
      exact hother.symm
    · rw [homeOf_updatePage_of_ne hab hao]
      exact (hrest a hab hao).symm

theorem homeOf_updatePage_self (hb : b < c.maxNumBlocks) : homeOf c (updatePage v b x y) b =
    match x.place with
    | .unmapped => some .unmapped
    | .free => some (if c.pageIs8K = true ∧ y.place ≠ .free then .partFree else .totFree)
    | .cached => some .lru
    | _ => none := by
  unfold homeOf
  rw [if_pos hb, updatePage_self, updatePage_other]

theorem homeOf_updatePage_other (hb : otherBlock b < c.maxNumBlocks) : homeOf c (updatePage v b x y) (otherBlock b) =
    match y.place with
    | .unmapped => some .unmapped
    | .free => some (if c.pageIs8K = true ∧ x.place ≠ .free then .partFree else .totFree)
    | .cached => some .lru
    | _ => none := by
  unfold homeOf
  rw [if_pos hb, updatePage_other, otherBlock_otherBlock, updatePage_self]

/-- What `CreateBlock` does to the lists. -/
def createLists (c : CacheConfig) (use : UseList → List Nat) (retBlock : Bool) (b : Nat) : UseList → List Nat :=
  let use := if retBlock then takeOff use b else moveRear use .totFree b
  if c.pageIs8K then moveRear use (if retBlock then .partFree else .totFree) (otherBlock b) else use

def pageViews (c : CacheConfig) (v : Nat → View) (b : Nat) (x y : View) : Nat → View :=
  if c.pageIs8K then updatePage v b x y else update v b x

theorem Listed.unmapped (h : Listed c v use) (hb : b ∈ use .unmapped) : b < c.maxNumBlocks ∧ (v b).place = .unmapped := by
  obtain ⟨hlt, ⟨hp, -⟩ | ⟨-, hl⟩ | ⟨-, hl⟩⟩ := homeOf_some ((h.lists.mem _ _).1 hb)
  · exact ⟨hlt, hp⟩
  · split at hl <;> cases hl
  · cases hl

theorem Listed.create (h : Listed c v use) {retBlock : Bool} (hb : b ∈ use .unmapped)
    (hx : x.place = if retBlock then .loose else .free) (hy : y.place = .free) :
    Listed c (pageViews c v b x y) (createLists c use retBlock b) := by
  obtain ⟨hlt, hp⟩ := h.unmapped hb
  unfold pageViews createLists
  by_cases h8 : c.pageIs8K = true
  · rw [if_pos h8]
    have ho := otherBlock_lt h8 hlt
    rw [if_pos h8]
    cases retBlock with
    | true =>
      rw [if_pos rfl] at hx
      refine h.changePage h8 hlt (by rw [hx, hy]; decide) ?_
      refine shelved_updatePage ((h.lists.takeOff b).moveRear .partFree (otherBlock b)) (fun a hab hao => ?_) ?_ ?_
      · rw [update_of_ne hao, update_of_ne hab]
      · rw [update_of_ne otherBlock_ne.symm, update_self, homeOf_updatePage_self hlt, hx]
      · rw [update_self, homeOf_updatePage_other ho, hy, hx]
        simp [h8]
    | false =>
      rw [if_neg (by decide)] at hx
      refine h.changePage h8 hlt (by rw [hx, hy]) ?_
      refine shelved_updatePage ((h.lists.moveRear .totFree b).moveRear .totFree (otherBlock b)) (fun a hab hao => ?_) ?_ ?_
      · rw [update_of_ne hao, update_of_ne hab]
      · rw [update_of_ne otherBlock_ne.symm, update_self, homeOf_updatePage_self hlt, hx, hy]
        simp
      · rw [update_self, homeOf_updatePage_other ho, hy, hx]
        simp
  · rw [if_neg h8, if_neg h8]
    have hself : homeOf c (update v b x) b = if retBlock then none else some .totFree := by
      rw [homeOf_update_self hlt, hx]
      cases retBlock with
      | true => rfl
      | false => simp [h8]
    refine h.relist hlt (fun hpage => absurd hpage h8) ?_ hself fun hpage => absurd hpage h8
    cases retBlock with
    | true => exact h.lists.takeOff b
    | false => exact h.lists.moveRear .totFree b

/-- What `DestroyBlock` does to the lists, where the page is on the totally-free list. -/
def destroyTotLists (c : CacheConfig) (use : UseList → List Nat) (b : Nat) : UseList → List Nat :=
  let use := moveRear use .unmapped b
  if c.pageIs8K then moveRear use .unmapped (otherBlock b) else use

/-- What it does, where a block of the page has been fetched. -/
def destroyLooseLists (c : CacheConfig) (use : UseList → List Nat) (b : Nat) : UseList → List Nat :=
  let use := if c.pageIs8K then moveRear use .unmapped (otherBlock b) else use
  update use .unmapped (use .unmapped ++ [b])

theorem Listed.destroyTot (h : Listed c v use) (hlt : b < c.maxNumBlocks) (hx : x.place = .unmapped) (hy : y.place = .unmapped) :
    Listed c (pageViews c v b x y) (destroyTotLists c use b) := by
  unfold pageViews destroyTotLists
  by_cases h8 : c.pageIs8K = true
  · rw [if_pos h8]
    have ho := otherBlock_lt h8 hlt
    rw [if_pos h8]
    refine h.changePage h8 hlt (by rw [hx, hy]) ?_
    refine shelved_updatePage ((h.lists.moveRear .unmapped b).moveRear .unmapped (otherBlock b)) (fun a hab hao => ?_) ?_ ?_
    · rw [update_of_ne hao, update_of_ne hab]
    · rw [update_of_ne otherBlock_ne.symm, update_self, homeOf_updatePage_self hlt, hx]
    · rw [update_self, homeOf_updatePage_other ho, hy]
  · rw [if_neg h8, if_neg h8]
    exact h.relist hlt (fun hpage => absurd hpage h8) (h.lists.moveRear .unmapped b) (by rw [homeOf_update_self hlt, hx])
      fun hpage => absurd hpage h8

theorem Listed.destroyLoose (h : Listed c v use) (hv : (v b).place = .loose) (hx : x.place = .unmapped) (hy : y.place = .unmapped) :
    Listed c (pageViews c v b x y) (destroyLooseLists c use b) := by
  have hlt : b < c.maxNumBlocks := h.lt (by rw [hv]; decide)
  have hnone := homeOf_loose hlt hv
  unfold pageViews destroyLooseLists
  by_cases h8 : c.pageIs8K = true
  · rw [if_pos h8]
    have ho := otherBlock_lt h8 hlt
    rw [if_pos h8]
    refine h.changePage h8 hlt (by rw [hx, hy]) ?_
    have hmoved := h.lists.moveRear .unmapped (otherBlock b)
    have hput := hmoved.putRear (a := b) (by rw [update_of_ne otherBlock_ne.symm]; exact hnone) .unmapped
    refine shelved_updatePage hput (fun a hab hao => ?_) ?_ ?_
    · rw [update_of_ne hab, update_of_ne hao]
    · rw [update_self, homeOf_updatePage_self hlt, hx]
    · rw [update_of_ne otherBlock_ne, update_self, homeOf_updatePage_other ho, hy]
  · rw [if_neg h8, if_neg h8]
    exact h.relist hlt (fun hpage => absurd hpage h8) (h.lists.putRear hnone .unmapped) (by rw [homeOf_update_self hlt, hx])
      fun hpage => absurd hpage h8

end Pages

/-! ### The hash table -/

/-- The entries are those of the LRU list's blocks, and those without a block. -/
structure Hashed (v : Nat → View) (pending : Set BlockHashKey) (hash : BlockHashKey → Option (Option Nat)) : Prop where
  block : ∀ key b, hash key = some (some b) ↔ (v b).place = .cached ∧ key = ((v b).cacheInfo, (v b).blockNum)
  nil : ∀ key, hash key = some none ↔ key ∈ pending

section Hash
variable {pending : Set BlockHashKey} {hash : BlockHashKey → Option (Option Nat)} {key : BlockHashKey}

section
variable (h : Hashed v pending hash)
include h

theorem Hashed.keep (hx : x.place = .cached ↔ (v b).place = .cached)
    (hkey : x.place = .cached → x.cacheInfo = (v b).cacheInfo ∧ x.blockNum = (v b).blockNum) :
    Hashed (update v b x) pending hash := by
  refine ⟨fun key a => ?_, h.nil⟩
  rw [h.block]
  by_cases ha : a = b
  · subst ha
    rw [update_self]
    constructor
    · rintro ⟨hc, hk⟩
      have hxc := hx.2 hc
      obtain ⟨h₁, h₂⟩ := hkey hxc
      exact ⟨hxc, by rw [h₁, h₂]; exact hk⟩
    · rintro ⟨hxc, hk⟩
      obtain ⟨h₁, h₂⟩ := hkey hxc
      exact ⟨hx.1 hxc, by rw [← h₁, ← h₂]; exact hk⟩
  · rw [update_of_ne ha]

theorem Hashed.self (hb : (v b).place = .cached) : hash ((v b).cacheInfo, (v b).blockNum) = some (some b) :=
  (h.block _ b).2 ⟨hb, rfl⟩

theorem Hashed.delete (hb : (v b).place = .cached) (hx : x.place ≠ .cached)
    (hkey : key = ((v b).cacheInfo, (v b).blockNum)) : Hashed (update v b x) pending (update hash key none) := by
  have hself : hash key = some (some b) := hkey ▸ h.self hb
  refine ⟨fun k a => ?_, fun k => ?_⟩
  · by_cases hk : k = key
    · subst hk
      rw [update_self]
      constructor
      · intro hcontra
        cases hcontra
      rintro ⟨ha, hkeya⟩
      by_cases hab : a = b
      · subst hab
        rw [update_self] at ha
        exact absurd ha hx
      · rw [update_of_ne hab] at ha hkeya
        have hother := (h.block k a).2 ⟨ha, hkeya⟩
        rw [hself] at hother
        exact absurd (Option.some.inj (Option.some.inj hother)).symm hab
    · rw [update_of_ne hk]
      by_cases hab : a = b
      · subst hab
        rw [update_self, h.block]
        constructor
        · rintro ⟨-, hka⟩
          exact absurd (hka.trans hkey.symm) hk
        · rintro ⟨ha, -⟩
          exact absurd ha hx
      · rw [update_of_ne hab]
        exact h.block k a
  · by_cases hk : k = key
    · subst hk
      rw [update_self, ← h.nil, hself]
      exact ⟨fun hcontra => (nomatch hcontra), fun hcontra => (nomatch hcontra)⟩
    · rw [update_of_ne hk]
      exact h.nil k

theorem Hashed.enter (hmem : key ∈ pending) (hv : (v b).place ≠ .cached) (hx : x.place = .cached)
    (hkey : key = (x.cacheInfo, x.blockNum)) :
    Hashed (update v b x) (pending \ {key}) (update hash key (some (some b))) := by
  have hself : hash key = some none := (h.nil key).2 hmem
  refine ⟨fun k a => ?_, fun k => ?_⟩
  · by_cases hk : k = key
    · subst hk
      rw [update_self]
      by_cases hab : a = b
      · subst hab
        rw [update_self]
        exact ⟨fun _ => ⟨hx, hkey⟩, fun _ => rfl⟩
      · rw [update_of_ne hab]
        refine ⟨fun heq => absurd (Option.some.inj (Option.some.inj heq)).symm hab, fun ha => ?_⟩
        rw [← h.block, hself] at ha
        cases ha
    · rw [update_of_ne hk]
      by_cases hab : a = b
      · subst hab
        rw [update_self, h.block]
        constructor
        · rintro ⟨ha, -⟩
          exact absurd ha hv
        · rintro ⟨-, ha⟩
          exact absurd (ha.trans hkey.symm) hk
      · rw [update_of_ne hab]
        exact h.block k a
  · by_cases hk : k = key
    · subst hk
      rw [update_self]
      exact ⟨fun hcontra => (nomatch hcontra), fun hcontra => absurd rfl hcontra.2⟩
    · rw [update_of_ne hk, h.nil]
      exact ⟨fun hin => ⟨hin, hk⟩, fun hin => hin.1⟩

theorem Hashed.look (hkey : hash key = none) : Hashed v (insert key pending) (update hash key (some none)) := by
  refine ⟨fun k a => ?_, fun k => ?_⟩
  · by_cases hk : k = key
    · subst hk
      rw [update_self, ← h.block, hkey]
      exact ⟨fun hcontra => (nomatch hcontra), fun hcontra => (nomatch hcontra)⟩
    · rw [update_of_ne hk]
      exact h.block k a
  · by_cases hk : k = key
    · subst hk
      rw [update_self]
      exact ⟨fun _ => Set.mem_insert k pending, fun _ => rfl⟩
    · rw [update_of_ne hk, h.nil]
      exact ⟨fun hin => Set.mem_insert_of_mem key hin, fun hin => hin.resolve_left hk⟩

end

end Hash

/-! ### Counts -/

def View.availOf (x : View) : Int :=
  match x.place with
  | .unmapped => 0
  | .free => 1
  | .loose => 1
  | _ => if x.refCount = 0 ∧ x.dirty = false ∧ x.beingWritten = false then 1 else 0

def View.freeOf (x : View) : Int := if x.place = .free then 1 else 0

def View.cacheOf (x : View) : Int := if x.place = .unmapped then 0 else 1

/-- A block is there for a file. -/
def View.InFile (x : View) (f : Nat) : Prop := (x.place = .cached ∨ x.place = .deleted) ∧ x.cacheInfo = f

instance (x : View) (f : Nat) : Decidable (x.InFile f) := inferInstanceAs (Decidable (_ ∧ _))

def View.inFileOf (f : Nat) (x : View) : Int := if x.InFile f then 1 else 0

def View.dirtyOf (f : Nat) (x : View) : Int := if x.InFile f ∧ (x.dirty = true ∨ x.beingWritten = true) then 1 else 0

structure Counted (v : Nat → View) (numAvailBlocks numFreeBlocks numCacheBlocks : Int) (files : Nat → FileInfo) : Prop where
  avail : Sums (fun b => (v b).availOf) numAvailBlocks
  free : Sums (fun b => (v b).freeOf) numFreeBlocks
  cache : Sums (fun b => (v b).cacheOf) numCacheBlocks
  inFile : ∀ f, Sums (fun b => (v b).inFileOf f) (files f).blocksInCache
  dirty : ∀ f, Sums (fun b => (v b).dirtyOf f) (files f).numDirtyBlocks

theorem sums_update {F : View → Int} {total total' : Int} (h : Sums (fun a => F (v a)) total) (b : Nat) (x : View)
    (ht : total' = total + (F x - F (v b))) : Sums (fun a => F (update v b x a)) total' := by
  have hc := h.change b (g := fun a => F (update v b x a)) (fun a ha => by rw [update_of_ne ha])
  rw [update_self] at hc
  exact ht ▸ hc

theorem Counted.change {m n k m' n' k' : Int} {files files' : Nat → FileInfo} (h : Counted v m n k files) (b : Nat) (x : View)
    (hm : m' = m + (x.availOf - (v b).availOf)) (hn : n' = n + (x.freeOf - (v b).freeOf)) (hk : k' = k + (x.cacheOf - (v b).cacheOf))
    (hf : ∀ f, (files' f).blocksInCache = (files f).blocksInCache + (x.inFileOf f - (v b).inFileOf f))
    (hd : ∀ f, (files' f).numDirtyBlocks = (files f).numDirtyBlocks + (x.dirtyOf f - (v b).dirtyOf f)) :
    Counted (update v b x) m' n' k' files' :=
  ⟨sums_update h.avail b x hm, sums_update h.free b x hn, sums_update h.cache b x hk,
    fun f => sums_update (h.inFile f) b x (hf f), fun f => sums_update (h.dirty f) b x (hd f)⟩

theorem availOf_nonneg : 0 ≤ x.availOf := by
  unfold View.availOf
  split <;> first | decide | (split <;> decide)

theorem Counted.avail_nonneg {m n k : Int} {files : Nat → FileInfo} (h : Counted v m n k files) : 0 ≤ m :=
  h.avail.induction (fun n => 0 ≤ n) (Int.le_refl 0) (fun _ _ => Int.add_nonneg) fun _ => availOf_nonneg

/-! ### Blocks -/

/-- What is known of a block that is there for a file. -/
structure Owned (c : CacheConfig) (x : View) (held : Int) (out : BlockOut) : Prop where
  nonneg : 0 ≤ held
  refs : x.refCount = held + if out = .kept then 0 else 1
  written : x.beingWritten = true ↔ out ≠ .kept
  realloced : out = .realloced → x.dirty = true
  fileNum : x.fileNum = c.fileNum x.cacheInfo

def BlockOk (c : CacheConfig) (x : View) (held : Int) (out : BlockOut) : Prop :=
  match x.place with
  | .cached => Owned c x held out
  | .deleted => Owned c x held out ∧ held = 0 ∧ (x.dirty = true ∨ x.beingWritten = true)
  | .loose => x.refCount = 0 ∧ held = 0 ∧ out = .kept
  | _ => x.refCount = 0 ∧ held = 0 ∧ out = .kept ∧ x.dirty = false ∧ x.beingWritten = false

/-- The dirty list that a block is to be on: none while it is written, unless its space is being reallocated. -/
def dirtyHome (v : Nat → View) (out : Nat → BlockOut) (b : Nat) : Option Nat :=
  if ((v b).place = .cached ∨ (v b).place = .deleted) ∧ (v b).dirty = true ∧ out b ≠ .written then some (v b).cacheInfo else none

end Books

/-- The cache while the monitor is held, with a block `loose`, and entries `pending` that have no block. -/
structure Accounts (c : CacheConfig) (loose : Option Nat) (pending : Set BlockHashKey) (s : BlockCache) (held : Nat → Int)
    (out : Nat → BlockOut) : Prop where
  calm : s.panicked = none
  listed : Listed c (s.view loose) s.use
  blocks : ∀ b, BlockOk c (s.view loose b) (held b) (out b)
  hashed : Hashed (s.view loose) pending s.hash
  dirty : Shelved (fun f => (s.files f).dirtyList) (dirtyHome (s.view loose) out)
  counted : Counted (s.view loose) s.numAvailBlocks s.numFreeBlocks s.numCacheBlocks s.files

end SpriteKernel.Fscache
