import SpriteKernel.Lib.Custody
import SpriteKernel.Vm.PageOut

/- Where a page frame is: on one of the page lists, with the process that writes it to swap, in
   the hands of a process that allocates it, or with the kernel; and what its flags and the
   counters of the module say about that. -/
namespace SpriteKernel.Vm
open Function (update update_of_ne update_self)

open List
open Custody

/-- Where a frame can be that the kernel does not hold. -/
inductive Place where
  | on (l : PageList)
  | cleaned
  | inHand
  deriving DecidableEq

namespace VmCore

/-- `flags == 0`. -/
def Plain (c : VmCore) : Prop :=
  c.freePage = false ∧ c.dirtyPage = false ∧ c.segPageoutWait = false ∧ c.beingCleaned = false ∧
    c.dontFreeUntilClean = false

/-- A frame that the kernel holds. -/
def KernelHeld (c : VmCore) : Prop := c.virtPage.segPtr = sysSegPtr ∧ c.Plain ∧ 0 < c.lockCount

/-- What the flags of a frame in a place are. -/
def Agrees (c : VmCore) : Place → Prop
  | .on .free => c.freePage = true ∧ c.dirtyPage = false ∧ c.segPageoutWait = false ∧
      c.beingCleaned = false ∧ c.dontFreeUntilClean = false ∧ c.lockCount = 0
  | .on .reserve => c.Plain ∧ 0 < c.lockCount
  | .on .alloc => c.Plain ∧ c.virtPage.segPtr ≠ sysSegPtr
  | .on .dirty => c.dirtyPage = true ∧ c.beingCleaned = false ∧ c.virtPage.segPtr ≠ sysSegPtr
  | .cleaned => c.dirtyPage = true ∧ c.beingCleaned = true ∧ c.virtPage.segPtr ≠ sysSegPtr
  | .inHand => c.dirtyPage = false ∧ c.beingCleaned = false ∧ c.dontFreeUntilClean = false ∧
      (c.freePage = true ∨ 0 < c.lockCount)

theorem plain_noFlags (c : VmCore) : c.noFlags.Plain := ⟨rfl, rfl, rfl, rfl, rfl⟩

end VmCore

namespace Pages

def kept (s : Pages) : Place → List Nat
  | .on l => s.lists l
  | .cleaned => s.cleaning
  | .inHand => s.inHand

/-- A frame of a user page: on the allocate list, or to be cleaned, or being cleaned. -/
def UserHeld (s : Pages) (f : Nat) : Prop := f ∈ s.lists .alloc ∨ f ∈ s.lists .dirty ∨ f ∈ s.cleaning

/-- The counters of `vmStat` and `numPageOutProcs`. Dirty pages are counted until they are
    clean. -/
structure Counted (s : Pages) : Prop where
  free : s.numFreePages = (s.lists .free).length
  reserve : s.numReservePages = (s.lists .reserve).length
  user : s.numUserPages = (s.lists .alloc).length
  dirty : s.numDirtyPages = (s.lists .dirty).length + s.cleaning.length
  procs : s.numPageOutProcs = s.starting + s.cleaning.length

structure Conserved (P : PageParams) (s : Pages) : Prop where
  apart : Apart s.kept
  range : ∀ p, ∀ f ∈ s.kept p, f < P.numPhysPages
  agrees : ∀ p, ∀ f ∈ s.kept p, (s.coreMap f).Agrees p
  kernel : ∀ f, (∀ p, f ∉ s.kept p) → f < P.numPhysPages → (s.coreMap f).KernelHeld
  counted : s.Counted
  hand : s.clockHand < P.numPhysPages

variable {P : PageParams} {s t u : Pages} {f : Nat} {d : Option Place} {c : VmCore}

/-- A frame has gone to a place, or out of all of them, and nothing else has happened to the core
    map. -/
structure Went (s t : Pages) (f : Nat) (dest : Option Place) : Prop where
  moved : Moved s.kept t.kept f dest
  core : ∀ g, g ≠ f → t.coreMap g = s.coreMap g
  hand : t.clockHand = s.clockHand

theorem Went.trans {d d' : Option Place} (h₁ : Went s t f d) (h₂ : Went t u f d') : Went s u f d' where
  moved := h₁.moved.trans h₂.moved
  core g hg := (h₂.core g hg).trans (h₁.core g hg)
  hand := h₂.hand.trans h₁.hand

theorem Went.setCore (h : Went s t f d) (hk : u.kept = t.kept)
    (hc : u.coreMap = update t.coreMap f c) (hh : u.clockHand = t.clockHand) : Went s u f d where
  moved := hk ▸ h.moved
  core g hg := by rw [hc, update_of_ne hg, h.core g hg]
  hand := hh.trans h.hand

/-- What a frame must be like where it has gone. -/
def Fits (c : VmCore) : Option Place → Prop
  | some p => c.Agrees p
  | none => c.KernelHeld

theorem Conserved.went (h : s.Conserved P) (hw : Went s t f d) (hf : f < P.numPhysPages)
    (hfit : Fits (t.coreMap f) d) (hc : t.Counted) : t.Conserved P where
  apart := hw.moved.apart h.apart
  range p g hg := by
    by_cases hgf : g = f
    · exact hgf ▸ hf
    · exact h.range p g ((hw.moved.other p g hgf).1 hg)
  agrees p g hg := by
    by_cases hgf : g = f
    · subst hgf
      rw [(hw.moved.self p).1 hg] at hfit
      exact hfit
    · rw [hw.core g hgf]
      exact h.agrees p g ((hw.moved.other p g hgf).1 hg)
  kernel g hn hg := by
    by_cases hgf : g = f
    · subst hgf
      cases d with
      | none => exact hfit
      | some p => exact absurd ((hw.moved.self p).2 rfl) (hn p)
    · rw [hw.core g hgf]
      exact h.kernel g (fun p hp => hn p ((hw.moved.other p g hgf).2 hp)) hg
  counted := hc
  hand := hw.hand ▸ h.hand

theorem Conserved.setCore (h : s.Conserved P) (hk : t.kept = s.kept)
    (hcore : t.coreMap = update s.coreMap f c) (hag : ∀ p, f ∈ s.kept p → c.Agrees p)
    (hker : (∀ p, f ∉ s.kept p) → f < P.numPhysPages → c.KernelHeld) (hc : t.Counted) (hh : t.clockHand = s.clockHand) :
    t.Conserved P where
  apart := hk ▸ h.apart
  range p g hg := h.range p g (by rwa [hk] at hg)
  agrees p g hg := by
    rw [hk] at hg
    rw [hcore]
    by_cases hgf : g = f
    · subst hgf
      rw [update_self]
      exact hag p hg
    · rw [update_of_ne hgf]
      exact h.agrees p g hg
  kernel g hn hg := by
    rw [hk] at hn
    rw [hcore]
    by_cases hgf : g = f
    · subst hgf
      rw [update_self]
      exact hker hn hg
    · rw [update_of_ne hgf]
      exact h.kernel g hn hg
  counted := hc
  hand := hh ▸ h.hand

theorem Conserved.congr (h : s.Conserved P) (hk : t.kept = s.kept) (hcore : t.coreMap = s.coreMap)
    (hc : t.Counted) (hh : t.clockHand = s.clockHand) : t.Conserved P where
  apart := hk ▸ h.apart
  range p g hg := h.range p g (by rwa [hk] at hg)
  agrees p g hg := by rw [hcore]; exact h.agrees p g (by rwa [hk] at hg)
  kernel g hn hg := by rw [hcore]; exact h.kernel g (by rwa [hk] at hn) hg
  counted := hc
  hand := hh ▸ h.hand

section lists
variable {l : PageList}

theorem lists_listRemove (h : Apart s.kept) (hf : f ∈ s.lists l) (k : PageList) :
    (s.listRemove f).lists k = if k = l then (s.lists l).erase f else s.lists k := by
  by_cases hk : k = l
  · subst hk
    rw [if_pos rfl]
    rfl
  · rw [if_neg hk]
    refine erase_of_not_mem fun hfk => hk ?_
    exact Place.on.inj (h.one (.on k) (.on l) f hfk hf)

theorem went_listRemove (h : Apart s.kept) (hf : f ∈ s.lists l) : Went s (s.listRemove f) f none where
  moved := by
    refine h.take (i := .on l) hf (fun j => ?_) rfl
    cases j with
    | on k => exact .inr rfl
    | cleaned => exact .inl rfl
    | inHand => exact .inl rfl
  core _ _ := rfl
  hand := rfl

theorem kept_insertRear : (s.insertRear l f).kept = update s.kept (.on l) (s.lists l ++ [f]) := by
  funext p
  cases p with
  | on k =>
    by_cases hk : k = l
    · subst hk; simp [kept, insertRear]
    · rw [update_of_ne (fun h => hk (Place.on.inj h))]
      exact update_of_ne hk _ _
  | cleaned => rfl
  | inHand => rfl

theorem kept_insertFront : (s.insertFront l f).kept = update s.kept (.on l) (f :: s.lists l) := by
  funext p
  cases p with
  | on k =>
    by_cases hk : k = l
    · subst hk; simp [kept, insertFront]
    · rw [update_of_ne (fun h => hk (Place.on.inj h))]
      exact update_of_ne hk _ _
  | cleaned => rfl
  | inHand => rfl

theorem went_insertRear (h : Apart s.kept) (hn : ∀ p, f ∉ s.kept p) :
    Went s (s.insertRear l f) f (some (.on l)) where
  moved := kept_insertRear ▸ h.put hn (perm_append_singleton f _)
  core _ _ := rfl
  hand := rfl

theorem went_insertFront (h : Apart s.kept) (hn : ∀ p, f ∉ s.kept p) :
    Went s (s.insertFront l f) f (some (.on l)) where
  moved := kept_insertFront ▸ h.put hn (List.Perm.refl _)
  core _ _ := rfl
  hand := rfl

end lists

theorem Went.none_kept (h : Went s t f none) (p : Place) : f ∉ t.kept p :=
  fun hp => nomatch (h.moved.self p).1 hp

theorem Went.putOnFront (hw : Went s t f none) (h : Apart s.kept) :
    Went s ((t.pullBits f).putOnAllocListFront f) f (some (.on .alloc)) := by
  have hput := went_insertFront (l := .alloc) (hw.moved.apart h) hw.none_kept
  exact hw.trans ⟨hput.moved, hput.core, hput.hand⟩

section counters
variable (hap : Apart s.kept) (hc : s.Counted)
include hap hc

omit hc in
theorem length_kept {k : PageList} (hf : f ∈ s.lists l) (hk : k ≠ l) : (((s.listRemove f).lists k).length : Int) = (s.lists k).length := by
  rw [lists_listRemove hap hf, if_neg hk]

omit hc in
theorem length_taken (hf : f ∈ s.lists l) : (((s.listRemove f).lists l).length : Int) = (s.lists l).length - 1 := by
  have hpos := length_pos_of_mem hf
  rw [lists_listRemove hap hf, if_pos rfl, length_erase_of_mem hf]
  omega

theorem Counted.takeOffAllocList (hf : f ∈ s.lists .alloc) : (s.takeOffAllocList f).Counted where
  free := hc.free.trans (length_kept hap hf (by decide)).symm
  reserve := hc.reserve.trans (length_kept hap hf (by decide)).symm
  user := (congrArg (· - 1) hc.user).trans (length_taken hap hf).symm
  dirty := hc.dirty.trans (congrArg (· + (s.cleaning.length : Int)) (length_kept hap hf (by decide)).symm)
  procs := hc.procs

theorem Counted.takeOffFreeList (hf : f ∈ s.lists .free) : (s.takeOffFreeList f).Counted where
  free := (congrArg (· - 1) hc.free).trans (length_taken hap hf).symm
  reserve := hc.reserve.trans (length_kept hap hf (by decide)).symm
  user := hc.user.trans (length_kept hap hf (by decide)).symm
  dirty := hc.dirty.trans (congrArg (· + (s.cleaning.length : Int)) (length_kept hap hf (by decide)).symm)
  procs := hc.procs

theorem Counted.takeOffDirtyList (hf : f ∈ s.lists .dirty) : (s.takeOffDirtyList f).Counted where
  free := hc.free.trans (length_kept hap hf (by decide)).symm
  reserve := hc.reserve.trans (length_kept hap hf (by decide)).symm
  user := hc.user.trans (length_kept hap hf (by decide)).symm
  dirty := by
    show s.numDirtyPages - 1 = ((s.listRemove f).lists .dirty).length + (s.cleaning.length : Int)
    rw [length_taken hap hf, hc.dirty]
    omega
  procs := hc.procs

end counters

section
variable (hc : s.Counted)
include hc

theorem Counted.putOnAllocListRear : (s.putOnAllocListRear f).Counted where
  free := hc.free
  reserve := hc.reserve
  user := by
    show s.numUserPages + 1 = ((s.insertRear .alloc f).lists .alloc).length
    simp [insertRear, hc.user]
  dirty := hc.dirty
  procs := hc.procs

theorem Counted.putOnAllocListFront : (s.putOnAllocListFront f).Counted where
  free := hc.free
  reserve := hc.reserve
  user := by
    show s.numUserPages + 1 = ((s.insertFront .alloc f).lists .alloc).length
    simp [insertFront, hc.user]
  dirty := hc.dirty
  procs := hc.procs

theorem Counted.putOnReserveList : (s.putOnReserveList f).Counted where
  free := hc.free
  reserve := by
    show s.numReservePages + 1 = ((s.insertRear .reserve f).lists .reserve).length
    simp [insertRear, hc.reserve]
  user := hc.user
  dirty := hc.dirty
  procs := hc.procs

theorem Counted.putOnFreeList : (s.putOnFreeList f).Counted := by
  unfold Pages.putOnFreeList
  dsimp only
  split
  · exact Counted.putOnReserveList (s := { s with given := _ }) ⟨hc.free, hc.reserve, hc.user, hc.dirty, hc.procs⟩
  · exact
      { free := by
          show s.numFreePages + 1 = ((s.insertRear .free f).lists .free).length
          simp [insertRear, hc.free]
        reserve := hc.reserve, user := hc.user, dirty := hc.dirty, procs := hc.procs }

theorem Counted.putOnDirtyList : (s.putOnDirtyList P f).Counted := by
  have hdirty : s.numDirtyPages + 1 = ((s.insertRear .dirty f).lists .dirty).length + s.cleaning.length := by
    simp only [insertRear, update_self, length_append, length_singleton, hc.dirty]
    omega
  unfold Pages.putOnDirtyList
  dsimp only
  split
  · refine ⟨hc.free, hc.reserve, hc.user, hdirty, ?_⟩
    show s.numPageOutProcs + 1 = ((s.starting + 1 : Nat) : Int) + s.cleaning.length
    rw [hc.procs]
    omega
  · exact ⟨hc.free, hc.reserve, hc.user, hdirty, hc.procs⟩

end

section put
variable (hap : Apart s.kept) (hn : ∀ p, f ∉ s.kept p)
include hap hn

theorem went_putOnFreeList : ∃ l, (l = .free ∨ l = .reserve) ∧ Went s (s.putOnFreeList f) f (some (.on l)) ∧
    ((s.putOnFreeList f).coreMap f).Agrees (.on l) := by
  unfold putOnFreeList
  dsimp only
  split
  · refine ⟨.reserve, .inr rfl, (went_insertRear hap hn).setCore
      (c := { (s.coreMap f).noFlags with lockCount := 1 }) rfl rfl rfl, ?_⟩
    show (update s.coreMap f { (s.coreMap f).noFlags with lockCount := 1 } f).Agrees (.on .reserve)
    rw [update_self]
    exact ⟨VmCore.plain_noFlags (s.coreMap f), Int.one_pos⟩
  · refine ⟨.free, .inl rfl, (went_insertRear hap hn).setCore
      (c := { (s.coreMap f).noFlags with freePage := true, lockCount := 0 }) rfl rfl rfl, ?_⟩
    show (update s.coreMap f
      { (s.coreMap f).noFlags with freePage := true, lockCount := 0 } f).Agrees (.on .free)
    rw [update_self]
    exact ⟨rfl, rfl, rfl, rfl, rfl, rfl⟩

theorem went_putOnDirtyList : Went s (s.putOnDirtyList P f) f (some (.on .dirty)) := by
  have hwent := went_insertRear (l := .dirty) hap hn
  refine ⟨?_, fun g hg => ?_, ?_⟩
  · have hk : (s.putOnDirtyList P f).kept = (s.insertRear .dirty f).kept := by
      funext p
      cases p with
      | on l => exact congrFun (lists_putOnDirtyList f) l
      | cleaned => unfold Pages.putOnDirtyList; dsimp only; split <;> rfl
      | inHand => unfold Pages.putOnDirtyList; dsimp only; split <;> rfl
    exact hk ▸ hwent.moved
  · rw [coreMap_putOnDirtyList, update_of_ne hg]
  · unfold Pages.putOnDirtyList
    dsimp only
    split <;> rfl

end put

theorem Conserved.freed (h : s.Conserved P) (hw : Went s t f none) (hf : f < P.numPhysPages)
    (hc : t.Counted) : (t.putOnFreeList f).Conserved P := by
  obtain ⟨l, -, hput, hag⟩ := went_putOnFreeList (hw.moved.apart h.apart) hw.none_kept
  exact h.went (hw.trans hput) hf hag hc.putOnFreeList

theorem Conserved.dirtied (h : s.Conserved P) (hw : Went s t f none) (hf : f < P.numPhysPages)
    (hu : (t.coreMap f).virtPage.segPtr ≠ sysSegPtr) (hb : (t.coreMap f).beingCleaned = false)
    (hc : t.Counted) : (t.putOnDirtyList P f).Conserved P := by
  refine h.went (hw.trans (went_putOnDirtyList (hw.moved.apart h.apart) hw.none_kept)) hf ?_ hc.putOnDirtyList
  rw [coreMap_putOnDirtyList, update_self]
  exact ⟨rfl, hb, hu⟩

end Pages

end SpriteKernel.Vm
