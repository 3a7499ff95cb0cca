import Mathlib.Data.List.Count
import SpriteKernel.Vm.Types

/- The page frames of the core map (vmPage.c): the four page lists, the counters beside them,
   and how a frame is found for a page. What a page has been through in the hardware
   (`VmMach_*`) is three bits a frame. -/
namespace SpriteKernel.Vm

open Function List

/-- `Vm_VirtAddr` as a core map entry has it. -/
structure VirtPage where
  segPtr : Nat
  page : Int
  deriving DecidableEq

def sysSegPtr : Nat := 0

/-- The flags are `VM_FREE_PAGE`, `VM_DIRTY_PAGE`, `VM_SEG_PAGEOUT_WAIT`, `VM_PAGE_BEING_CLEANED`,
    `VM_DONT_FREE_UNTIL_CLEAN`. -/
structure VmCore where
  virtPage : VirtPage
  lockCount : Int
  freePage : Bool
  dirtyPage : Bool
  segPageoutWait : Bool
  beingCleaned : Bool
  dontFreeUntilClean : Bool
  deriving DecidableEq

/-- `flags = 0`. -/
def VmCore.noFlags (c : VmCore) : VmCore :=
  { c with freePage := false, dirtyPage := false, segPageoutWait := false, beingCleaned := false,
           dontFreeUntilClean := false }

inductive PageList where
  | alloc
  | dirty
  | free
  | reserve
  deriving DecidableEq

/-- What the hardware has of the page in a frame. -/
structure HardPage where
  valid : Bool
  referenced : Bool
  modified : Bool
  deriving DecidableEq

/-- A process asleep in `VmPageFreeInt`, or woken: the frame, the segment of its condition, and the page
    `VmFlushSegment` has yet to invalidate. `given`: how often the frame had been given back at the start. -/
structure Waiter where
  frame : Nat
  segPtr : Nat
  woken : Bool
  flushed : Option VirtPage
  given : Nat
  deriving DecidableEq

/-- `starting` PageOut processes have no frame, the others write one of `cleaning`; `inHand` are those in
    `VmPageAllocate` not yet on the allocate list. History: `given`, how often a frame was given back, `unsaved`, the
    pages modified since their last write, `since`, the frames modified in the write under way. -/
structure Pages where
  coreMap : Nat → VmCore
  lists : PageList → List Nat
  numFreePages : Int
  numReservePages : Int
  numUserPages : Int
  numDirtyPages : Int
  numPageOutProcs : Int
  swapDown : Bool
  clockHand : Nat
  pte : VirtPage → Pte
  segDead : Nat → Bool
  hard : Nat → HardPage
  starting : Nat
  cleaning : List Nat
  inHand : List Nat
  waiters : List Waiter
  given : Nat → Nat
  unsaved : VirtPage → Bool
  since : Nat → Bool

/-- The size of memory and the variables of the module that tune it; `code` are the segments of
    type `VM_CODE`. -/
structure PageParams where
  numPhysPages : Nat
  firstFreePage : Nat
  maxPageOutProcs : Int
  maxDirtyPages : Int
  pagesToCheck : Nat
  freeWhenClean : Bool
  writeableRefPageout : Bool
  code : Nat → Bool
  room : firstFreePage + 3 ≤ numPhysPages

def numReserve : Int := 3

namespace Pages
variable (P : PageParams) (s : Pages)

def setCore (f : Nat) (c : VmCore) : Pages := { s with coreMap := update s.coreMap f c }

def setPte (v : VirtPage) (pte : Pte) : Pages := { s with pte := update s.pte v pte }

def setHard (f : Nat) (h : HardPage) : Pages := { s with hard := update s.hard f h }

/-- The entry that `VmGetAddrPTEPtr(&corePtr->virtPage)` points to. -/
def ptePtr (f : Nat) : Pte := s.pte (s.coreMap f).virtPage

/-- `VmListRemove`: a frame has one pair of links, so it leaves whatever list it is on. -/
def listRemove (f : Nat) : Pages := { s with lists := fun l => (s.lists l).erase f }

def insertRear (l : PageList) (f : Nat) : Pages :=
  { s with lists := update s.lists l (s.lists l ++ [f]) }

def insertFront (l : PageList) (f : Nat) : Pages :=
  { s with lists := update s.lists l (f :: s.lists l) }

/-- `VmListMove` to the rear of the allocate list. -/
def moveToRear (f : Nat) : Pages := (s.listRemove f).insertRear .alloc f

def putOnAllocListFront (f : Nat) : Pages :=
  { s.insertFront .alloc f with numUserPages := s.numUserPages + 1 }

def putOnAllocListRear (f : Nat) : Pages :=
  { s.insertRear .alloc f with numUserPages := s.numUserPages + 1 }

def takeOffAllocList (f : Nat) : Pages :=
  { s.listRemove f with numUserPages := s.numUserPages - 1 }

def putOnReserveList (f : Nat) : Pages :=
  let s := s.setCore f { (s.coreMap f).noFlags with lockCount := 1 }
  { s.insertRear .reserve f with numReservePages := s.numReservePages + 1 }

def putOnFreeList (f : Nat) : Pages :=
  let s := { s with given := update s.given f (s.given f + 1) }
  if s.numReservePages < numReserve then s.putOnReserveList f
  else
    let s := s.setCore f { (s.coreMap f).noFlags with freePage := true, lockCount := 0 }
    { s.insertRear .free f with numFreePages := s.numFreePages + 1 }

def takeOffFreeList (f : Nat) : Pages :=
  { s.listRemove f with numFreePages := s.numFreePages - 1 }

def takeOffDirtyList (f : Nat) : Pages :=
  { s.listRemove f with numDirtyPages := s.numDirtyPages - 1 }

/-- `Proc_CallFunc(PageOut)`. -/
def callPageOut : Pages := { s with starting := s.starting + 1, numPageOutProcs := s.numPageOutProcs + 1 }

def putOnDirtyList (f : Nat) : Pages :=
  let s := { s.insertRear .dirty f with numDirtyPages := s.numDirtyPages + 1 }
  let s := s.setCore f { s.coreMap f with dirtyPage := true }
  if s.numDirtyPages - s.numPageOutProcs > 0 ∧ s.numPageOutProcs < P.maxPageOutProcs then s.callPageOut
  else s

def vmPutOnDirtyList (f : Nat) : Pages :=
  let s := if (s.coreMap f).dirtyPage then s else (s.takeOffAllocList f).putOnDirtyList P f
  s.setCore f { s.coreMap f with dontFreeUntilClean := true }

def pageValidateInt (v : VirtPage) : Pages :=
  let s := s.setPte v { s.pte v with physRes := true }
  s.setHard (s.pte v).pageFrame { s.hard (s.pte v).pageFrame with valid := true }

def pageInvalidateInt (v : VirtPage) : Pages :=
  if (s.pte v).physRes then
    let s := s.setHard (s.pte v).pageFrame ⟨false, false, false⟩
    s.setPte v { s.pte v with physRes := false, pageFrame := 0 }
  else s

/-- `*ptePtr &= ~(VM_PHYS_RES_BIT | VM_PAGE_FRAME_FIELD)`. -/
def clearResident (v : VirtPage) : Pages :=
  s.setPte v { s.pte v with physRes := false, pageFrame := 0 }

/-- What `VmMach_AllocCheck` answers: the bits of the entry and those of the hardware. -/
def isReferenced (f : Nat) : Bool := (s.ptePtr f).referenced || (s.hard f).referenced
def isModified (f : Nat) : Bool := (s.ptePtr f).modified || (s.hard f).modified

/-- What `VmMach_AllocCheck` does: the page is taken out of the hardware unless it has been
    referenced. -/
def allocCheck (f : Nat) : Pages := if s.isReferenced f then s else s.setHard f ⟨false, false, false⟩

/-- What the clock hand and the search for a frame do to a page that has been referenced. -/
def clearRef (f : Nat) : Pages :=
  let v := (s.coreMap f).virtPage
  let s := s.setHard f { s.hard f with referenced := false }
  s.setPte v { s.pte v with
    referenced := false
    modified := (s.pte v).modified || (P.writeableRefPageout && !P.code v.segPtr) }

/-- `corePtr` is initialized for the page it is allocated for. -/
def initCore (f : Nat) (v : VirtPage) : Pages :=
  s.setCore f { (s.coreMap f).noFlags with virtPage := v, lockCount := 1 }

/-- The frame is put on the allocate list, unless it is for the kernel, and initialized. -/
def hand (f : Nat) (v : VirtPage) : Pages :=
  (if v.segPtr = sysSegPtr then s else s.putOnAllocListRear f).initCore f v

/-- How many frames of the allocate list have been referenced. -/
def refs : Nat := (s.lists .alloc).countP s.isReferenced

variable {P s}

@[simp] theorem lists_clearRef (f : Nat) : (s.clearRef P f).lists = s.lists := rfl
theorem lists_allocCheck (f : Nat) : (s.allocCheck f).lists = s.lists := by
  unfold allocCheck
  split <;> rfl

theorem allocCheck_eq (f : Nat) : ∃ hard, (∀ g, g ≠ f → hard g = s.hard g) ∧ s.allocCheck f = { s with hard } := by
  unfold allocCheck
  split
  · exact ⟨_, fun _ _ => rfl, rfl⟩
  · exact ⟨_, fun _ hg => update_of_ne hg _ _, rfl⟩

theorem frame_putOnFreeList (f : Nat) : (s.putOnFreeList f).cleaning = s.cleaning ∧
    (s.putOnFreeList f).starting = s.starting ∧ (s.putOnFreeList f).segDead = s.segDead ∧ (s.putOnFreeList f).pte = s.pte ∧
    (s.putOnFreeList f).hard = s.hard ∧ (s.putOnFreeList f).unsaved = s.unsaved ∧ (s.putOnFreeList f).since = s.since := by
  unfold putOnFreeList
  dsimp only
  split <;> exact ⟨rfl, rfl, rfl, rfl, rfl, rfl, rfl⟩

theorem frame_putOnDirtyList (f : Nat) : (s.putOnDirtyList P f).cleaning = s.cleaning ∧
    (s.putOnDirtyList P f).waiters = s.waiters ∧ (s.putOnDirtyList P f).given = s.given ∧
    (s.putOnDirtyList P f).segDead = s.segDead ∧ (s.putOnDirtyList P f).pte = s.pte ∧
    (s.putOnDirtyList P f).hard = s.hard ∧ (s.putOnDirtyList P f).unsaved = s.unsaved ∧
    (s.putOnDirtyList P f).since = s.since := by
  unfold putOnDirtyList
  dsimp only
  split <;> exact ⟨rfl, rfl, rfl, rfl, rfl, rfl, rfl, rfl⟩

theorem lists_putOnDirtyList (f : Nat) :
    (s.putOnDirtyList P f).lists = update s.lists .dirty (s.lists .dirty ++ [f]) := by
  unfold putOnDirtyList
  dsimp only
  split <;> rfl

theorem coreMap_putOnDirtyList (f : Nat) :
    (s.putOnDirtyList P f).coreMap = update s.coreMap f { s.coreMap f with dirtyPage := true } := by
  unfold putOnDirtyList
  dsimp only
  split <;> rfl

/-- A frame whose reference bits are cleared has not been referenced, and no frame has that had not
    been before. -/
theorem isReferenced_clearRef (f g : Nat) (h : (s.clearRef P f).isReferenced g = true) :
    s.isReferenced g = true ∧ g ≠ f := by
  unfold isReferenced ptePtr clearRef setPte setHard at h
  unfold isReferenced ptePtr
  by_cases hg : g = f
  · subst hg
    simp at h
  · by_cases hv : (s.coreMap g).virtPage = (s.coreMap f).virtPage
    · simp only [hv, update_self, update_of_ne hg, Bool.false_or] at h
      exact ⟨by rw [h, Bool.or_true], hg⟩
    · simp only [update_of_ne hv, update_of_ne hg] at h
      exact ⟨h, hg⟩

variable {f : Nat} {rest : List Nat}

section
variable (h : s.lists .alloc = f :: rest)
include h

theorem perm_moveToRear : ((s.moveToRear f).lists .alloc).Perm (s.lists .alloc) := by
  simp only [moveToRear, insertRear, listRemove, update_self, h, erase_cons_head]
  exact perm_append_singleton f rest

theorem refs_moveToRear : (s.moveToRear f).refs = s.refs :=
  (perm_moveToRear h).countP_eq _

theorem refs_clearRef
    (hr : s.isReferenced f = true) : (s.clearRef P f).refs < s.refs := by
  have hrest : rest.countP (s.clearRef P f).isReferenced ≤ rest.countP s.isReferenced :=
    countP_mono_left fun g _ hg => (isReferenced_clearRef f g hg).1
  have hself : (s.clearRef P f).isReferenced f = false := by
    rw [Bool.eq_false_iff]
    exact fun hf => (isReferenced_clearRef f f hf).2 rfl
  unfold refs
  rw [lists_clearRef, h, countP_cons_of_pos hr, countP_cons_of_neg (by rw [hself]; decide)]
  omega

end

theorem isReferenced_putOnDirtyList (f g : Nat) : (s.putOnDirtyList P f).isReferenced g = s.isReferenced g := by
  have hvirt : ((s.putOnDirtyList P f).coreMap g).virtPage = (s.coreMap g).virtPage := by
    rw [coreMap_putOnDirtyList]
    by_cases hf : g = f
    · subst hf; rw [update_self]
    · rw [update_of_ne hf]
  unfold isReferenced ptePtr
  obtain ⟨-, -, -, -, hpte, hhard, -⟩ := frame_putOnDirtyList (P := P) (s := s) f
  rw [hvirt, hpte, hhard]

theorem isReferenced_allocCheck {g : Nat} (h : (s.allocCheck f).isReferenced g = true) : s.isReferenced g = true := by
  unfold allocCheck at h
  split at h
  · exact h
  · unfold isReferenced at h ⊢
    rw [Bool.or_eq_true] at h ⊢
    refine h.imp_right fun hh => ?_
    by_cases hf : g = f
    · subst hf
      simp [setHard] at hh
    · simpa [setHard, update_of_ne hf] using hh

theorem refs_toDirty (h : s.lists .alloc = f :: rest) :
    (((s.allocCheck f).takeOffAllocList f).putOnDirtyList P f).refs ≤ s.refs := by
  have href : ∀ g, (((s.allocCheck f).takeOffAllocList f).putOnDirtyList P f).isReferenced g = true →
      s.isReferenced g = true := by
    intro g hg
    rw [isReferenced_putOnDirtyList] at hg
    exact isReferenced_allocCheck hg
  have hlist : (((s.allocCheck f).takeOffAllocList f).putOnDirtyList P f).lists .alloc = rest := by
    rw [lists_putOnDirtyList, update_of_ne (by decide)]
    show ((s.allocCheck f).lists .alloc).erase f = rest
    rw [lists_allocCheck, h, erase_cons_head]
  unfold refs
  rw [hlist, h, countP_cons]
  exact Nat.le_trans (countP_mono_left fun g _ hg => href g hg) (Nat.le_add_right _ _)

variable (P s)

/-- The loop of `VmPageAllocateInt`; `behind` frames are behind the end marker; `mayWait`: give up when there is too
    much to clean. -/
def search (mayWait : Bool) (behind : Nat) (s : Pages) : Pages × Option Nat :=
  match h : s.lists .alloc with
  | [] => (s, none)
  | f :: _ =>
    if h₁ : (mayWait = true ∧ s.numDirtyPages > P.maxDirtyPages) ∨ (s.lists .alloc).length ≤ behind then
      (s, none)
    else if (s.coreMap f).lockCount > 0 then search mayWait (behind + 1) (s.moveToRear f)
    else if _hr : s.isReferenced f = true then search mayWait 0 ((s.clearRef P f).moveToRear f)
    else if s.isModified f then
      search mayWait behind (((s.allocCheck f).takeOffAllocList f).putOnDirtyList P f)
    else (((s.allocCheck f).clearResident (s.coreMap f).virtPage).takeOffAllocList f, some f)
termination_by (s.refs, (s.lists .alloc).length - behind)
decreasing_by
  · rw [refs_moveToRear h, (perm_moveToRear h).length_eq]
    exact Prod.Lex.right _ (by omega)
  · refine Prod.Lex.left _ _ ?_
    rw [refs_moveToRear (s := s.clearRef P f) h]
    exact refs_clearRef h _hr
  · rcases Nat.lt_or_ge (((s.allocCheck f).takeOffAllocList f).putOnDirtyList P f).refs s.refs with hlt | hge
    · exact Prod.Lex.left _ _ hlt
    · rw [Nat.le_antisymm (refs_toDirty h) hge, lists_putOnDirtyList, Function.update_of_ne (by decide)]
      refine Prod.Lex.right _ ?_
      show (((s.allocCheck f).lists .alloc).erase f).length - behind < _
      rw [lists_allocCheck, h, List.erase_cons_head]
      rw [h] at h₁
      simp only [List.length_cons] at h₁ ⊢
      omega

/-- `VmPageAllocateInt`: the frame found, if any; who may wait for one to be cleaned does so and calls again. -/
def pageAllocateInt (v : VirtPage) (mayWait : Bool) : Pages × Option Nat :=
  match s.lists .free with
  | f :: _ => ((s.takeOffFreeList f).hand f v, some f)
  | [] =>
    match search P mayWait 0 s with
    | (s, none) => (s, none)
    | (s, some f) => (s.hand f v, some f)

/-- `GetRefTime`, as far as it takes a free frame. -/
def getRefTime : Pages :=
  match s.lists .free with
  | f :: _ => { s.takeOffFreeList f with inHand := s.inHand ++ [f] }
  | [] => s

def putOnAllocList (v : VirtPage) (f : Nat) : Pages :=
  ({ s with inHand := s.inHand.erase f }).hand f v

def getReservePage (v : VirtPage) : Pages :=
  match s.lists .reserve with
  | f :: _ =>
    let s := { s.listRemove f with numReservePages := s.numReservePages - 1 }
    s.setCore f { s.coreMap f with virtPage := v }
  | [] => s

def reservePage (f : Nat) : Pages :=
  if f < P.numPhysPages then
    let s := s.takeOffFreeList f
    s.setCore f { (s.coreMap f).noFlags with
      virtPage := ⟨sysSegPtr, (s.coreMap f).virtPage.page⟩, lockCount := 1 }
  else s

end Pages

end SpriteKernel.Vm
