import SpriteKernel.Vm.Page
import SpriteKernel.Lib.Transition

/- Page frames given back and written to swap (vmPage.c): VmPageFreeInt and those that wait in it, the page-out
   processes, VmFlushSegment, the clock hand and Vm_Recovery. A step is what a process does with the monitor locked. -/
namespace SpriteKernel.Vm
open Function

inductive Panic where
  | kernelPageOnDirtyList
  | dirtyPagesButNoPageoutProcs
  | residentBitNotSet
  | lockCountNegative
  deriving DecidableEq

/-- What the write of a page to swap comes back with. -/
inductive SwapStatus where
  | success
  | rpcTimeout
  | rpcServiceDisabled
  | fsStaleHandle
  | other
  deriving DecidableEq

/-- The errors that say that the swap server is down. -/
def SwapStatus.down : SwapStatus → Bool
  | .rpcTimeout | .rpcServiceDisabled | .fsStaleHandle => true
  | .success | .other => false

namespace Pages
variable (P : PageParams) (s : Pages)

/-- `Sync_Broadcast(&segPtr->condition)`. -/
def broadcast (segPtr : Nat) : Pages :=
  { s with waiters := s.waiters.map fun w => if w.segPtr = segPtr then { w with woken := true } else w }

/-- What is left to do when VmPageFreeInt is done. -/
def afterFree : Option VirtPage → Pages
  | some v => s.pageInvalidateInt v
  | none => s

/-- `VmPageFreeInt`, up to where it sleeps. -/
def pageFreeInt (f : Nat) (flushed : Option VirtPage) : Except Panic Pages :=
  let s := s.setCore f { s.coreMap f with freePage := true, lockCount := 0 }
  let core := s.coreMap f
  if core.virtPage.segPtr = sysSegPtr then
    if core.dirtyPage || core.beingCleaned then .error .kernelPageOnDirtyList
    else .ok ((s.putOnFreeList f).afterFree flushed)
  else if core.beingCleaned || core.dontFreeUntilClean then
    let s := s.setCore f { core with segPageoutWait := true }
    .ok { s with waiters := s.waiters ++ [⟨f, core.virtPage.segPtr, false, flushed, s.given f⟩] }
  else
    let s := if core.dirtyPage then s.takeOffDirtyList f else s.takeOffAllocList f
    .ok ((s.putOnFreeList f).afterFree flushed)

/-- A process that has been woken in VmPageFreeInt goes on. -/
def resume (w : Waiter) : Pages :=
  let s := { s with waiters := s.waiters.erase w }
  let core := s.coreMap w.frame
  if core.beingCleaned || core.dontFreeUntilClean then
    let s := s.setCore w.frame { core with segPageoutWait := true }
    { s with waiters := s.waiters ++ [{ w with woken := false, segPtr := core.virtPage.segPtr }] }
  else s.afterFree w.flushed

/-- One page of `VmFlushSegment`. -/
def flushPage (v : VirtPage) : Except Panic Pages :=
  let f := (s.pte v).pageFrame
  if (s.pte v).physRes = false ∨ (s.coreMap f).lockCount > 0 then .ok s
  else if (s.coreMap f).dirtyPage then
    (s.setCore f { s.coreMap f with dontFreeUntilClean := true }).pageFreeInt f (some v)
  else if (s.pte v).modified || (s.hard f).modified then
    let s := (s.takeOffAllocList f).putOnDirtyList P f
    (s.setCore f { s.coreMap f with dontFreeUntilClean := true }).pageFreeInt f (some v)
  else s.pageFreeInt f (some v)

/-- The bits of the hardware are pulled into the entry of a page that has been written. -/
def pullBits (f : Nat) : Pages :=
  let v := (s.coreMap f).virtPage
  let pte := s.pte v
  s.setPte v { pte with
    referenced := pte.referenced || (s.hard f).referenced || (s.hard f).modified
    modified := pte.modified || (s.hard f).modified }

/-- `PutOnFront` wakes those that wait for the frame and clears its flags. -/
def doneCleaning (f : Nat) : Pages :=
  let s := if (s.coreMap f).segPageoutWait then s.broadcast (s.coreMap f).virtPage.segPtr else s
  let s := s.setCore f { s.coreMap f with
    dirtyPage := false, beingCleaned := false, segPageoutWait := false, dontFreeUntilClean := false }
  { s with numDirtyPages := s.numDirtyPages - 1 }

def putOnFront (f : Nat) : Except Panic Pages :=
  let v := (s.coreMap f).virtPage
  let s := s.doneCleaning f
  if (s.coreMap f).freePage then .ok (s.putOnFreeList f)
  else
    let s := s.pullBits f
    if P.freeWhenClean ∧ (s.coreMap f).lockCount = 0 ∧ (s.pte v).referenced = false then
      if (s.pte v).physRes then .ok ((s.clearResident v).putOnFreeList f) else .error .residentBitNotSet
    else .ok (s.putOnAllocListFront f)

/-- What `PageOutPutAndGet` does with a frame of a dead segment. -/
def freeDead (f : Nat) : Pages :=
  ((s.takeOffDirtyList f).pageInvalidateInt (s.coreMap f).virtPage).putOnFreeList f

/-- The loop of `PageOutPutAndGet` over the dirty list: frames of dead segments are freed. -/
def nextDirty : List Nat → Pages → Pages × Option Nat
  | [], s => (s, none)
  | f :: rest, s =>
    if s.segDead (s.coreMap f).virtPage.segPtr then nextDirty rest (s.freeDead f)
    else (s.listRemove f, some f)

/-- The page of a frame is about to be written. -/
def startCleaning (f : Nat) : Pages :=
  let v := (s.coreMap f).virtPage
  let s := s.setPte v { s.pte v with onSwap := true }
  let s :=
    if (s.coreMap f).lockCount = 0 then
      (s.setPte v { s.pte v with modified := false }).setHard f { s.hard f with modified := false }
    else s
  let s := s.setCore f { s.coreMap f with beingCleaned := true }
  { s with cleaning := s.cleaning ++ [f], starting := s.starting - 1,
           since := update s.since f false }

/-- The second half of `PageOutPutAndGet`, of a process that has no frame. -/
def getDirty : Except Panic Pages :=
  match nextDirty (s.lists .dirty) s with
  | (s, some f) => .ok (s.startCleaning f)
  | (s, none) =>
    let s := { s with starting := s.starting - 1, numPageOutProcs := s.numPageOutProcs - 1 }
    if s.numPageOutProcs = 0 ∧ s.numDirtyPages ≠ 0 then .error .dirtyPagesButNoPageoutProcs else .ok s

/-- History: a page that was not modified meanwhile is on swap as it is. -/
def saved (f : Nat) : Pages :=
  let v := (s.coreMap f).virtPage
  { s with unsaved := update s.unsaved v (s.unsaved v && s.since f) }

/-- The swap server is down: the frame goes back on the dirty list, and the process leaves. -/
def requeue (f : Nat) : Pages :=
  let s := { s with cleaning := s.cleaning.erase f, swapDown := true, numPageOutProcs := s.numPageOutProcs - 1 }
  (s.setCore f { s.coreMap f with beingCleaned := false }).insertRear .dirty f

/-- `PageOutPutAndGet` of a process that starts, or that has written a frame. -/
def pageOutPutAndGet (proc : Option Nat) (status : SwapStatus) : Except Panic Pages :=
  match proc with
  | none =>
    if s.swapDown then .ok { s with starting := s.starting - 1, numPageOutProcs := s.numPageOutProcs - 1 }
    else s.getDirty
  | some f =>
    if status.down then .ok (s.requeue f)
    else do
      let s := { s with cleaning := s.cleaning.erase f, starting := s.starting + 1 }
      let s ← (if status = .success then s.saved f else s).putOnFront P f
      s.getDirty

/-- The loop of `Vm_Recovery`. -/
def callPageOuts : Nat → Pages → Pages
  | 0, s => s
  | n + 1, s =>
    if s.numDirtyPages - s.numPageOutProcs > 0 ∧ s.numPageOutProcs < P.maxPageOutProcs then
      callPageOuts n s.callPageOut
    else s

def recovery : Pages :=
  callPageOuts P (P.maxPageOutProcs - s.numPageOutProcs).toNat { s with swapDown := false }

/-- What `Vm_Clock` does with one frame. -/
def clockPage (f : Nat) : Pages :=
  if (s.coreMap f).dirtyPage || (s.coreMap f).freePage || (s.coreMap f).lockCount > 0 then s
  else if s.isReferenced f then (s.moveToRear f).clearRef P f
  else s

def clockLoop : Nat → Pages → Pages
  | 0, s => s
  | n + 1, s =>
    let f := s.clockHand
    let s := { s with clockHand := if f = P.numPhysPages - 1 then P.firstFreePage else f + 1 }
    clockLoop n (s.clockPage P f)

def clock : Pages := clockLoop P P.pagesToCheck s

/-- `VmLockPageInt`. -/
def lockPage (f : Nat) : Pages := s.setCore f { s.coreMap f with lockCount := (s.coreMap f).lockCount + 1 }

def unlockPage (f : Nat) : Except Panic Pages :=
  let s := s.setCore f { s.coreMap f with lockCount := (s.coreMap f).lockCount - 1 }
  if (s.coreMap f).lockCount < 0 then .error .lockCountNegative else .ok s

/-- A page-in ends: `*ptePtr |= virtFrameNum`, the modified bit where the page was zeroed or copied, and
    `FinishPage`. -/
def finishPage (v : VirtPage) (f : Nat) (modified : Bool) : Pages :=
  let s := s.setPte v { s.pte v with
    physRes := true, pageFrame := f, zeroFill := false, inProgress := false, referenced := true
    modified := (s.pte v).modified || modified }
  let s := s.setHard f { s.hard f with valid := true }
  let s := s.setCore f { s.coreMap f with lockCount := (s.coreMap f).lockCount - 1 }
  { s with unsaved := update s.unsaved v modified }

/-- A fault on a page that is resident (`PreparePage`). -/
def quickFault (v : VirtPage) : Pages :=
  let s := s.pageValidateInt v
  s.setPte v { s.pte v with referenced := true }

/-- A process gets at a page through the hardware. -/
def touch (f : Nat) (write : Bool) : Pages :=
  let s := s.setHard f { s.hard f with referenced := true, modified := (s.hard f).modified || write }
  let v := (s.coreMap f).virtPage
  { s with unsaved := update s.unsaved v (s.unsaved v || write)
           since := update s.since f (s.since f || write) }

/-- A page deleted from its segment: its entry is zeroed, its contents no longer wanted (`EndDelete`). -/
def deletePage (v : VirtPage) : Pages :=
  { s.setPte v .zero with unsaved := update s.unsaved v false }

/-- `CleanSegment` begins. -/
def killSegment (n : Nat) : Pages := { s with segDead := update s.segDead n true }

def newSegment (n : Nat) : Pages :=
  { s with segDead := update s.segDead n false
           pte := fun v => if v.segPtr = n then .zero else s.pte v
           unsaved := fun v => if v.segPtr = n then false else s.unsaved v }

/-- VmPageFree's callers take the page out of the hardware first; `deleted`: its entry is zeroed too. -/
def freePage (f : Nat) (deleted : Bool) : Except Panic Pages :=
  let s := if deleted then s.deletePage (s.coreMap f).virtPage else s
  (s.setHard f ⟨false, false, false⟩).pageFreeInt f none

end Pages

/-- A call that takes the monitor, what is left of one after a sleep, or an access through the hardware. -/
inductive PageStep where
  | getRefTime
  | pageFromFS (f : Nat)
  | putOnAllocList (v : VirtPage) (f : Nat)
  | allocateInt (v : VirtPage) (mayWait : Bool)
  | getReservePage (v : VirtPage)
  | reservePage (f : Nat)
  | freePage (f : Nat) (deleted : Bool)
  | resume (w : Waiter)
  | putOnDirtyList (f : Nat)
  | flushPage (v : VirtPage)
  | pageOut (proc : Option Nat) (status : SwapStatus)
  | recovery
  | clock
  | lock (f : Nat)
  | unlock (f : Nat)
  | finishPage (v : VirtPage) (f : Nat) (modified : Bool)
  | quickFault (v : VirtPage)
  | touch (f : Nat) (write : Bool)
  | killSegment (n : Nat)
  | newSegment (n : Nat)

namespace Pages

/-- That there is a process to do it: one with that frame, or one that has been woken. -/
def Ready (s : Pages) : PageStep → Prop
  | .putOnAllocList _ f => f ∈ s.inHand
  | .resume w => w ∈ s.waiters ∧ w.woken = true
  | .pageOut none _ => 0 < s.starting
  | .pageOut (some f) _ => f ∈ s.cleaning
  | _ => True

instance (s : Pages) : (l : PageStep) → Decidable (s.Ready l)
  | .putOnAllocList _ f => inferInstanceAs (Decidable (f ∈ s.inHand))
  | .resume w => inferInstanceAs (Decidable (w ∈ s.waiters ∧ w.woken = true))
  | .pageOut none _ => inferInstanceAs (Decidable (0 < s.starting))
  | .pageOut (some f) _ => inferInstanceAs (Decidable (f ∈ s.cleaning))
  | .getRefTime | .pageFromFS _ | .allocateInt _ _ | .getReservePage _ | .reservePage _
  | .freePage _ _ | .putOnDirtyList _ | .flushPage _ | .recovery | .clock | .lock _ | .unlock _
  | .finishPage _ _ _ | .quickFault _ | .touch _ _ | .killSegment _ | .newSegment _ =>
    inferInstanceAs (Decidable True)

def perform (P : PageParams) (s : Pages) : PageStep → Except Panic Pages
  | .getRefTime => .ok s.getRefTime
  | .pageFromFS f => .ok { s with inHand := s.inHand ++ [f] }
  | .putOnAllocList v f => .ok (s.putOnAllocList v f)
  | .allocateInt v mayWait => .ok (s.pageAllocateInt P v mayWait).1
  | .getReservePage v => .ok (s.getReservePage v)
  | .reservePage f => .ok (s.reservePage P f)
  | .freePage f deleted => s.freePage f deleted
  | .resume w => .ok (s.resume w)
  | .putOnDirtyList f => .ok (s.vmPutOnDirtyList P f)
  | .flushPage v => s.flushPage P v
  | .pageOut proc status => s.pageOutPutAndGet P proc status
  | .recovery => .ok (s.recovery P)
  | .clock => .ok (s.clock P)
  | .lock f => .ok (s.lockPage f)
  | .unlock f => s.unlockPage f
  | .finishPage v f modified => .ok (s.finishPage v f modified)
  | .quickFault v => .ok (s.quickFault v)
  | .touch f write => .ok (s.touch f write)
  | .killSegment n => .ok (s.killSegment n)
  | .newSegment n => .ok (s.newSegment n)

def step (P : PageParams) (s : Pages) (l : PageStep) : Option Pages :=
  if s.Ready l then (s.perform P l).toOption else none

/-- Memory before `VmCoreMapInit`: what is below `vmFirstFreePage` is the kernel's. -/
def blank : Pages where
  coreMap f := ⟨⟨sysSegPtr, f⟩, 1, false, false, false, false, false⟩
  lists _ := []
  numFreePages := 0
  numReservePages := 0
  numUserPages := 0
  numDirtyPages := 0
  numPageOutProcs := 0
  swapDown := false
  clockHand := 0
  pte _ := .zero
  segDead _ := false
  hard _ := ⟨false, false, false⟩
  starting := 0
  cleaning := []
  inHand := []
  waiters := []
  given _ := 0
  unsaved _ := false
  since _ := false

def coreMapInit (P : PageParams) : Pages :=
  (List.range' (P.firstFreePage + 3) (P.numPhysPages - (P.firstFreePage + 3))).foldl putOnFreeList
    ((List.range' P.firstFreePage 3).foldl putOnReserveList blank)

end Pages

end SpriteKernel.Vm
