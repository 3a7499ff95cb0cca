import Mathlib.Data.List.Nodup
import SpriteKernel.Fs.Types
import SpriteKernel.Lib.Update
import SpriteKernel.Lib.Transition

/- The table of file handles (fsutilHandle.c). A step is what one process does with the monitor
   locked: up to where it sleeps for a handle's lock or for the end of an LRU scan, or leaves.
   Memory is what handles there are at which address. -/
namespace SpriteKernel.Fsutil
open Function

/-- What is used of `Fs_HandleHeader`, with FS_HANDLE_LOCKED, _REMOVED and _INVALID; `onLru`: `lruLinks` is not NIL. -/
structure HandleHeader where
  fileID : FileId
  locked : Bool
  removed : Bool
  invalid : Bool
  refCount : Int
  onLru : Bool
  deriving DecidableEq

/-- A process sleeps in LOCK_HANDLE, in Fsutil_HandleFetch or HandleInstallInt, or for the end of an LRU scan; or is
    in Fsutil_HandleInstall between two monitored routines, or scanning there. -/
inductive Act where
  | idle
  | lockWait (h : Nat) (dup woken : Bool)
  | fetchWait (id : FileId) (h : Nat) (install woken : Bool)
  | installWait (id : FileId) (cantBlock : Bool) (limit : Int) (h : Nat) (woken : Bool)
  | lruWait (id : FileId) (cantBlock : Bool) (limit : Int) (woken : Bool)
  | again (id : FileId) (cantBlock : Bool)
  | installing (id : FileId) (cantBlock : Bool)
  | scanning (id : FileId) (cantBlock : Bool)
  deriving DecidableEq

/-- `exist`: `fs_Stats.handle.exists`. History: who has which references and locks; whether a scan took for a handle
    what is none. -/
structure Handles where
  hdr : Nat → Option HandleHeader
  fileHashTable : FileId → Option Nat
  lruList : List Nat
  exist : Int
  limbo : Int
  lruEntries : Int
  maxNumber : Int
  lruInProgress : Bool
  lruHandlesChecked : Int
  shuttingDown : Bool
  act : Nat → Act
  refs : List (Nat × Nat)
  locks : List (Nat × Nat)
  wild : Bool

/-- `FS_HANDLE_TABLE_SIZE` at first. -/
def Handles.init : Handles :=
  ⟨fun _ => none, fun _ => none, [], 0, 0, 0, 400, false, 0, false, fun _ => .idle, [], [], false⟩

/-- Which types of files have a scavenging routine. -/
structure HandleParams where
  scavenge : Int → Bool

namespace Handles
variable (P : HandleParams) (s : Handles)

def setHdr (a : Nat) (x : Option HandleHeader) : Handles := { s with hdr := update s.hdr a x }

def setAct (p : Nat) (b : Act) : Handles := { s with act := update s.act p b }

/-- `Sync_Broadcast(&hdrPtr->unlocked)`. -/
def broadcast (a : Nat) : Handles :=
  { s with act := fun p => match s.act p with
      | .lockWait h dup w => .lockWait h dup (w || h == a)
      | .fetchWait id h install w => .fetchWait id h install (w || h == a)
      | .installWait id cantBlock limit h w => .installWait id cantBlock limit h (w || h == a)
      | b => b }

/-- `Sync_Broadcast(&lruDone)`. -/
def broadcastLru : Handles :=
  { s with act := fun p => match s.act p with
      | .lruWait id cantBlock limit _ => .lruWait id cantBlock limit true
      | b => b }

def lockHandle (p a : Nat) (x : HandleHeader) : Handles :=
  { s.setHdr a (some { x with locked := true }) with locks := (p, a) :: s.locks }

def unlockHandle (p a : Nat) (x : HandleHeader) : Handles :=
  ({ s.setHdr a (some { x with locked := false }) with locks := s.locks.erase (p, a) }).broadcast a

def addRefs (p a : Nat) (x : HandleHeader) (n : Nat) : Handles :=
  { s.setHdr a (some { x with refCount := x.refCount + n }) with refs := List.replicate n (p, a) ++ s.refs }

def dropRef (p a : Nat) (x : HandleHeader) : Handles :=
  { s.setHdr a (some { x with refCount := x.refCount - 1 }) with refs := s.refs.erase (p, a) }

def moveHandle (a : Nat) (x : HandleHeader) : Handles :=
  if x.onLru then { s with lruList := s.lruList.erase a ++ [a] } else s

/-- REMOVE_HANDLE: the memory of the handle is freed. -/
def removeHandle (a : Nat) (x : HandleHeader) : Handles :=
  let s := if x.onLru then { s with lruList := s.lruList.erase a, lruEntries := s.lruEntries - 1 } else s
  s.setHdr a none

def takeHandle (p a : Nat) (x : HandleHeader) : Handles :=
  let s := (s.moveHandle a x).addRefs p a x 1
  s.lockHandle p a { x with refCount := x.refCount + 1 }

/-- `Fsutil_HandleFetch` and `_HandleFetchNoWait`; `install`: called from Fsutil_HandleInstall, which goes on without
    a handle. -/
def handleFetch (p : Nat) (id : FileId) (install cantBlock : Bool) : Option Handles :=
  match s.fileHashTable id with
  | none => some (s.setAct p (if install then .installing id cantBlock else .idle))
  | some a => (s.hdr a).map fun x =>
    if x.locked then s.setAct p (if cantBlock then .idle else .fetchWait id a install false)
    else (s.takeHandle p a x).setAct p .idle

def newHandle (p : Nat) (id : FileId) (a : Nat) : Handles :=
  let onLru := P.scavenge id.type
  { s with
    hdr := update s.hdr a (some ⟨id, true, false, false, 1, onLru⟩)
    fileHashTable := update s.fileHashTable id (some a)
    lruList := if onLru then s.lruList ++ [a] else s.lruList
    lruEntries := if onLru then s.lruEntries + 1 else s.lruEntries
    exist := s.exist + 1
    refs := (p, a) :: s.refs
    locks := (p, a) :: s.locks }

/-- `HandleInstallInt`; `addr` is where `malloc` has put the new handle. -/
def handleInstallInt (p : Nat) (id : FileId) (cantBlock : Bool) (limit : Int) (addr : Nat) : Option Handles :=
  match s.fileHashTable id with
  | none =>
    if s.exist ≥ limit then
      if s.lruInProgress then some (s.setAct p (.lruWait id cantBlock limit false))
      else some ({ s with lruInProgress := true, lruHandlesChecked := 0 }.setAct p (.scanning id cantBlock))
    else if (s.hdr addr).isSome then none
    else some ((s.newHandle P p id addr).setAct p .idle)
  | some a => (s.hdr a).map fun x =>
    if x.locked then s.setAct p (.installWait id cantBlock limit a false) else (s.takeHandle p a x).setAct p .idle

/-- LOCK_HANDLE, in `Fsutil_HandleLock` and `Fsutil_HandleDup`. -/
def handleLock (p a : Nat) (dup : Bool) : Option Handles :=
  (s.hdr a).map fun x =>
    if x.locked && !s.shuttingDown then s.setAct p (.lockWait a dup false)
    else if dup then (s.takeHandle p a x).setAct p .idle
    else (s.lockHandle p a x).setAct p .idle

def handleUnlock (p a : Nat) : Option Handles :=
  (s.hdr a).bind fun x => if x.locked then some (s.unlockHandle p a x) else none

def handleRelease (p a : Nat) (locked : Bool) : Option Handles :=
  (s.hdr a).bind fun x =>
    if locked && !x.locked then none
    else
      let s := s.dropRef p a x
      let x := { x with refCount := x.refCount - 1 }
      if x.refCount < 0 then none
      else if x.refCount = 0 ∧ x.removed then
        some { s.removeHandle a x with limbo := s.limbo - 1, locks := if locked then s.locks.erase (p, a) else s.locks }
      else some (if locked then s.unlockHandle p a x else s)

def handleIncRefCount (p a n : Nat) : Option Handles := (s.hdr a).map fun x => s.addRefs p a x n

def handleDecRefCount (p a : Nat) : Option Handles := (s.hdr a).map fun x => s.dropRef p a x

def handleRemoveInt (p a : Nat) (x : HandleHeader) : Option Handles :=
  if !x.invalid && (s.fileHashTable x.fileID).isNone then none
  else
    let s := if x.invalid then s else { s with fileHashTable := update s.fileHashTable x.fileID none }
    let s := { s with exist := s.exist - 1 }.unlockHandle p a x
    let x := { x with locked := false }
    if x.refCount > 0 then some { s.setHdr a (some { x with removed := true }) with limbo := s.limbo + 1 }
    else some (s.removeHandle a x)

def handleRemove (p a : Nat) : Option Handles := (s.hdr a).bind fun x => s.handleRemoveInt p a x

def handleAttemptRemove (p a : Nat) : Option Handles :=
  (s.hdr a).bind fun x => if x.refCount = 0 then s.handleRemoveInt p a x else some (s.unlockHandle p a x)

def handleInvalidate (a : Nat) : Option Handles :=
  (s.hdr a).bind fun x =>
    if x.invalid then some s
    else if (s.fileHashTable x.fileID).isNone then none
    else
      let id := { x.fileID with minor := -x.fileID.minor }
      some { s with
        hdr := update s.hdr a (some { x with invalid := true, fileID := id })
        fileHashTable := update s.fileHashTable x.fileID none }

/-- `Fsutil_GetNextHandle` comes to the handle at `a`, of the table; it skips those that are locked. -/
def getNextHandle (p a : Nat) : Option Handles :=
  (s.hdr a).bind fun x =>
    if s.fileHashTable x.fileID = some a ∧ !x.locked ∧ !x.invalid ∧ !x.removed then some (s.lockHandle p a x) else none

/-- The scan of GetNextLRUHandle over the list, with how many handles may be checked yet. -/
def scanLRU (busy : Nat → Bool) : Nat → List Nat → Option (Nat × List Nat × Option Nat)
  | 0, l => some (0, l, none)
  | _ + 1, [] => none
  | n + 1, a :: l => if busy a then scanLRU busy n (l ++ [a]) else some (n, l ++ [a], some a)

/-- `GetNextLRUHandle`. On an empty list it takes the list header for a handle. -/
def getNextLRUHandle (p : Nat) : Handles :=
  let busy := fun a => (s.hdr a).any fun x => x.removed || x.locked
  match scanLRU busy (s.maxNumber - s.lruHandlesChecked).toNat s.lruList with
  | none => { s with wild := true }
  | some (n, l, found) =>
    let s := { s with
      lruList := l
      lruHandlesChecked := if s.lruHandlesChecked < s.maxNumber then s.maxNumber - n else s.lruHandlesChecked }
    match found with
    | none => s
    | some a => match s.hdr a with
      | some x => s.lockHandle p a x
      | none => { s with wild := true }

/-- `DoneLRU`; the table grows by `LIMIT_INC`. -/
def doneLRU (numScavenged : Nat) : Handles :=
  { s with
    maxNumber := if numScavenged = 0 then s.maxNumber + 100 else s.maxNumber
    lruInProgress := false }.broadcastLru

end Handles

/-- What a process `p` does; a reference may also change hands. -/
inductive HandleStep where
  | fetch (p : Nat) (id : FileId) (noWait : Bool)
  | install (p : Nat) (id : FileId) (cantBlock : Bool)
  | goOn (p addr : Nat)
  | lock (p a : Nat) (dup : Bool)
  | unlock (p a : Nat)
  | release (p a : Nat) (locked : Bool)
  | incRefCount (p a n : Nat)
  | decRefCount (p a : Nat)
  | remove (p a : Nat)
  | attemptRemove (p a : Nat)
  | invalidate (p a : Nat)
  | getNextHandle (p a : Nat)
  | getNextLRUHandle (p : Nat)
  | doneLRU (p numScavenged : Nat)
  | give (p q a : Nat)
  | shutDown

namespace Handles
variable (P : HandleParams) (s : Handles)

/-- A process that can call the routines: a scavenging routine is called in the midst of a scan. -/
def awake (p : Nat) : Bool :=
  match s.act p with
  | .idle | .scanning _ _ => true
  | _ => false

/-- A process goes on: where it was woken, or in the loop of Fsutil_HandleInstall. -/
def goOn (p addr : Nat) : Option Handles :=
  match s.act p with
  | .lockWait h dup true => s.handleLock p h dup
  | .fetchWait id _ install true => s.handleFetch p id install false
  | .installWait id cantBlock limit _ true | .lruWait id cantBlock limit true => s.handleInstallInt P p id cantBlock limit addr
  | .again id cantBlock => s.handleFetch p id true cantBlock
  | .installing id cantBlock => s.handleInstallInt P p id cantBlock s.maxNumber addr
  | _ => none

def step (s : Handles) : HandleStep → Option Handles
  | .fetch p id noWait => if s.act p = .idle then s.handleFetch p id false noWait else none
  | .install p id cantBlock => if s.act p = .idle then s.handleFetch p id true cantBlock else none
  | .goOn p addr => s.goOn P p addr
  | .lock p a dup => if s.act p = .idle then s.handleLock p a dup else none
  | .unlock p a => if s.awake p then s.handleUnlock p a else none
  | .release p a locked => if s.awake p then s.handleRelease p a locked else none
  | .incRefCount p a n => if s.awake p then s.handleIncRefCount p a n else none
  | .decRefCount p a => if s.awake p then s.handleDecRefCount p a else none
  | .remove p a => if s.awake p then s.handleRemove p a else none
  | .attemptRemove p a => if s.awake p then s.handleAttemptRemove p a else none
  | .invalidate p a => if s.awake p then s.handleInvalidate a else none
  | .getNextHandle p a => if s.act p = .idle then s.getNextHandle p a else none
  | .getNextLRUHandle p =>
    match s.act p with
    | .scanning _ _ => some (s.getNextLRUHandle p)
    | _ => none
  | .doneLRU p numScavenged =>
    match s.act p with
    | .scanning id cantBlock => some ((s.doneLRU numScavenged).setAct p (.again id cantBlock))
    | _ => none
  | .give p q a =>
    if s.awake p ∧ (p, a) ∈ s.refs then some { s with refs := (q, a) :: s.refs.erase (p, a) } else none
  | .shutDown => some { s with shuttingDown := true }

end Handles
end SpriteKernel.Fsutil
