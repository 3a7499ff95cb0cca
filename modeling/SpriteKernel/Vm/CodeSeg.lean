import SpriteKernel.Lib.Transition
import SpriteKernel.Vm.Types

/- The segment table and the sharing of code segments (vmSeg.c). A file handle points to the code segment set up from
   it; the pointer is NIL, or 0 during the set-up, or the segment. A step is what one process does with the monitor
   locked. -/
namespace SpriteKernel.Vm
open Function

/-- `*Fs_GetSegPtr(fileHandle)`. -/
inductive BackPtr where
  | nil
  | settingUp
  | seg (n : Nat)
  deriving DecidableEq

/-- The flags are `VM_SEG_FREE`, `VM_SEG_INACTIVE`, `VM_SEG_DEAD`, and `VM_DEBUGGED_SEG` or `VM_SEG_IO_ERROR`. -/
structure SegEntry where
  free : Bool
  inactive : Bool
  dead : Bool
  spoiled : Bool
  type : SegType
  refCount : Int
  procList : List Nat
  ptUserCount : Nat
  fileHandle : Option Nat
  filePtr : Option Nat
  deriving DecidableEq

inductive SegList where
  | free
  | inactive
  | dead
  deriving DecidableEq

/-- A process sleeps in FindCode for a stream's file, or is woken; has a segment to delete before `GetNewSegment` can
    use it; sleeps in VmSegmentDeleteInt until the page table is unused; or is to delete one. `cleaned`: `DeleteSeg`
    is done. -/
inductive Act where
  | none
  | sleeping (filePtr : Nat) (woken : Bool)
  | recycling (type : SegType) (filePtr : Option Nat) (n : Nat) (cleaned : Bool)
  | draining (n : Nat)
  | deleting (n : Nat) (cleaned : Bool)
  deriving DecidableEq

/-- The segments that a process has in its hands. -/
def Act.hand : Act → List Nat
  | .recycling _ _ n _ | .draining n | .deleting n _ => [n]
  | .none | .sleeping _ _ => []

/-- `setup` is the file whose set-up a process has begun: FindCode gave it no segment. -/
structure SegTable where
  seg : Nat → SegEntry
  lists : SegList → List Nat
  segPtr : Nat → BackPtr
  noStickySegments : Bool
  act : Nat → Act
  setup : Nat → Option Nat

/-- `vmNumSegments`, and `Fs_GetFileHandle` of the streams. -/
structure SegParams where
  numSegments : Nat
  getFileHandle : Nat → Nat

inductive SegPanic where
  | wrongFileHandle
  | notOnProcList
  | inUseModified
  | zeroPointer
  deriving DecidableEq

namespace SegTable
variable (P : SegParams) (s : SegTable)

def setSeg (n : Nat) (e : SegEntry) : SegTable := { s with seg := update s.seg n e }

def setSegPtr (h : Nat) (b : BackPtr) : SegTable := { s with segPtr := update s.segPtr h b }

def setAct (p : Nat) (a : Act) : SegTable := { s with act := update s.act p a }

def setSetup (p : Nat) (h : Option Nat) : SegTable := { s with setup := update s.setup p h }

/-- `List_Remove`: a segment has one pair of links. -/
def listRemove (n : Nat) : SegTable := { s with lists := fun l => (s.lists l).erase n }

def insertRear (l : SegList) (n : Nat) : SegTable :=
  { s with lists := update s.lists l (s.lists l ++ [n]) }

/-- A process comes to share a segment. -/
def share (n p : Nat) : SegTable :=
  s.setSeg n { s.seg n with refCount := (s.seg n).refCount + 1, procList := p :: (s.seg n).procList }

/-- `FindCode`. A process that is given no segment is to set one up. -/
def findCode (p filePtr : Nat) : Except SegPanic SegTable :=
  let h := P.getFileHandle filePtr
  if s.noStickySegments then .ok (((s.setSegPtr h .settingUp).setSetup p (some h)).setAct p .none)
  else match s.segPtr h with
  | .nil => .ok (((s.setSegPtr h .settingUp).setSetup p (some h)).setAct p .none)
  | .settingUp => .ok (s.setAct p (.sleeping filePtr false))
  | .seg n =>
    if (s.seg n).inactive then
      if (s.seg n).fileHandle ≠ some h then .error .wrongFileHandle
      else
        let s := s.listRemove n
        let s := s.setSeg n { s.seg n with inactive := false, filePtr := some filePtr }
        .ok ((s.share n p).setAct p .none)
    else .ok ((s.share n p).setAct p .none)

/-- `Sync_Broadcast(&codeSegCondition)`. -/
def broadcast : SegTable :=
  { s with act := fun p => match s.act p with
      | .sleeping filePtr _ => .sleeping filePtr true
      | a => a }

def initCode (p filePtr : Nat) (segPtr : Option Nat) : SegTable :=
  let h := P.getFileHandle filePtr
  let s := s.setSetup p none
  match segPtr with
  | none => (s.setSegPtr h .nil).broadcast
  | some n => (s.setSegPtr h (.seg n)).setSeg n { s.seg n with fileHandle := some h }

/-- `GetNewSegment` initializes the segment. -/
def initSegment (p : Nat) (type : SegType) (filePtr : Option Nat) (n : Nat) : SegTable :=
  s.setSeg n { s.seg n with
    fileHandle := none, free := false, inactive := false, dead := false, spoiled := false
    refCount := 1, filePtr := filePtr, type := type, procList := p :: (s.seg n).procList }

/-- `GetNewSegment` of a process that has no segment yet. -/
def getNewSegment (p : Nat) (type : SegType) (filePtr : Option Nat) : SegTable :=
  match s.lists .dead, s.lists .free, s.lists .inactive with
  | n :: _, _, _ => (s.listRemove n).setAct p (.recycling type filePtr n false)
  | [], n :: _, _ => (s.listRemove n).initSegment p type filePtr n
  | [], [], n :: _ => (s.listRemove n).setAct p (.recycling type filePtr n false)
  | [], [], [] => s

/-- `CleanSegment`, and what `DeleteSeg` does to the object file. -/
def cleanSegment (n : Nat) : SegTable :=
  let s := match (s.seg n).fileHandle with
    | some h => s.setSegPtr h .nil
    | none => s
  s.setSeg n { s.seg n with dead := true, fileHandle := none, filePtr := none }

/-- What is left of `VmSegmentDeleteInt` when nobody uses the page table. -/
def deleteRest (p n : Nat) : SegTable :=
  let e := s.seg n
  if !s.noStickySegments && e.type == .code && !e.spoiled then
    ((s.setSeg n { e with inactive := true, filePtr := none }).insertRear .inactive n).setAct p .none
  else s.setAct p (.deleting n false)

/-- `VmSegmentDeleteInt`, of a segment that is not being migrated. -/
def segmentDeleteInt (p n : Nat) : Except SegPanic SegTable :=
  let e := s.seg n
  if p ∉ e.procList then .error .notOnProcList
  else
    let s := s.setSeg n { e with refCount := e.refCount - 1, procList := e.procList.erase p }
    if (s.seg n).refCount > 0 then .ok s
    else if (s.seg n).ptUserCount > 0 then .ok (s.setAct p (.draining n))
    else .ok (s.deleteRest p n)

def putOnFreeSegList (n : Nat) : SegTable :=
  (s.setSeg n { s.seg n with free := true, inactive := false, dead := false, spoiled := false }).insertRear .free n

/-- `Vm_FileChanged`. It follows the pointer of a file that is being set up. -/
def fileChanged (h : Nat) : Except SegPanic SegTable :=
  match s.segPtr h with
  | .seg n =>
    if (s.seg n).refCount ≠ 0 then .error .inUseModified
    else
      let s := (s.listRemove n).insertRear .dead n
      .ok ((s.setSegPtr h .nil).setSeg n { s.seg n with fileHandle := none })
  | .settingUp => .error .zeroPointer
  | .nil => .ok s

end SegTable

/-- `again`: a process woken in FindCode; others that name only a process go on with what it does. -/
inductive SegStep where
  | findCode (p filePtr : Nat)
  | again (p : Nat)
  | initCode (p filePtr : Nat) (segPtr : Option Nat)
  | segmentNew (p : Nat) (type : SegType) (filePtr : Option Nat)
  | segmentDelete (p n : Nat)
  | drained (p : Nat)
  | cleanSegment (p : Nat)
  | newAgain (p : Nat)
  | putOnFree (p : Nat)
  | segmentIncRef (p n : Nat)
  | incPTUserCount (n : Nat)
  | decPTUserCount (n : Nat)
  | spoil (n : Nat)
  | fileChanged (h : Nat)
  | noSticky (b : Bool)

namespace SegTable

def perform (P : SegParams) (s : SegTable) : SegStep → Option (Except SegPanic SegTable)
  | .findCode p filePtr => if s.act p = .none then some (s.findCode P p filePtr) else none
  | .again p =>
    match s.act p with
    | .sleeping filePtr true => some (s.findCode P p filePtr)
    | _ => none
  | .initCode p filePtr segPtr => if s.act p = .none then some (.ok (s.initCode P p filePtr segPtr)) else none
  | .segmentNew p type filePtr => if s.act p = .none then some (.ok (s.getNewSegment p type filePtr)) else none
  | .segmentDelete p n => if s.act p = .none then some (s.segmentDeleteInt p n) else none
  | .drained p =>
    match s.act p with
    | .draining n => if (s.seg n).ptUserCount = 0 then some (.ok (s.deleteRest p n)) else none
    | _ => none
  | .cleanSegment p =>
    match s.act p with
    | .recycling type filePtr n false => some (.ok ((s.cleanSegment n).setAct p (.recycling type filePtr n true)))
    | .deleting n false => some (.ok ((s.cleanSegment n).setAct p (.deleting n true)))
    | _ => none
  | .newAgain p =>
    match s.act p with
    | .recycling type filePtr n true => some (.ok ((s.initSegment p type filePtr n).setAct p .none))
    | _ => none
  | .putOnFree p =>
    match s.act p with
    | .deleting n true => some (.ok ((s.putOnFreeSegList n).setAct p .none))
    | _ => none
  | .segmentIncRef p n => some (.ok (s.share n p))
  | .incPTUserCount n => some (.ok (s.setSeg n { s.seg n with ptUserCount := (s.seg n).ptUserCount + 1 }))
  | .decPTUserCount n => some (.ok (s.setSeg n { s.seg n with ptUserCount := (s.seg n).ptUserCount - 1 }))
  | .spoil n => some (.ok (s.setSeg n { s.seg n with spoiled := true }))
  | .fileChanged h => some (s.fileChanged h)
  | .noSticky b => some (.ok { s with noStickySegments := b })

def step (P : SegParams) (s : SegTable) (l : SegStep) : Option SegTable :=
  (s.perform P l).bind Except.toOption

/-- `VmSegTableInit`: segment 0 is the system's. -/
def segTableInit (P : SegParams) : SegTable where
  seg n :=
    if n = 0 then ⟨false, false, false, false, .system, 1, [], 0, none, none⟩
    else ⟨true, false, false, false, .code, 0, [], 0, none, none⟩
  lists l :=
    match l with
    | .free => List.range' 1 (P.numSegments - 1)
    | .inactive | .dead => []
  segPtr _ := .nil
  noStickySegments := false
  act _ := .none
  setup _ := none

end SegTable

end SpriteKernel.Vm
