import SpriteKernel.Vm.Types
import Mathlib.Data.Int.Init

/- How segments are made, forked and made larger (vmSeg.c). -/
namespace SpriteKernel.Vm
open Function

inductive Status where
  | success
  | wrongSegType
  | segTooLarge
  | noSegments
  deriving DecidableEq

/-- The heap and the stack of a process (`segPtrArray`). -/
structure ProcSegs where
  heap : Nat
  stack : Nat

structure State where
  segs : Nat → Segment
  procs : Nat → Option ProcSegs

/-- The size of a page table, in units of `vmPageTableInc`. -/
def Params.tableSize (m : Params) (numPages : Int) : Int := ((numPages - 1).tdiv m.pageTableInc + 1) * m.pageTableInc

/-- `Vm_SegmentNew` and `GetNewSegment`: the entries of a new table are zero. -/
def vmSegmentNew (m : Params) (type : SegType) (filePtr : Option Nat) (numPages offset : Int) (proc : Nat) : Segment :=
  let ptSize := if type = .code then numPages else m.tableSize numPages
  { type := type
    filePtr := filePtr
    -- the table of a stack grows backwards
    offset := if type = .stack then m.lastUserStackPage - ptSize + 1 else offset
    numPages := numPages
    ptSize := ptSize
    ptPtr := fun _ => .zero
    procList := [proc] }

/-- The entry of a page that `VmValidatePagesInt` makes a member of the segment, to be filled
    with zeroes. -/
def Segment.validPte (seg : Segment) : Pte :=
  match seg.type with
  | .code => { Pte.zero with virtRes := true, readOnly := true }
  | .shared => { Pte.zero with virtRes := true, onSwap := seg.filePtr.isNone }
  | _ => { Pte.zero with virtRes := true, zeroFill := true }

/-- `VmValidatePagesInt`, which keeps the entries that are valid. -/
def Segment.validatePages (seg : Segment) (first last : Int) : Segment :=
  { seg with
    ptPtr := fun i =>
      if first ≤ i + seg.offset ∧ i + seg.offset ≤ last ∧ (seg.ptPtr i).virtRes = false then seg.validPte else seg.ptPtr i }

/-- `VmSpace`: a page table that has been allocated, and what is in that memory. -/
structure Space where
  ptSize : Int
  ptPtr : Int → Pte

def allocMoreSpace (m : Params) (newNumPages : Int) (memory : Int → Pte) : Space := ⟨m.tableSize newNumPages, memory⟩

/-- The part of `AddToSeg` that takes the larger table. -/
def Segment.expand (seg : Segment) (new : Space) : Segment :=
  match seg.type with
  | .heap =>
    { seg with
      ptSize := new.ptSize
      ptPtr := fun i =>
        if 0 ≤ i ∧ i < seg.ptSize then seg.ptPtr i else if 0 ≤ i ∧ i < new.ptSize then .zero else new.ptPtr i }
  | .stack =>
    let diff := new.ptSize - seg.ptSize
    { seg with
      offset := seg.offset - diff
      ptSize := new.ptSize
      ptPtr := fun i =>
        if diff ≤ i ∧ i < new.ptSize then seg.ptPtr (i - diff) else if 0 ≤ i ∧ i < diff then .zero else new.ptPtr i }
  | _ => { seg with ptSize := new.ptSize, ptPtr := new.ptPtr }

/-- The segment in which `AddToSeg` validates pages. -/
def Segment.grow (seg : Segment) (newNumPages : Int) (new : Space) : Segment :=
  let larger := if newNumPages > seg.ptSize then seg.expand new else seg
  { larger with numPages := max larger.numPages newNumPages }

namespace State
variable (m : Params) (s : State)

def setSeg (n : Nat) (seg : Segment) : State := { s with segs := update s.segs n seg }

/-- What a segment of that size would run into: the stack of a process that shares it, or the asker's heap. -/
def collides (current n : Nat) (ptSize : Int) : Prop :=
  match (s.segs n).type with
  | .heap => ∃ q ∈ (s.segs n).procList, ∃ segs ∈ s.procs q, ptSize + (s.segs n).offset ≥ (s.segs segs.stack).offset
  | .stack => ∃ segs ∈ s.procs current,
      (s.segs segs.heap).offset + (s.segs segs.heap).ptSize ≥ m.lastUserStackPage - ptSize + 1
  | _ => False

instance (current n : Nat) (ptSize : Int) : Decidable (s.collides m current n ptSize) := by
  unfold collides
  split
  · infer_instance
  · infer_instance
  · infer_instance

/-- `AddToSeg`, in the name of a process. -/
def addToSeg (current n : Nat) (first last newNumPages : Int) (new : Space) : Status × State :=
  let seg := s.segs n
  if newNumPages > seg.ptSize ∧ s.collides m current n new.ptSize then (.segTooLarge, s)
  else (.success, s.setSeg n ((seg.grow newNumPages new).validatePages first last))

/-- `VmAddToSeg`. The table of the segment is its own from StartExpansion to EndExpansion. -/
def vmAddToSeg (current n : Nat) (first last : Int) (memory : Int → Pte) : Status × State :=
  match (s.segs n).type with
  | .code => (.wrongSegType, s)
  | .system => (.wrongSegType, s)
  | .stack =>
    let newNumPages := m.lastUserStackPage - first + 1
    s.addToSeg m current n first last newNumPages (allocMoreSpace m newNumPages memory)
  | _ =>
    let newNumPages := last - (s.segs n).offset + 1
    s.addToSeg m current n first last newNumPages (allocMoreSpace m newNumPages memory)

/-- A process gives up its segments (`VmSegmentDeleteInt`). -/
def leave (p : Nat) : State :=
  match s.procs p with
  | none => s
  | some old =>
    { segs := fun n =>
        if n = old.heap ∨ n = old.stack then { s.segs n with procList := (s.segs n).procList.erase p } else s.segs n
      procs := update s.procs p none }

/-- The set-up of an exec's new heap and new stack of one page, in free entries of the segment table. -/
def exec (p filePtr : Nat) (heapPages heapPageOffset : Int) (heap stack : Nat) : State :=
  let s := s.leave p
  let s := s.setSeg heap (vmSegmentNew m .heap (some filePtr) heapPages heapPageOffset p)
  let s := s.setSeg stack (vmSegmentNew m .stack none 1 m.lastUserStackPage p)
  { s with procs := update s.procs p (some ⟨heap, stack⟩) }

/-- `Vm_SegmentDup`: how large the copy is and where. -/
def vmSegmentDup (src : Segment) (p : Nat) : Segment := vmSegmentNew m src.type src.filePtr src.numPages src.offset p

def incRef (n p : Nat) : State := s.setSeg n { s.segs n with procList := p :: (s.segs n).procList }

def fork (parent : ProcSegs) (child : Nat) (shareHeap vforkFlag : Bool) (heap stack : Nat) : State :=
  let s := if vforkFlag then s.incRef parent.stack child else s.setSeg stack (vmSegmentDup m (s.segs parent.stack) child)
  let s :=
    if shareHeap || vforkFlag then s.incRef parent.heap child else s.setSeg heap (vmSegmentDup m (s.segs parent.heap) child)
  { s with
    procs := update s.procs child
      (some ⟨if shareHeap || vforkFlag then parent.heap else heap, if vforkFlag then parent.stack else stack⟩) }

/-- An entry of the segment table that no process has. -/
def Free (n : Nat) : Prop := ∀ p, ∀ segs ∈ s.procs p, segs.heap ≠ n ∧ segs.stack ≠ n

end State

end SpriteKernel.Vm
