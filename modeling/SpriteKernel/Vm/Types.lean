import SpriteKernel.Lib.Update

/- The data of virtual memory (vm.h, vmInt.h) as far as page tables go. -/
namespace SpriteKernel.Vm

/-- `Vm_PTE`: the bits of a page table entry and its page frame field. -/
structure Pte where
  virtRes : Bool
  physRes : Bool
  zeroFill : Bool
  onSwap : Bool
  inProgress : Bool
  cor : Bool
  cow : Bool
  referenced : Bool
  modified : Bool
  readOnly : Bool
  corCheck : Bool
  pageFrame : Nat
  deriving DecidableEq

def Pte.zero : Pte := ⟨false, false, false, false, false, false, false, false, false, false, false, 0⟩

inductive SegType where
  | code
  | heap
  | stack
  | shared
  | system
  deriving DecidableEq

/-- What is used of `Vm_Segment`. The page table is the memory from `ptPtr` on, its first `ptSize` entries. -/
structure Segment where
  type : SegType
  filePtr : Option Nat
  offset : Int
  numPages : Int
  ptSize : Int
  ptPtr : Int → Pte
  procList : List Nat

/-- `mach_LastUserStackPage` and `vmPageTableInc`. -/
structure Params where
  lastUserStackPage : Int
  pageTableInc : Int
  inc_pos : 0 < pageTableInc

namespace Segment

/-- The entry that `VmGetPTEPtr` points to. -/
def pte (seg : Segment) (page : Int) : Pte := seg.ptPtr (page - seg.offset)

/-- The lowest and the highest page that can be accessed. -/
def firstPage (m : Params) (seg : Segment) : Int :=
  if seg.type = .stack then m.lastUserStackPage - seg.numPages + 1 else seg.offset

def lastPage (m : Params) (seg : Segment) : Int := seg.firstPage m + seg.numPages - 1

end Segment

end SpriteKernel.Vm
