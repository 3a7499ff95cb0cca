import Mathlib.Logic.Function.Basic
import SpriteKernel.Lib.Transition

/- The kernel's storage allocator (memory.c), without MEM_TRACE. Memory is the word at each word-aligned address; a
   step is told which region MemChunkAlloc supplies. Sizes fit an `int`. A difference of addresses may not, but comes
   out right when added to the address it was taken from, so words are integers here. -/
namespace SpriteKernel.Mem
open Function

def adminInfo : Int := 8

def binSize : Int := 4199

def minRegionSize : Int := 2048

def nil : Int := -1

def isInUse (admin : Int) : Bool := admin % 2 == 1

def adminBits (admin : Int) : Int := admin % 4

/-- SIZE and MARK_FREE. -/
def sizeOf (admin : Int) : Int := admin - admin % 4

def markDummy (admin : Int) : Int := admin - admin % 4 + 3

def markInUse (admin : Int) : Int := if admin % 2 = 1 then admin else admin + 1

def bytesToBlocksize (bytes : Nat) : Int := (bytes + 7 + adminInfo) / 8 * 8

def blocksizeToIndex (size : Int) : Nat := (size / 8).toNat

/-- Where the arrays `_first` and `_last` are. -/
structure Statics where
  firstArray : Int
  lastArray : Int
  apart : firstArray + 12 ≤ lastArray ∨ lastArray + 12 ≤ firstArray

/-- The first word-aligned address from `a` on. -/
def align (a : Int) : Int := a + 3 - (a + 3) % 4

def Statics.first (P : Statics) : Int := align P.firstArray

def Statics.last (P : Statics) : Int := align P.lastArray

/-- History: the regions supplied, the large-object allocator's, and of every block in use the bytes asked for and
    whether a bin had it. -/
structure Memory where
  mem : Int → Int
  freeLists : Nat → Int
  numBlocks : Nat → Int
  currentPtr : Int
  largestFree : Int
  numLargeBytes : Int
  numAllocs : Nat
  numLargeAllocs : Nat
  regions : List (Int × Int)
  largeRegions : List (Int × Int)
  used : Int → Option (Nat × Bool)

namespace Memory
variable (P : Statics) (s : Memory)

def setAdmin (a value : Int) : Memory := { s with mem := update s.mem a value }

/-- `Init`; sizes up to SMALL_SIZE are binned. -/
def init (mem : Int → Int) : Memory where
  mem := update (update mem P.first (markDummy (P.last - P.first))) P.last (markDummy 0)
  freeLists := fun _ => nil
  numBlocks := fun i => if i < 34 then 0 else -1
  currentPtr := P.first
  largestFree := 0
  numLargeBytes := 0
  numAllocs := 0
  numLargeAllocs := 0
  regions := []
  largeRegions := []
  used := fun _ => none

def bin (numBytes : Nat) : Option Memory :=
  if s.numAllocs > 0 then none
  else
    let numBytes := bytesToBlocksize numBytes
    if numBytes > binSize then some s
    else if s.numBlocks (blocksizeToIndex numBytes) ≥ 0 then some s
    else some { s with numBlocks := update s.numBlocks (blocksizeToIndex numBytes) 0 }

def binned (size : Int) : Bool := size ≤ binSize && s.numBlocks (blocksizeToIndex size) != -1

def push (index : Nat) (a : Int) : Memory :=
  { s.setAdmin a (s.freeLists index) with freeLists := update s.freeLists index a }

/-- The loop that cuts a new region into blocks of a bin; `n` bounds how often it goes round. -/
def carve (index : Nat) (size : Int) : Nat → Memory → Int → Int → Memory × Int × Int
  | 0, s, newRegion, regionSize => (s, newRegion, regionSize)
  | n + 1, s, newRegion, regionSize =>
    if regionSize ≥ size then
      let s := s.push index newRegion
      carve index size n { s with numBlocks := update s.numBlocks index (s.numBlocks index + 1) } (newRegion + size)
        (regionSize - size)
    else (s, newRegion, regionSize)

/-- How many blocks a bin gets at once. -/
def blocksAtOnce (index : Nat) : Int :=
  if s.numBlocks index < 16 then (s.numBlocks index / 4 + 1) * 4 else 16

/-- A new region for a bin; what is left over goes to the smallest size. -/
def fillBin (index : Nat) (size : Int) (chunk : Int × Int) : Memory :=
  let s := { s with regions := chunk :: s.regions }
  let (s, newRegion, regionSize) := carve index size chunk.2.toNat s chunk.1 chunk.2
  (carve 2 16 regionSize.toNat s newRegion regionSize).1

def pop (index : Nat) (size : Int) : Option (Memory × Int) :=
  let result := s.freeLists index
  if result = nil then none
  else some ({ s with freeLists := update s.freeLists index (s.mem result) }.setAdmin result (markInUse size), result)

def mallocBinned (size : Int) (chunk : Option (Int × Int)) : Option (Memory × Int) :=
  let index := blocksizeToIndex size
  if s.freeLists index = nil then chunk.bind fun c => (s.fillBin index size c).pop index size
  else s.pop index size

/-- The loop that merges the free blocks after `currentPtr` with it. -/
def merge : Nat → Memory → Int → Option (Memory × Int)
  | 0, _, _ => none
  | n + 1, s, size =>
    let nextPtr := s.currentPtr + size
    if isInUse (s.mem nextPtr) then some (s, size)
    else
      let size := size + sizeOf (s.mem nextPtr)
      merge n (s.setAdmin s.currentPtr (sizeOf size)) size

/-- A region for large objects: merged with the last one that it follows, or linked to `currentPtr`'s block. -/
def addRegion (chunk : Int × Int) : Memory :=
  let s := { s with
    regions := chunk :: s.regions
    largeRegions := chunk :: s.largeRegions
    numLargeBytes := s.numLargeBytes + chunk.2 }
  if chunk.1 = s.currentPtr + adminInfo then
    let size := chunk.2 + adminInfo - adminInfo
    (s.setAdmin s.currentPtr (sizeOf size)).setAdmin (s.currentPtr + size) (markDummy (P.last - (s.currentPtr + size)))
  else
    let size := chunk.2 - adminInfo
    ((s.setAdmin s.currentPtr (markDummy (chunk.1 - s.currentPtr))).setAdmin chunk.1 (sizeOf size)).setAdmin (chunk.1 + size)
      (markDummy (P.last - (chunk.1 + size)))

/-- The search for a free block of `numBytes`: the size of the one it stops at. -/
def search (numBytes : Int) : Nat → Memory → Option (Int × Int) → Option (Memory × Int)
  | 0, _, _ => none
  | n + 1, s, chunk =>
    let admin := s.mem s.currentPtr
    if isInUse admin then
      let nextPtr := s.currentPtr + sizeOf admin
      if nextPtr ≠ P.last then search numBytes n { s with currentPtr := nextPtr } chunk
      else if s.largestFree > numBytes then search numBytes n { s with largestFree := 0, currentPtr := P.first } chunk
      else chunk.bind fun c => search numBytes n (s.addRegion P c) none
    else (merge n s (sizeOf admin)).bind fun (s, size) =>
      if size ≥ numBytes then some (s, size)
      else
        let s := { s with largestFree := if size > s.largestFree then size else s.largestFree }
        let nextPtr := s.currentPtr + size
        if nextPtr ≠ P.last then search numBytes n { s with currentPtr := nextPtr } chunk
        else if s.largestFree > numBytes then search numBytes n { s with largestFree := 0, currentPtr := P.first } chunk
        else chunk.bind fun c => search numBytes n (s.addRegion P c) none

/-- The block at `currentPtr` is allocated, and what is over is a free block again. -/
def allocate (numBytes size : Int) : Memory :=
  if size = numBytes then s.setAdmin s.currentPtr (markInUse (s.mem s.currentPtr))
  else (s.setAdmin (s.currentPtr + numBytes) (sizeOf (size - numBytes))).setAdmin s.currentPtr (markInUse numBytes)

def mallocLarge (numBytes : Int) (chunk : Option (Int × Int)) (fuel : Nat) : Option (Memory × Int) :=
  let s := { s with
    numLargeAllocs := s.numLargeAllocs + 1
    currentPtr := s.currentPtr + sizeOf (s.mem s.currentPtr) }
  (search P numBytes fuel s chunk).map fun (s, size) => (s.allocate numBytes size, s.currentPtr)

/-- What `malloc` asks MemChunkAlloc for, if it does. -/
def asked (numBytes : Nat) : Int :=
  let size := bytesToBlocksize numBytes
  if s.binned size then s.blocksAtOnce (blocksizeToIndex size) * size
  else if size < minRegionSize then minRegionSize
  else size + adminInfo

/-- `malloc`; `chunk` is what MemChunkAlloc would supply, and `fuel` bounds the loops of the search. -/
def malloc (numBytes : Nat) (chunk : Option (Int × Int)) (fuel : Nat) : Option Memory :=
  let s := { s with numAllocs := s.numAllocs + 1 }
  let size := bytesToBlocksize numBytes
  let binned := s.binned size
  (if binned then s.mallocBinned size chunk else s.mallocLarge P size chunk fuel).map fun (s, result) =>
    { s with used := update s.used (result + adminInfo) (some (numBytes, binned)) }

/-- `_free`, which panics where the block is not in use. -/
def free (blockPtr : Int) : Option Memory :=
  let a := blockPtr - adminInfo
  let admin := s.mem a
  if adminBits admin ≠ 1 then none
  else
    let size := sizeOf admin
    let t :=
      if s.binned size then s.push (blocksizeToIndex size) a
      else { s.setAdmin a (sizeOf admin) with largestFree := s.numLargeBytes }
    some { t with used := update s.used blockPtr none }

end Memory

/-- A call of the allocator, or a store into a block by who has it. -/
inductive MemStep where
  | bin (numBytes : Nat)
  | malloc (numBytes : Nat) (chunk : Option (Int × Int)) (fuel : Nat)
  | free (blockPtr : Int)
  | store (blockPtr off value : Int)

namespace Memory

def step (P : Statics) (s : Memory) : MemStep → Option Memory
  | .bin numBytes => s.bin numBytes
  | .malloc numBytes chunk fuel => s.malloc P numBytes chunk fuel
  | .free blockPtr => s.free blockPtr
  | .store blockPtr off value => some (s.setAdmin (blockPtr + off) value)

end Memory
end SpriteKernel.Mem
