import Mathlib.Logic.Function.Basic
import Mathlib.Data.Nat.Basic

/- The allocation of blocks and fragments of a disk (ofsAlloc.c). Two blocks of four fragments have a byte of the
   bitmap, its bits numbered as in `bitMasks`, from the highest on. The byte of an odd block at the end of a cylinder
   has four bits of padding. -/
namespace SpriteKernel.Ofs
open Function

abbrev Byte := BitVec 8

/-- `fragTable`: by which fragments of a block are in use, where there is room for one, two
    and three. -/
def fragTable : List (List Int) :=
  [[-1, -1, -1], [-1, -1, 0], [3, 0, -1], [-1, 0, -1], [0, 2, -1], [0, -1, -1], [0, -1, -1], [0, -1, -1],
    [-1, -1, 1], [-1, 1, -1], [1, -1, -1], [1, -1, -1], [-1, 2, -1], [2, -1, -1], [3, -1, -1], [-1, -1, -1]]

def fragOffsets (mask k : Nat) : Int := (fragTable.getD mask []).getD k (-1)

def bitMask (i : Nat) : Byte := 0x80#8 >>> i

/-- The bits of a number of fragments. -/
def fragBits (byteOffset numFrags : Nat) : Byte := (List.range numFrags).foldl (fun mask i => mask ||| bitMask (byteOffset + i)) 0

def upperBlockFree (b : Byte) : Prop := b &&& 0xf0#8 = 0#8
def lowerBlockFree (b : Byte) : Prop := b &&& 0x0f#8 = 0#8
def getUpperFragMask (b : Byte) : Nat := ((b >>> 4) &&& 0x0f#8).toNat
def getLowerFragMask (b : Byte) : Nat := (b &&& 0x0f#8).toNat

instance (b : Byte) : Decidable (upperBlockFree b) := inferInstanceAs (Decidable (_ = _))
instance (b : Byte) : Decidable (lowerBlockFree b) := inferInstanceAs (Decidable (_ = _))

/-- What is used of `Ofs_DomainHeader`. -/
structure Header where
  blocksPerCylinder : Nat
  dataCylinders : Nat
  dataBlocks : Nat
  blocks_pos : 0 < blocksPerCylinder
  cylinders_pos : 0 < dataCylinders

/-- What is used of `Ofs_Domain`. The bitmap is the memory from `dataBlockBitmap` on. -/
structure Domain where
  bitmap : Int → Byte
  cylinders : Nat → Int
  fragLists : Nat → List Nat
  numFreeKbytes : Int
  minKFree : Int

namespace Header
variable (g : Header)

def bytesPerCylinder : Nat := (g.blocksPerCylinder + 1) / 2

def getBitmapPtr (blockNum : Nat) : Int :=
  (blockNum / g.blocksPerCylinder * g.bytesPerCylinder + blockNum % g.blocksPerCylinder / 2 : Nat)

def isLower (blockNum : Nat) : Prop := blockNum % g.blocksPerCylinder % 2 = 1

instance (blockNum : Nat) : Decidable (g.isLower blockNum) := inferInstanceAs (Decidable (_ = _))

/-- Where the bit of a fragment is in the byte. -/
def byteOffset (blockNum fragOffset : Nat) : Nat := if g.isLower blockNum then fragOffset + 4 else fragOffset

def fragMask (blockNum : Nat) (b : Byte) : Nat := if g.isLower blockNum then getLowerFragMask b else getUpperFragMask b

end Header

namespace Domain
variable (g : Header)

def setByte (s : Domain) (ptr : Int) (b : Byte) : Domain := { s with bitmap := update s.bitmap ptr b }

/-- What a search comes to: `-1`, a block and its byte, a panic, or no end. -/
inductive Found where
  | nil
  | block (blockNum : Nat) (ptr : Int)
  | panic
  | lost
  deriving DecidableEq

/-- The block is put on the list of every size that it has room for now and had not. -/
def putOnLists (s : Domain) (blockNum saved now : Nat) : Domain :=
  { s with
    fragLists := fun i =>
      if i < 3 ∧ fragOffsets saved i = -1 ∧ fragOffsets now i ≠ -1 then s.fragLists i ++ [blockNum] else s.fragLists i }

/-- One block of `OfsBlockAllocInit`. -/
def initBlock (s : Domain) (i blockNum : Nat) (mask : Nat) : Domain :=
  if mask = 0 then { s with cylinders := update s.cylinders i (s.cylinders i + 1) }
  else { s with fragLists := fun k => if k < 3 ∧ fragOffsets mask k ≠ -1 then s.fragLists k ++ [blockNum] else s.fragLists k }

def initByte (s : Domain) (i j : Nat) : Domain :=
  let b := s.bitmap (i * g.bytesPerCylinder + j : Nat)
  let s := s.initBlock i (i * g.blocksPerCylinder + j * 2) (getUpperFragMask b)
  -- the last byte of a cylinder may have one block only
  if j = g.bytesPerCylinder - 1 ∧ g.blocksPerCylinder % 2 = 1 then s
  else s.initBlock i (i * g.blocksPerCylinder + j * 2 + 1) (getLowerFragMask b)

def initCylinder (s : Domain) (i : Nat) : Domain :=
  (List.range g.bytesPerCylinder).foldl (fun s j => s.initByte g i j)
    { s with cylinders := update s.cylinders i 0 }

def ofsPercentFree : Nat := 10

/-- `OfsBlockAllocInit`, with the bitmap that is read and the summary information. -/
def ofsBlockAllocInit (bitmap : Int → Byte) (numFreeKbytes : Int) : Domain :=
  (List.range g.dataCylinders).foldl (fun s i => s.initCylinder g i)
    { bitmap := bitmap
      cylinders := fun _ => 0
      fragLists := fun _ => []
      numFreeKbytes := numFreeKbytes
      minKFree := (g.dataBlocks * 4 / ofsPercentFree : Nat) }

/-- `SelectCylinderInt`: the cylinders are searched forward and then backward. -/
def selectCylinderInt (s : Domain) (hashSeed : Int) (cylinderNum : Option Nat) : Option Nat × Domain :=
  let start := cylinderNum.getD (((hashSeed * 1103515245 + 12345) % 2147483648).toNat % g.dataCylinders)
  match (List.range' start (g.dataCylinders - start) ++ (List.range start).reverse).find? fun i => 0 < s.cylinders i with
  | none => (none, s)
  | some i => (some i, { s with cylinders := update s.cylinders i (s.cylinders i - 1) })

/-- What a loop over the bitmap comes to. -/
inductive Search where
  | found (block : Nat) (ptr : Int) (mask : Byte)
  | noBlock
  | lost
  deriving DecidableEq

/-- The loop of CONTIGUOUS allocation. The length of the bitmap bounds its turns. -/
def contiguous (bitmap : Int → Byte) : Nat → Int → Nat → Search
  | 0, _, _ => .lost
  | fuel + 1, ptr, blockNum =>
    if upperBlockFree (bitmap ptr) then .found blockNum ptr 0xf0#8
    else if lowerBlockFree (bitmap ptr) then .found (blockNum + 1) ptr 0x0f#8
    else contiguous bitmap fuel (ptr + 1) (blockNum + 2)

/-- The loop of SKIP BLOCK allocation, by the offset of the block in the cylinder. -/
def skipBlock (bitmap : Int → Byte) (startingBlockOffset : Nat) : Nat → Nat → Int → Search
  | 0, _, _ => .lost
  | fuel + 1, block, ptr =>
    if block = startingBlockOffset then .noBlock
    else
      let wrap := g.blocksPerCylinder ≤ block
      let block := if wrap then block - g.blocksPerCylinder else block
      let ptr := if wrap then ptr - g.bytesPerCylinder else ptr
      if block % 2 = 0 ∧ upperBlockFree (bitmap ptr) then .found block ptr 0xf0#8
      else if block % 2 = 1 ∧ lowerBlockFree (bitmap ptr) then .found block ptr 0x0f#8
      else skipBlock bitmap startingBlockOffset fuel (block + 1) (if block % 2 = 1 then ptr + 1 else ptr)

/-- The search of `FindBlockInt` in a cylinder, by `ofs_AllocGap`. -/
def searchCylinder (s : Domain) (allocGap : Nat) (nearBlock : Option Nat) (cylinderNum : Nat) : Search :=
  let base := cylinderNum * g.bytesPerCylinder
  if allocGap = 0 then
    contiguous s.bitmap (g.dataCylinders * g.bytesPerCylinder) base (cylinderNum * g.blocksPerCylinder)
  else
    let (block, startingBlockOffset) :=
      match nearBlock with
      | some near => (near % g.blocksPerCylinder + 1 + allocGap, near % g.blocksPerCylinder + 1)
      | none => (0, g.blocksPerCylinder)
    match skipBlock g s.bitmap startingBlockOffset (2 * g.blocksPerCylinder + 2) block (base + block / 2 : Nat) with
    | .found block ptr mask => .found (cylinderNum * g.blocksPerCylinder + block) ptr mask
    | r => r

def findBlockInt (s : Domain) (allocGap : Nat) (hashSeed : Int) (nearBlock : Option Nat) (allocate : Bool) : Found × Domain :=
  match s.selectCylinderInt g hashSeed (nearBlock.map (· / g.blocksPerCylinder)) with
  | (none, s) => (.nil, s)
  | (some cylinderNum, s) =>
    match s.searchCylinder g allocGap nearBlock cylinderNum with
    | .found blockNum ptr mask =>
      if allocate then
        if s.bitmap ptr &&& mask ≠ 0 then (.nil, s) else (.block blockNum ptr, s.setByte ptr (s.bitmap ptr ||| mask))
      else (.block blockNum ptr, s)
    | .noBlock => (.panic, s)
    | .lost => (.lost, s)

def ofsBlockFind (s : Domain) (allocGap : Nat) (hashSeed : Int) (nearBlock : Option Nat) (allocate : Bool) : Found × Domain :=
  if s.numFreeKbytes - 4 < s.minKFree then (.nil, s)
  else
    match s.findBlockInt g allocGap hashSeed nearBlock allocate with
    | (.block blockNum ptr, s) => (.block blockNum ptr, { s with numFreeKbytes := s.numFreeKbytes - 4 })
    | r => r

def ofsBlockFree (s : Domain) (blockNum : Nat) : Domain :=
  let cylinderNum := blockNum / g.blocksPerCylinder
  let s :=
    { s with
      numFreeKbytes := s.numFreeKbytes + 4
      cylinders := update s.cylinders cylinderNum (s.cylinders cylinderNum + 1) }
  let ptr := g.getBitmapPtr blockNum
  let mask := if g.isLower blockNum then 0xf0#8 else 0x0f#8
  let checkMask := ~~~mask
  if s.bitmap ptr &&& checkMask ≠ checkMask then s else s.setByte ptr (s.bitmap ptr &&& mask)

/-- A fragment of a file: its block, where it begins there, and how many there are. -/
structure Frag where
  block : Nat
  offset : Nat
  size : Nat
  deriving DecidableEq

/-- The first block of a list that has room for a fragment of the size of the list. -/
def popFrag (s : Domain) (i : Nat) : List Nat → Option (Nat × Nat) × List Nat
  | [] => (none, [])
  | fragBlock :: rest =>
    let fragOffset := fragOffsets (g.fragMask fragBlock (s.bitmap (g.getBitmapPtr fragBlock))) i
    if fragOffset ≠ -1 then (some (fragBlock, fragOffset.toNat), rest) else s.popFrag i rest

/-- The lists from that of size `i + 1` on, of which there are a number. -/
def tryFragLists (s : Domain) : Nat → Nat → Option (Nat × Nat) × Domain
  | 0, _ => (none, s)
  | n + 1, i =>
    let (r, rest) := s.popFrag g i (s.fragLists i)
    let s := { s with fragLists := update s.fragLists i rest }
    match r with
    | none => s.tryFragLists n (i + 1)
    | some frag => (some frag, s)

/-- `OfsFragFind` has found room for a fragment: its bits are set. -/
def takeFrag (s : Domain) (blockNum : Nat) (ptr : Int) (fragOffset numFrags : Nat) (mask : Byte) : Found × Domain :=
  let saved := s.bitmap ptr
  if saved &&& mask ≠ 0 then (.panic, s)
  else
    let s := (s.setByte ptr (saved ||| mask)).putOnLists blockNum (g.fragMask blockNum saved) (g.fragMask blockNum (saved ||| mask))
    if fragOffset + numFrags > 4 then (.panic, s) else (.block blockNum fragOffset, s)

/-- There is room behind the last fragment of the file, in its block. -/
def roomBehind (s : Domain) (last : Frag) (numFrags : Nat) : Prop :=
  last.offset + numFrags ≤ 4 ∧
    s.bitmap (g.getBitmapPtr last.block) &&& fragBits (g.byteOffset last.block (last.offset + last.size)) (numFrags - last.size) = 0

instance (s : Domain) (last : Frag) (numFrags : Nat) : Decidable (s.roomBehind g last numFrags) := instDecidableAnd

/-- The part of `OfsFragFind` for a fragment at another place. -/
def newFrag (s : Domain) (allocGap : Nat) (hashSeed : Int) (numFrags : Nat) : Found × Domain :=
  let take (s : Domain) (blockNum : Nat) (ptr : Int) (fragOffset : Nat) : Found × Domain :=
    { s with numFreeKbytes := s.numFreeKbytes - numFrags }.takeFrag g blockNum ptr fragOffset numFrags
      (fragBits (g.byteOffset blockNum fragOffset) numFrags)
  match s.tryFragLists g (3 - (numFrags - 1)) (numFrags - 1) with
  | (some (blockNum, fragOffset), s) => take s blockNum (g.getBitmapPtr blockNum) fragOffset
  | (none, s) =>
    -- a full block is fragmented
    match s.findBlockInt g allocGap hashSeed none false with
    | (.block blockNum ptr, s) => take s blockNum ptr 0
    | r => r

/-- `OfsFragFind`, with the last fragment of the file. What it finds is a block and an offset
    in it. -/
def ofsFragFind (s : Domain) (allocGap : Nat) (hashSeed : Int) (numFrags : Nat) (last : Option Frag) : Found × Domain :=
  let lastFragSize := match last with
    | none => 0
    | some last => last.size
  if s.numFreeKbytes - ((numFrags : Int) - lastFragSize) < s.minKFree then (.nil, s)
  else
    match last with
    | none => s.newFrag g allocGap hashSeed numFrags
    | some last =>
      if s.roomBehind g last numFrags then
        { s with numFreeKbytes := s.numFreeKbytes - ((numFrags : Int) - last.size) }.takeFrag g last.block
          (g.getBitmapPtr last.block) last.offset numFrags
          (fragBits (g.byteOffset last.block (last.offset + last.size)) (numFrags - last.size))
      else s.newFrag g allocGap hashSeed numFrags

def ofsFragFree (s : Domain) (f : Frag) : Domain :=
  let s := { s with numFreeKbytes := s.numFreeKbytes + f.size }
  let ptr := g.getBitmapPtr f.block
  let saved := s.bitmap ptr
  let mask := fragBits (g.byteOffset f.block f.offset) f.size
  if saved &&& mask ≠ mask then s
  else
    let s := s.setByte ptr (saved &&& ~~~mask)
    let fragMask := g.fragMask f.block (saved &&& ~~~mask)
    if fragMask = 0 then
      let cylinderNum := f.block / g.blocksPerCylinder
      { s with cylinders := update s.cylinders cylinderNum (s.cylinders cylinderNum + 1) }
    else s.putOnLists f.block (g.fragMask f.block saved) fragMask

/-- `OnlyFrag`. `none` stands for its panic. -/
def onlyFrag (s : Domain) (f : Frag) : Option Bool × Domain :=
  let ptr := g.getBitmapPtr f.block
  let b := s.bitmap ptr
  let mask := fragBits (g.byteOffset f.block f.offset) f.size
  let blockMask := if g.isLower f.block then 0x0f#8 else 0xf0#8
  if b &&& mask ≠ mask then (none, s)
  else if (b &&& ~~~mask) &&& blockMask ≠ 0 then (some false, s)
  else (some true, { s.setByte ptr (b ||| blockMask) with numFreeKbytes := s.numFreeKbytes - (4 - f.size) })

end Domain

end SpriteKernel.Ofs
