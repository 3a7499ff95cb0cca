import SpriteKernel.Lfs.Types
import SpriteKernel.Lib.Bytes
import Mathlib.Algebra.Ring.Int.Defs

/- Segments while they are filled (`lfsSeg.c`, `lfsSeg.h`): lists of elements of whole blocks, laid out from the end
   forwards. Block offsets count from the end. The summary block being filled is its element's only block;
   `curSummaryHdrPtr`, `curSummaryPtr` and `curSummaryLimitPtr` are offsets into it. -/
namespace SpriteKernel.Lfs

open Bytes

/-- `DEV_BYTES_PER_SECTOR`. On the device a disk address is the number of a sector. -/
def bytesPerSector : Int := 512

def SuperBlock.segNumToDiskAddress (p : SuperBlock) (segNum : Int) : DiskAddr :=
  p.logStartOffset + p.segSizeInBlocks * segNum

/-- `LfsSegElement`, with the blocks at its address. -/
structure SegElement where
  blocks : List Buffer

def SegElement.lengthInBlocks (e : SegElement) : Int := e.blocks.length

structure LogRange where
  current : Int
  prevSeg : Int
  nextSeg : Int

/-- The parts of `LfsSeg` used to fill or read a segment; `numElements` is the length of `elements`. -/
structure LfsSeg where
  logRange : LogRange
  elements : List SegElement
  numBlocks : Int
  startBlockOffset : Int
  curSegSummary : Option Nat
  curSummaryHdr : Int
  curElement : Int
  curBlockOffset : Int
  curDataBlockLimit : Int
  curSummaryPtr : Int
  curSummaryLimit : Int

/-- `sizeof(LfsSegSummary)`: magic, timestamp, two segments, size and next summary block. -/
def segSummarySize : Int := 24

def segSummaryMagic : Nat := 0x1065e6

/-- `sizeof(LfsSegSummaryHdr)`: module type, length in bytes and number of data blocks. -/
def segSummaryHdrSize : Int := 8

def getSegStruct (p : SuperBlock) (logRange : LogRange) (startBlockOffset : Int) : LfsSeg where
  logRange := logRange
  elements := []
  numBlocks := 0
  startBlockOffset := startBlockOffset
  curSegSummary := none
  curSummaryHdr := 0
  curElement := -1
  curBlockOffset := startBlockOffset
  curDataBlockLimit := p.segSizeInBlocks
  curSummaryPtr := 0
  curSummaryLimit := 0

namespace LfsSeg

def slowDiskAddress (p : SuperBlock) (seg : LfsSeg) (elementNumber : Nat) : DiskAddr :=
  let blockOffset := if (elementNumber : Int) = seg.curElement then seg.curBlockOffset
    else seg.startBlockOffset + ((seg.elements.take (elementNumber + 1)).map SegElement.lengthInBlocks).sum
  p.segNumToDiskAddress seg.logRange.current + (p.segSizeInBlocks - blockOffset)

/-- `LfsSegSlowAddDataBuffer`. The element added is the current one. -/
def slowAddDataBuffer (seg : LfsSeg) (buffer : List Buffer) : Option LfsSeg :=
  if seg.curBlockOffset + buffer.length > seg.curDataBlockLimit then none
  else some { seg with
    curElement := seg.curElement + 1
    curBlockOffset := seg.curBlockOffset + buffer.length
    elements := seg.elements.take (seg.curElement + 1).toNat ++ [⟨buffer⟩]
    numBlocks := seg.numBlocks + buffer.length }

def summaryBytesLeft (seg : LfsSeg) : Int := seg.curSummaryLimit - seg.curSummaryPtr

def blocksLeft (seg : LfsSeg) : Int := seg.curDataBlockLimit - seg.curBlockOffset

def editSummary (seg : LfsSeg) (summary : Nat) (f : Buffer → Buffer) : LfsSeg :=
  { seg with elements := seg.elements.modify summary (fun e => ⟨e.blocks.modify 0 f⟩) }

def summaryBlock (seg : LfsSeg) : Option Buffer :=
  seg.curSegSummary.bind (fun summary => (seg.elements[summary]?).bind (fun e => e.blocks[0]?))

/-- The `LfsSegSummary` that `AddNewSummaryBlock` starts a block with. -/
def newSummary (logRange : LogRange) (timestamp : Nat) (memory : Buffer) : Buffer :=
  setInt 20 (-1) (setInt 16 segSummarySize (setInt 12 logRange.nextSeg (setInt 8 logRange.prevSeg
    (setWord 4 timestamp (setWord 0 segSummaryMagic memory)))))

theorem size_newSummary (logRange : LogRange) (timestamp : Nat) (memory : Buffer) :
    int (newSummary logRange timestamp memory) 16 = segSummarySize := by
  unfold newSummary
  rw [int_setInt_of_disjoint (by decide)]
  exact int_setInt_self (by decide) (by decide) 16 _

/-- `AddNewSummaryBlock`; `memory` is what is in the block when it is allocated. -/
def addNewSummaryBlock (p : SuperBlock) (timestamp : Nat) (memory : Buffer) (seg : LfsSeg) : Option LfsSeg :=
  (seg.slowAddDataBuffer [newSummary seg.logRange timestamp memory]).map fun added =>
    let fixed := match seg.curSegSummary with
      | none => added
      | some last => added.editSummary last
          (fun b => setInt 20 added.curBlockOffset (setInt 16 seg.curSummaryPtr b))
    { fixed with
      curSegSummary := some added.curElement.toNat
      curSummaryPtr := segSummarySize
      curSummaryLimit := p.blockSize }

/-- `LfsSegSlowGrowSummary`: whether there is room, in the segment it leaves. -/
def slowGrowSummary (p : SuperBlock) (timestamp : Nat) (memory : Buffer) (dataBlocksNeeded sumBytesNeeded : Int)
    (addNewBlock : Bool) (seg : LfsSeg) : Option LfsSeg :=
  if dataBlocksNeeded ≤ seg.blocksLeft ∧ sumBytesNeeded ≤ seg.summaryBytesLeft then some seg
  else if addNewBlock = false ∨ dataBlocksNeeded + 1 > seg.blocksLeft then none
  else seg.addNewSummaryBlock p timestamp memory

/-- `SegIsEmpty`; without a summary block there is nothing to be read. -/
def segIsEmpty (seg : LfsSeg) : Option Bool :=
  if seg.numBlocks = 1 then seg.summaryBlock.map (fun b => decide (int b 16 = segSummarySize)) else some false

end LfsSeg

end SpriteKernel.Lfs
