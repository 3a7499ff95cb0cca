import SpriteKernel.Lfs.Segment

/- The layout of a segment (`lfsSeg.c`): `DoOutCallBacks` calls the modules in turn, and each adds data blocks and a
   region of summary bytes, behind a header. A segment that is not full is capped with an empty summary block, with
   which the next write begins. `LayoutFault.unfit`: the calls are not those of this write; `LayoutFault.nil`: a NIL
   pointer is used. -/
namespace SpriteKernel.Lfs

open Bytes

def maxNumMods : Nat := 3

def minSummaryRegionSize : Int := 16

/-- What one call of a module's `layout` adds, and whether it has more. -/
structure LayoutCall where
  buffers : List (List Buffer)
  bytes : List UInt8
  full : Bool

/-- A region of the summary, with the `curBlockOffset` its callbacks find. -/
structure Region where
  moduleType : Nat
  bytes : List UInt8
  startOffset : Int
  numDataBlocks : Int
  deriving DecidableEq, Repr

inductive LayoutFault where
  | unfit
  | nil

theorem bind_eq_ok {α β : Type} {x : Except LayoutFault α} {f : α → Except LayoutFault β} {b : β} (h : x >>= f = .ok b) :
    ∃ a, x = .ok a ∧ f a = .ok b := by
  cases x with
  | error fault => exact absurd h (by simp [bind, Except.bind])
  | ok a => exact ⟨a, rfl, h⟩

theorem ok_triple {α β γ : Type} {a a' : α} {b b' : β} {c c' : γ}
    (h : (.ok (a, b, c) : Except LayoutFault (α × β × γ)) = .ok (a', b', c')) : a = a' ∧ b = b' ∧ c = c' := by
  obtain ⟨ha, hbc⟩ := Prod.mk.inj (Except.ok.inj h)
  exact ⟨ha, Prod.mk.inj hbc⟩

theorem bind_ne_nil {α β : Type} {x : Except LayoutFault α} {f : α → Except LayoutFault β} (hx : x ≠ .error .nil)
    (hf : ∀ a, x = .ok a → f a ≠ .error .nil) : x >>= f ≠ .error .nil := by
  cases x with
  | error fault =>
    intro h
    exact hx (congrArg Except.error (Except.error.inj h))
  | ok a => exact hf a rfl

namespace LfsSeg

/-- The header of the next region is at `curSummaryPtr`, and its bytes are behind it. -/
def startRegion (seg : LfsSeg) : LfsSeg :=
  { seg with curSummaryHdr := seg.curSummaryPtr, curSummaryPtr := seg.curSummaryPtr + segSummaryHdrSize }

def addBuffers : List (List Buffer) → LfsSeg → Option LfsSeg
  | [], seg => some seg
  | buffer :: buffers, seg => (seg.slowAddDataBuffer buffer).bind (addBuffers buffers)

/-- A module stores its summary bytes and calls `LfsSegSetSummaryPtr`. -/
def addSummaryBytes (summary : Nat) (bytes : List UInt8) (seg : LfsSeg) : Option LfsSeg :=
  if bytes.length > seg.summaryBytesLeft then none
  else some { seg.editSummary summary (setBytes seg.curSummaryPtr bytes) with
    curSummaryPtr := seg.curSummaryPtr + bytes.length }

/-- The `LfsSummaryHdr` of a region. -/
def storeHeader (region : Region) (ptr : Int) (b : Buffer) : Buffer :=
  setInt (ptr + 4) region.numDataBlocks
    (setHalf (ptr + 2) (segSummaryHdrSize.toNat + region.bytes.length) (setHalf ptr region.moduleType b))

/-- A round of the loop, with room for a header, filled in if the module has added something. -/
def callModule (moduleType : Nat) (call : LayoutCall) (seg : LfsSeg) : Except LayoutFault (LfsSeg × List Region) :=
  match seg.curSegSummary with
  | none => .error .nil
  | some summary =>
    match (seg.startRegion.addBuffers call.buffers).bind (addSummaryBytes summary call.bytes) with
    | none => .error .unfit
    | some laid =>
      if seg.curBlockOffset ≠ laid.curBlockOffset ∨ seg.startRegion.curSummaryPtr ≠ laid.curSummaryPtr then
        let region := ⟨moduleType, call.bytes, seg.curBlockOffset, laid.curBlockOffset - seg.curBlockOffset⟩
        .ok (laid.editSummary summary (storeHeader region seg.curSummaryPtr), [region])
      else .ok ({ laid with curSummaryPtr := seg.curSummaryPtr }, [])

/-- The loop over the modules: whether the segment is full, the segment, and the regions recorded. -/
def callModules (p : SuperBlock) (timestamp : Int → Nat) (memory : Int → Buffer) :
    List LayoutCall → Nat → LfsSeg → Except LayoutFault (Bool × LfsSeg × List Region)
  | [], moduleType, seg =>
    if maxNumMods ≤ moduleType then .ok (false, seg, [])
    else if (seg.slowGrowSummary p (timestamp seg.curBlockOffset) (memory seg.curBlockOffset) 1
      (segSummaryHdrSize + minSummaryRegionSize) true).isNone then .ok (true, seg, [])
    else .error .unfit
  | call :: calls, moduleType, seg =>
    if maxNumMods ≤ moduleType then .error .unfit
    else match seg.slowGrowSummary p (timestamp seg.curBlockOffset) (memory seg.curBlockOffset) 1
      (segSummaryHdrSize + minSummaryRegionSize) true with
    | none => .error .unfit
    | some grown => do
      let (laid, region) ← grown.callModule moduleType call
      let rest : Except LayoutFault (Bool × LfsSeg × List Region) := if call.full then
          -- a module that is stopped by the end of the summary block is called again
          if laid.summaryBytesLeft > minSummaryRegionSize then
            if calls.isEmpty then .ok (true, laid, []) else .error .unfit
          else callModules p timestamp memory calls moduleType laid
        else callModules p timestamp memory calls (moduleType + 1) laid
      let (full, last, regions) ← rest
      return (full, last, region ++ regions)

/-- `DoOutCallBacks` when the modules have been called: the segment, and where the next write starts, or -1. -/
def capOff (p : SuperBlock) (wasteBlocks : Int) (timestamp : Int → Nat) (memory : Int → Buffer) (full : Bool) (seg : LfsSeg)
    (regions : List Region) : Except LayoutFault (LfsSeg × Int × List Region) :=
  match seg.curSegSummary with
  | none => .error .nil
  | some summary =>
    let capped := seg.editSummary summary (setInt 16 seg.curSummaryPtr)
    if full then .ok (capped, -1, regions)
    else if capped.segIsEmpty = some true then .ok (capped, capped.startBlockOffset, regions)
    else if capped.curDataBlockLimit - capped.curBlockOffset > wasteBlocks then
      match capped.addNewSummaryBlock p (timestamp capped.curBlockOffset) (memory capped.curBlockOffset) with
      | none => .error .nil
      | some trailing => .ok (trailing, trailing.curBlockOffset - 1, regions)
    else .ok (capped, -1, regions)

/-- `DoOutCallBacks`, with the regions that are recorded. -/
def doOutCallBacks (p : SuperBlock) (wasteBlocks : Int) (timestamp : Int → Nat) (memory : Int → Buffer)
    (calls : List LayoutCall) (seg : LfsSeg) : Except LayoutFault (LfsSeg × Int × List Region) := do
  let (full, laid, regions) ← seg.callModules p timestamp memory calls 0
  laid.capOff p wasteBlocks timestamp memory full regions

end LfsSeg

/-! ## Writes into one segment -/

/-- A segment on the disk: the block at each block offset. -/
abbrev SegImage := Int → Buffer

def storeElement (offset : Int) (blocks : List Buffer) (image : SegImage) : SegImage := fun i =>
  if offset - blocks.length < i ∧ i ≤ offset then blocks.getD (offset - i).toNat (fun _ => 0) else image i

/-- Elements behind each other are written. -/
def storeElements : Int → List SegElement → SegImage → SegImage
  | _, [], image => image
  | start, e :: es, image =>
    storeElements (start + e.lengthInBlocks) es (storeElement (start + e.lengthInBlocks) e.blocks image)

/-- The log's segment, and where the next write starts; -1 when the log has moved on. -/
structure LogSegment where
  image : SegImage
  startBlock : Int

/-- One write: the neighbours of the segment in the log, and what the modules and the allocator do. -/
structure SegmentWrite where
  prevSeg : Int
  nextSeg : Int
  calls : List LayoutCall
  timestamp : Int → Nat
  memory : Int → Buffer

/-- A segment is created, filled and, when it is not empty, written. -/
def writeSegment (p : SuperBlock) (wasteBlocks segNum : Int) (write : SegmentWrite) (log : LogSegment) :
    Except LayoutFault (LogSegment × List Region) :=
  if log.startBlock = -1 then .error .unfit
  else do
    let (seg, startBlock, regions) ← (getSegStruct p ⟨segNum, write.prevSeg, write.nextSeg⟩ log.startBlock).doOutCallBacks
      p wasteBlocks write.timestamp write.memory write.calls
    let image := if seg.segIsEmpty = some true then log.image else storeElements log.startBlock seg.elements log.image
    return (⟨image, startBlock⟩, regions)

/-- Writes one after the other, and the regions they record. -/
def writeSegments (p : SuperBlock) (wasteBlocks segNum : Int) :
    List SegmentWrite → LogSegment → Except LayoutFault (LogSegment × List Region)
  | [], log => return (log, [])
  | write :: writes, log => do
    let (log, regions) ← writeSegment p wasteBlocks segNum write log
    let (log, more) ← writeSegments p wasteBlocks segNum writes log
    return (log, regions ++ more)

end SpriteKernel.Lfs
