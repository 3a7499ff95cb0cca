import SpriteKernel.Lfs.SegLayout

/- Reading a segment back for cleaning (`lfsSeg.c`): `CreateSegmentToClean` reads it into memory and follows the
   summary blocks, `DoInCallBacks` goes through their headers and calls each module. Pointers are offsets into the
   memory. -/
namespace SpriteKernel.Lfs

open Bytes

/-- `LfsReadBytes` of the segment: what is in memory. -/
def SegImage.read (p : SuperBlock) (image : SegImage) : Buffer :=
  fun i => image (p.segSizeInBlocks - i / p.blockSize) (i % p.blockSize)

def SuperBlock.segFetchBytes (p : SuperBlock) (blockOffset : Int) : Int := p.segmentSize - p.blocksToBytes blockOffset

/-- The loop of `CreateSegmentToClean`: at most `room` addresses, and the memory, with a bad summary block undone. -/
def summaryElements (p : SuperBlock) : Nat → Int → Int → Buffer → Option (List Int × Buffer)
  | room, prevSegSum, segSum, mem =>
    if word mem segSum ≠ segSummaryMagic then
      if segSum = prevSegSum then none else some ([], setInt (prevSegSum + 20) (-1) mem)
    else if int mem (segSum + 20) = -1 then some ([segSum], mem)
    else match room with
      | 0 => none
      | room + 1 =>
        let next := int mem (segSum + 20)
        if next < 0 ∨ next > p.bytesToBlocks p.segmentSize then some ([segSum], setInt (segSum + 20) (-1) mem)
        else (summaryElements p room segSum (p.segFetchBytes next) mem).map (fun (elements, mem) => (segSum :: elements, mem))
termination_by room => room

/-- `CreateSegmentToClean`: the elements, and the memory. -/
def createSegmentToClean (p : SuperBlock) (image : SegImage) : Option (List Int × Buffer) :=
  summaryElements p (p.bytesToBlocks p.segmentSize).toNat (p.segmentSize - p.blockSize) (p.segmentSize - p.blockSize) (image.read p)

/-- What the header at an address says, with the block offset its data is at. -/
def regionAt (mem : Buffer) (summaryHdr curBlockOffset : Int) : Region where
  moduleType := half mem summaryHdr
  bytes := bytesFrom mem (summaryHdr + segSummaryHdrSize) (half mem (summaryHdr + 2) - segSummaryHdrSize.toNat)
  startOffset := curBlockOffset
  numDataBlocks := int mem (summaryHdr + 4)

section
variable {σ : Type} (clean : σ → Region → Bool × σ)

/-- The headers of a summary block, up to its end or the first that fails. -/
def cleanHeaders (mem : Buffer) (summaryHdr endSummaryBlock curBlockOffset : Int) (s : σ) : Bool × σ :=
  if _h : summaryHdr < endSummaryBlock ∧ 0 < half mem (summaryHdr + 2) then
    let (error, s) := clean s (regionAt mem summaryHdr curBlockOffset)
    if error then (true, s)
    else cleanHeaders mem (summaryHdr + half mem (summaryHdr + 2)) endSummaryBlock
      (curBlockOffset + int mem (summaryHdr + 4)) s
  else (false, s)
termination_by (endSummaryBlock - summaryHdr).toNat
decreasing_by omega

/-- `DoInCallBacks`, from a summary block on: whether a module failed; `none` is an element that is not there. -/
def cleanSummaries (mem : Buffer) : Int → List Int → Int → σ → Option (Bool × σ)
  | segSum, elements, curBlockOffset, s =>
    let (error, s) := cleanHeaders clean mem (segSum + segSummarySize) (segSum + int mem (segSum + 16)) curBlockOffset s
    if error then some (true, s)
    else if int mem (segSum + 20) = -1 then some (false, s)
    else match elements with
      | [] => none
      | element :: elements => cleanSummaries mem element elements (int mem (segSum + 20)) s
termination_by _ elements => elements

/-- A segment is read and its regions are given to the modules, as `SegmentCleanProc` does it. -/
def cleanSegment (p : SuperBlock) (image : SegImage) (s : σ) : Option (Bool × σ) :=
  (createSegmentToClean p image).bind fun
    | ([], _) => none
    | (element :: elements, mem) => cleanSummaries clean mem element elements 1 s

/-- The regions are given to the modules in order, up to the first that fails. -/
def visit : List Region → σ → Bool × σ
  | [], s => (false, s)
  | region :: regions, s =>
    let (error, s) := clean s region
    if error then (true, s) else visit regions s

theorem visit_append (regions more : List Region) (s : σ) : visit clean (regions ++ more) s =
    if (visit clean regions s).1 then (true, (visit clean regions s).2) else visit clean more (visit clean regions s).2 := by
  induction regions generalizing s with
  | nil => rfl
  | cons region regions ih =>
    rw [List.cons_append, visit, visit]
    cases herr : (clean s region).1 with
    | true => simp only [herr, if_true]
    | false => simp only [herr, Bool.false_eq_true, if_false, ih]

end

end SpriteKernel.Lfs
