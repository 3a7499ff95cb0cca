import SpriteKernel.Lfs.FileIndex
import SpriteKernel.Lib.Bytes

/- Checkpoints on the disk (`lfsLoad.c`): `LfsCheckPointFileSystem` writes the next of two areas, with a timestamp in
   front and behind, and `LfsLoadFileSystem` goes on from the newest whose timestamps are the same. A checkpoint is a
   `LfsCheckPointHdr` of 92 bytes, the modules' regions, a `LfsCheckPointTrailer` of 8 and the statistics. -/
namespace SpriteKernel.Lfs

open SpriteKernel Bytes

/-- The super block, `sizeof(Lfs_Stats)`, and the routines called. An `LfsError` is a panic. -/
structure LoadIO where
  params : SuperBlock
  maxCheckPointBlocks : Int
  statsSize : Int
  readHdr : Bool → ReturnStatus
  readArea : Bool → ReturnStatus
  installDomain : Int → Int → ReturnStatus × Int
  segAttach : Buffer → Int → Int → ReturnStatus
  seconds : Nat
  spriteID : Nat
  goesOn : Bool

/-- `LfsCheckPoint`. The timestamp is a 32-bit word. -/
structure LfsCheckPoint where
  timestamp : Nat
  nextArea : Bool
  buffer : Buffer
  maxSize : Int

/-- `LfsLoadFileSystem`'s status, the area it went on from, with what was read there, and its checkpoints. -/
structure Load where
  status : ReturnStatus
  source : Option (Bool × Buffer)
  checkPoint : Option LfsCheckPoint

/-- `sizeof(LfsCheckPointHdr)`. -/
def hdrSize : Int := 92

/-- `sizeof(LfsCheckPointTrailer)`. -/
def trailerSize : Int := 8

def hdrTimestamp (b : Buffer) : Nat := word b 0

def trailerOffset (b : Buffer) : Int := int b 4 - trailerSize

def LoadIO.lfsError {α : Type} (io : LoadIO) (next : Except Fault α) : Except Fault α :=
  if io.goesOn then next else .error .panic

def LoadIO.maxSize (io : LoadIO) : Int := io.params.blocksToBytes io.maxCheckPointBlocks

/-- `LfsLoadFileSystem` behind the checks: the domain, statistics, modules and state for the next checkpoint. -/
def attachCheckPoint (io : LoadIO) (area : Bool) (checkPoint : Buffer) : Except Fault Load :=
  let (status, domainNumber) := io.installDomain (int checkPoint 76) (int checkPoint 88)
  if status ≠ .success then .ok ⟨status, some (area, checkPoint), none⟩
  else if trailerOffset checkPoint + trailerSize + io.statsSize > io.maxSize then .error .outOfBounds
  else
    let status := io.segAttach checkPoint hdrSize (trailerOffset checkPoint - hdrSize)
    if status ≠ .success then .ok ⟨status, some (area, checkPoint), none⟩
    else
      let timestamp := (hdrTimestamp checkPoint + 1) % 4294967296
      .ok ⟨.success, some (area, checkPoint), some {
        timestamp := timestamp
        nextArea := !area
        buffer := setWord 88 io.spriteID (setWord 84 io.seconds (setWord 80 io.seconds
          (setInt 76 domainNumber (setWord 8 1 (setInt 4 0 (setWord 0 timestamp checkPoint))))))
        maxSize := io.maxSize }⟩

/-- `LfsLoadFileSystem`, from `again` on. -/
def loadArea (io : LoadIO) (areas : Bool → Buffer) : Nat → Bool → Option (Except Fault Load)
  | 0, _ => none
  | fuel + 1, choosenOne =>
    if io.readArea choosenOne ≠ .success then
      some (io.lfsError (.ok ⟨io.readArea choosenOne, none, none⟩))
    else
      let checkPoint := areas choosenOne
      if ¬(hdrSize ≤ io.maxSize ∧ 0 ≤ trailerOffset checkPoint ∧ trailerOffset checkPoint + 4 ≤ io.maxSize) then
        some (.error .outOfBounds)
      else if hdrTimestamp checkPoint ≠ word checkPoint (trailerOffset checkPoint) then
        if io.goesOn then loadArea io areas fuel (!choosenOne) else some (.error .panic)
      else some (attachCheckPoint io choosenOne checkPoint)

def loadFileSystem (io : LoadIO) (areas : Bool → Buffer) (fuel : Nat) : Option (Except Fault Load) :=
  if io.readHdr false ≠ .success then some (io.lfsError (.ok ⟨io.readHdr false, none, none⟩))
  else if io.readHdr true ≠ .success then some (io.lfsError (.ok ⟨io.readHdr true, none, none⟩))
  else loadArea io areas fuel (decide (hdrTimestamp (areas false) < hdrTimestamp (areas true)))

/-- What `LfsSegCheckPoint` leaves behind the header, how many timestamps others took, the time, the statistics, and
    how the area's write ends. -/
structure CheckPointCall where
  cleaner : Bool
  segStatus : ReturnStatus
  size : Int
  regions : Buffer
  otherStamps : Nat
  seconds : Nat
  stats : Buffer
  writeStatus : ReturnStatus
  written : Int

/-- A file system that has been loaded, and its checkpoint areas. -/
structure LoadedLfs where
  checkPoint : LfsCheckPoint
  areas : Bool → Buffer

/-- The bytes of the checkpoint, with the statistics. -/
def CheckPointCall.bytes (io : LoadIO) (call : CheckPointCall) : Int :=
  call.size + hdrSize + trailerSize + io.statsSize

/-- `LfsGetCurrentTimestamp`, when the others have taken theirs. -/
def CheckPointCall.timestamp (call : CheckPointCall) (cp : LfsCheckPoint) : Nat :=
  (cp.timestamp + call.otherStamps + 1) % 4294967296

/-- What is written to the area. -/
def CheckPointCall.image (io : LoadIO) (call : CheckPointCall) (cp : LfsCheckPoint) : Buffer :=
  let buffer : Buffer := fun k => if k < hdrSize then cp.buffer k else call.regions k
  let buffer := setWord 84 call.seconds (setWord 8 1 (setInt 4 (call.size + hdrSize + trailerSize)
    (setWord 0 (call.timestamp cp) buffer)))
  let trailer := call.size + hdrSize
  let buffer := setWord (trailer + 4) 0 (setWord trailer (call.timestamp cp) buffer)
  fun k => if trailer + trailerSize ≤ k ∧ k < trailer + trailerSize + io.statsSize then
    call.stats (k - (trailer + trailerSize)) else buffer k

/-- The first `blocks` blocks of the checkpoint are on the disk. -/
def CheckPointCall.write (io : LoadIO) (call : CheckPointCall) (blocks : Int) (lfs : LoadedLfs) : Bool → Buffer :=
  Function.update lfs.areas lfs.checkPoint.nextArea (overwrite (io.params.blocksToBytes blocks)
    (call.image io lfs.checkPoint) (lfs.areas lfs.checkPoint.nextArea))

def CheckPointCall.blocks (io : LoadIO) (call : CheckPointCall) : Int := io.params.bytesToBlocks (call.bytes io)

/-- The header of the file system's own buffer. -/
def CheckPointCall.header (io : LoadIO) (call : CheckPointCall) (cp : LfsCheckPoint) : Buffer :=
  if call.cleaner then cp.buffer else call.image io cp

def checkPointFileSystem (io : LoadIO) (call : CheckPointCall) (lfs : LoadedLfs) :
    Except Fault (ReturnStatus × LoadedLfs) :=
  let cp := lfs.checkPoint
  if call.segStatus ≠ .success ∨ call.size < 0 then .ok (call.segStatus, lfs)
  else if call.bytes io > cp.maxSize then .error .outOfBounds
  else
    let stamped := { cp with timestamp := call.timestamp cp, buffer := call.header io cp }
    if call.writeStatus = .success then
      .ok (.success, ⟨{ stamped with nextArea := !cp.nextArea }, call.write io (call.blocks io) lfs⟩)
    else io.lfsError (.ok (call.writeStatus, ⟨stamped, call.write io call.written lfs⟩))

end SpriteKernel.Lfs
