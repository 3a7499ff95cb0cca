import SpriteKernel.DevRaid.MapFits
import Mathlib.Algebra.Module.ZMod
import Mathlib.Algebra.Field.ZMod
import Mathlib.Data.Nat.Prime.Defs

/- The I/O of one stripe (devRaidInitiate.c), its requests (devRaidUtil.c), the exclusive or of buffers (bxor.c) and
   the disks (devRaidDisk.c). Sector numbers and byte addresses are exact (`mapSector_eq_place` of MapFits). What
   `Raid_InitiateIORequests` starts ends in one `step`, for which an `Outcome` says what fails; it then goes on as
   the callback does. -/
namespace SpriteKernel.DevRaid.Initiate
open Striping

/-- The bits of a byte; the exclusive or of two bytes is their sum. -/
abbrev Byte := Fin 8 → ZMod 2

/-- The caller's buffer, the control block's two, and the parity buffer that `oldInfoReadDoneProc` puts in the
    first's place. -/
inductive Buf where
  | user
  | readBuf
  | parityBuf
  | newParityBuf
  deriving DecidableEq

structure Ptr where
  buf : Buf
  off : Int
  deriving DecidableEq

def Ptr.add (q : Ptr) (n : Int) : Ptr := ⟨q.buf, q.off + n⟩

abbrev Mem := Buf → Int → Byte

/-- A number of bytes from a pointer on are given new values. -/
def Mem.fill (mem : Mem) (q : Ptr) (len : Nat) (bytes : Nat → Byte) : Mem := fun buf off =>
  if buf = q.buf ∧ q.off ≤ off ∧ off < q.off + len then bytes (off - q.off).toNat else mem buf off

/-! bxor.c. -/

/-- `*destPtr ^= *sourcePtr`. -/
def Mem.xorByte (mem : Mem) (source dest : Ptr) : Mem := fun buf off =>
  if buf = dest.buf ∧ off = dest.off then mem dest.buf dest.off + mem source.buf source.off else mem buf off

/-- A number of bytes from two pointers upwards, and from two pointers downwards. -/
def Mem.xorUp (mem : Mem) (source dest : Ptr) : Nat → Mem
  | 0 => mem
  | n + 1 => (mem.xorByte source dest).xorUp (source.add 1) (dest.add 1) n

def Mem.xorDown (mem : Mem) (source dest : Ptr) : Nat → Mem
  | 0 => mem
  | n + 1 => (mem.xorByte (source.add (-1)) (dest.add (-1))).xorDown (source.add (-1)) (dest.add (-1)) n

/-- Both pointers are at a word (`WORDMASK`). -/
def aligned (address : Buf → Int) (source dest : Ptr) : Prop :=
  (address source.buf + source.off) % 4 = 0 ∧ (address dest.buf + dest.off) % 4 = 0

instance (address : Buf → Int) (source dest : Ptr) : Decidable (aligned address source dest) := instDecidableAnd

/-- How many bytes the loops go over: of a negative length 2^32 more where it is compared with a `sizeof`. -/
def loopBytes (address : Buf → Int) (numBytes : Int) (source dest : Ptr) : Nat :=
  if numBytes < 0 ∧ aligned address source dest then (numBytes + 4294967296).toNat else numBytes.toNat

def xor2 (address : Buf → Int) (numBytes : Int) (source dest : Ptr) (mem : Mem) : Mem :=
  if address dest.buf + dest.off < address source.buf + source.off then
    mem.xorUp source dest (loopBytes address numBytes source dest)
  else
    -- the bytes above the last whole word come first
    let extra := (numBytes % 4).toNat
    let mem := mem.xorDown (source.add numBytes) (dest.add numBytes) extra
    let numBytes := numBytes - extra
    mem.xorDown (source.add numBytes) (dest.add numBytes)
      (loopBytes address numBytes (source.add numBytes) (dest.add numBytes))

/-! devRaidUtil.h. -/

/-- The parameters of a device with parity. -/
structure Params where
  geometry : Geometry
  logBytesPerSector : Nat
  withParity : geometry.parityConfig ≠ 'S'

namespace Params
variable (p : Params)

def sectorsPerStripeUnit : Nat := p.geometry.sectorsPerStripeUnit
def numDataCol : Nat := p.geometry.numDataCol
def dataSectorsPerStripe : Nat := p.numDataCol * p.sectorsPerStripeUnit
def sectorsPerDisk : Nat := p.geometry.units * p.sectorsPerStripeUnit

def byteToSector (byteAddr : Nat) : Nat := byteAddr >>> p.logBytesPerSector
def sectorToByte (sector : Nat) : Nat := sector <<< p.logBytesPerSector

def bytesPerStripeUnit : Nat := p.sectorToByte p.sectorsPerStripeUnit

def sectorToStripeID (sector : Nat) : Nat := sector / p.sectorsPerStripeUnit / p.numDataCol
def stripeIDToSector (stripeID : Nat) : Nat := stripeID * p.sectorsPerStripeUnit * p.numDataCol
def sectorToStripeUnitID (sector : Nat) : Nat := sector / p.sectorsPerStripeUnit
def firstSectorOfStripe (sector : Nat) : Nat := sector / p.dataSectorsPerStripe * p.dataSectorsPerStripe
def nthSectorOfStripe (sector : Nat) : Nat := (sector / p.dataSectorsPerStripe + 1) * p.dataSectorsPerStripe
def firstSectorOfStripeUnit (sector : Nat) : Nat := sector / p.sectorsPerStripeUnit * p.sectorsPerStripeUnit
def nthSectorOfStripeUnit (sector : Nat) : Nat := (sector / p.sectorsPerStripeUnit + 1) * p.sectorsPerStripeUnit
def stripeUnitOffset (byteAddr : Nat) : Nat := byteAddr % p.bytesPerStripeUnit

/-- `Raid_MapSector` and `Raid_MapParity`. -/
def mapSector (sector : Nat) : Place := p.geometry.placeOf (p.geometry.addressOf sector)
def mapParity (sector : Nat) : Place :=
  p.geometry.placeOf { p.geometry.addressOf sector with unit := p.geometry.numCol - 1 }

end Params

/-! devRaidDisk.c. -/

inductive DiskState where
  | invalid
  | ready
  | failed
  | replaced
  deriving DecidableEq

/-- `RaidDisk`, with what `Raid_SaveDisk` last wrote for it and what is on the disk, by byte address. -/
structure Disk where
  state : DiskState
  numValidSector : Nat
  saved : Nat
  data : Nat → Byte

def Disk.isValid (d : Disk) (startSector numSector : Nat) : Prop := startSector + numSector ≤ d.numValidSector

instance (d : Disk) (startSector numSector : Nat) : Decidable (d.isValid startSector numSector) :=
  inferInstanceAs (Decidable (_ ≤ _))

/-- `raidPtr->disk`, by column and row. -/
abbrev Disks := Nat → Nat → Disk

def Disks.set (disks : Disks) (col row : Nat) (d : Disk) : Disks :=
  fun c r => if c = col ∧ r = row then d else disks c r

def Disk.fill (d : Disk) (start len : Nat) (bytes : Nat → Byte) : Disk :=
  { d with data := fun i => if start ≤ i ∧ i < start + len then bytes (i - start) else d.data i }

/-- `Raid_FailDisk`, for the version of the disk that is there. -/
def Disk.fail (d : Disk) : Disk :=
  if d.state = .ready then { d with state := .failed, saved := 0, numValidSector := 0 } else d

/-! devRaidUtil.c. -/

inductive Operation where
  | read
  | write
  deriving DecidableEq

inductive RequestState where
  | ready
  | completed
  | failed
  | invalid
  deriving DecidableEq

structure BlockRequest where
  operation : Operation
  startAddress : Nat
  bufferLen : Nat
  buffer : Ptr
  state : RequestState
  col : Nat
  row : Nat
  deriving DecidableEq

/-- `RaidRequestControl`. Its requests differ, so the one `failedReqPtr` points to is given by its value. -/
structure RequestControl where
  reqs : List BlockRequest
  numFailed : Nat
  failedReq : Option BlockRequest

/-- `numReq = numFailed = 0`. -/
def RequestControl.reset (rc : RequestControl) : RequestControl := { rc with reqs := [], numFailed := 0 }

def RequestControl.add (rc : RequestControl) (r : BlockRequest) (valid : Bool) : RequestControl :=
  if valid then { rc with reqs := rc.reqs ++ [{ r with state := .ready }] }
  else
    { reqs := rc.reqs ++ [{ r with state := .invalid }]
      numFailed := rc.numFailed + 1
      failedReq := some { r with state := .invalid } }

/-- `oldInfoReadDoneProc` on an invalid request, whose data go into the parity too. -/
def RequestControl.completeFailed (rc : RequestControl) : RequestControl :=
  if 0 < rc.numFailed then
    { rc with reqs := rc.reqs.map fun r => if some r = rc.failedReq then { r with state := .completed } else r }
  else rc

def rangeRestrict (start len rangeOffset rangeLen fieldLen : Nat) : Nat × Int :=
  let startOffset := start % fieldLen
  let startBase := start / fieldLen * fieldLen
  let newStartOffset := max startOffset rangeOffset
  (startBase + newStartOffset, (min (startOffset + len) (rangeOffset + rangeLen) : Int) - newStartOffset)

/-- The arguments of a call of `Xor2`, with the buffer that each pointer goes into. -/
structure XorCall where
  numBytes : Int
  source : Ptr
  dest : Ptr
  sourceBuf : Ptr
  sourceLen : Nat
  destBuf : Ptr
  destLen : Nat

/-- One turn of the loop of `Raid_XorRangeRequests`. -/
def xorRangeRequest (p : Params) (r : BlockRequest) (destBuf : Ptr) (rangeOffset rangeLen : Nat) : XorCall :=
  let (rangeStartAddress, newRangeLen) := rangeRestrict r.startAddress r.bufferLen rangeOffset rangeLen p.bytesPerStripeUnit
  { numBytes := newRangeLen
    source := r.buffer.add (rangeStartAddress - r.startAddress)
    dest := destBuf.add (p.stripeUnitOffset rangeStartAddress - rangeOffset)
    sourceBuf := r.buffer
    sourceLen := r.bufferLen
    destBuf := destBuf
    destLen := rangeLen }

/-- `Raid_XorRangeRequests` takes the request. -/
def BlockRequest.Ok (r : BlockRequest) : Prop := r.state = .ready ∨ r.state = .completed

instance (r : BlockRequest) : Decidable r.Ok := instDecidableOr

/-- The calls of `Raid_XorRangeRequests`. -/
def xorRangeRequests (p : Params) (reqs : List BlockRequest) (destBuf : Ptr) (rangeOffset rangeLen : Nat) : List XorCall :=
  reqs.filterMap fun r =>
    if r.Ok then some (xorRangeRequest p r destBuf (p.stripeUnitOffset rangeOffset) rangeLen) else none

def xorAll (address : Buf → Int) (calls : List XorCall) (mem : Mem) : Mem :=
  calls.foldl (fun mem call => xor2 address call.numBytes call.source call.dest mem) mem

section requests
variable (p : Params) (disks : Disks) (operation : Operation)

/-- One turn of the loop of `Raid_AddDataRangeRequests`, on a piece of a stripe unit. -/
def addDataRangeRequest (sector num : Nat) (buffer : Ptr) (rangeOffset rangeLen : Nat) (rc : RequestControl) :
    RequestControl :=
  let place := p.mapSector sector
  let (diskSector, rangeSectors) := rangeRestrict place.sector num rangeOffset rangeLen p.sectorsPerStripeUnit
  if 0 < rangeSectors then
    rc.add
      { operation := operation
        startAddress := p.sectorToByte diskSector
        bufferLen := p.sectorToByte rangeSectors.toNat
        buffer := buffer
        state := .ready
        col := place.col
        row := place.row }
      ((disks place.col place.row).isValid diskSector rangeSectors.toNat)
  else rc

/-- The loop. The sectors that are left bound its turns. -/
def addDataLoop (rangeOffset rangeLen : Nat) : Nat → Nat → Nat → Ptr → RequestControl → RequestControl
  | 0, _, _, _, rc => rc
  | fuel + 1, sector, nthSector, buffer, rc =>
    if sector < nthSector then
      let num := min (p.sectorsPerStripeUnit - sector % p.sectorsPerStripeUnit) (nthSector - sector)
      addDataLoop rangeOffset rangeLen fuel (sector + num) nthSector (buffer.add (p.sectorToByte num))
        (addDataRangeRequest p disks operation sector num buffer rangeOffset rangeLen rc)
    else rc

def addDataRangeRequests (firstSector nthSector : Nat) (buffer : Ptr) (rangeOffset rangeLen : Nat) (rc : RequestControl) :
    RequestControl :=
  addDataLoop p disks operation (p.byteToSector (p.stripeUnitOffset rangeOffset)) (p.byteToSector rangeLen)
    (nthSector - firstSector) firstSector nthSector buffer rc

/-- `AddRaidDataRequests`. -/
def addDataRequests (firstSector nthSector : Nat) (buffer : Ptr) (rc : RequestControl) : RequestControl :=
  addDataRangeRequests p disks operation firstSector nthSector buffer 0 p.bytesPerStripeUnit rc

def addParityRangeRequest (sector : Nat) (buffer : Ptr) (rangeOffset rangeLen : Nat) (rc : RequestControl) : RequestControl :=
  let rangeOffset := p.byteToSector (p.stripeUnitOffset rangeOffset)
  let rangeLen := p.byteToSector rangeLen
  let place := p.mapParity (p.firstSectorOfStripeUnit sector + rangeOffset)
  if 0 < rangeLen then
    rc.add
      { operation := operation
        startAddress := p.sectorToByte place.sector
        bufferLen := p.sectorToByte rangeLen
        buffer := buffer
        state := .ready
        col := place.col
        row := place.row }
      ((disks place.col place.row).isValid place.sector rangeLen)
  else rc

/-- `AddRaidParityRequest`. -/
def addParityRequest (sector : Nat) (buffer : Ptr) (rc : RequestControl) : RequestControl :=
  addParityRangeRequest p disks operation sector buffer 0 p.bytesPerStripeUnit rc

end requests
/-! devRaidInitiate.c. -/

/-- What the procedures that `recoverProc` may be are called. -/
inductive RecoverProc where
  | readModifyWrite
  | reconstructWrite
  | stripeIOFailure
  deriving DecidableEq

/-- The procedures that are called when the requests have been completed. -/
inductive DoneProc where
  | oldInfoRead
  | stripeWrite
  | stripeIo
  | stripeRead
  | reconstructStripeRead
  deriving DecidableEq

/-- A stripe operation waits for its requests, or `stripeIODoneProc` has been called. -/
inductive Status where
  | waiting (proc : DoneProc)
  | done (numFailed : Nat)
  deriving DecidableEq

/-- `RaidStripeIOControl`, with the memory and the disks. `xors` has the calls of `Xor2`
    until now. -/
structure StripeIo where
  firstSector : Nat
  nthSector : Nat
  buffer : Ptr
  recoverProc : RecoverProc
  reqControl : RequestControl
  parityBuf : Ptr
  readBuf : Ptr
  rangeOff : Nat
  rangeLen : Nat
  address : Buf → Int
  mem : Mem
  disks : Disks
  xors : List XorCall
  status : Status

/-- What `Raid_MakeStripeIOControl` makes. -/
def StripeIo.make (firstSector nthSector : Nat) (address : Buf → Int) (mem : Mem) (disks : Disks) : StripeIo where
  firstSector := firstSector
  nthSector := nthSector
  buffer := ⟨.user, 0⟩
  recoverProc := .stripeIOFailure
  reqControl := ⟨[], 0, none⟩
  parityBuf := ⟨.parityBuf, 0⟩
  readBuf := ⟨.readBuf, 0⟩
  rangeOff := 0
  rangeLen := 0
  address := address
  mem := mem
  disks := disks
  xors := []
  status := .done 0

/-- Of requests that go on together: those that fail, what they leave, the last to fail; and the disks that others
    fail. -/
structure Outcome where
  fails : BlockRequest → Bool
  leaves : BlockRequest → Nat → Byte
  last : BlockRequest → Bool
  failDisk : Nat → Nat → Bool

def transfer (out : Outcome) (r : BlockRequest) (s : Mem × Disks) : Mem × Disks :=
  let disk := s.2 r.col r.row
  if r.state ≠ .ready then s
  else
    match r.operation, out.fails r with
    | .read, false => (s.1.fill r.buffer r.bufferLen fun i => disk.data (r.startAddress + i), s.2)
    | .read, true => (s.1.fill r.buffer r.bufferLen (out.leaves r), s.2)
    | .write, false =>
      (s.1, s.2.set r.col r.row (disk.fill r.startAddress r.bufferLen fun i => s.1 r.buffer.buf (r.buffer.off + i)))
    | .write, true => (s.1, s.2.set r.col r.row (disk.fill r.startAddress r.bufferLen (out.leaves r)).fail)

def BlockRequest.complete (out : Outcome) (r : BlockRequest) : BlockRequest :=
  if r.state = .ready then { r with state := if out.fails r then .failed else .completed } else r

def failures (out : Outcome) (reqs : List BlockRequest) : List BlockRequest :=
  (reqs.filter fun r => r.state = .ready ∧ out.fails r).map (BlockRequest.complete out)

namespace StripeIo
variable (p : Params)

/-- `Raid_InitiateIORequests`, up to where the callback comes. -/
def initiateIORequests (io : StripeIo) (proc : DoneProc) : StripeIo := { io with status := .waiting proc }

def initiateStripeIOFailure (io : StripeIo) : StripeIo := { io with status := .done 2 }

def complete (io : StripeIo) (out : Outcome) : StripeIo :=
  let s := io.reqControl.reqs.foldl (fun s r => transfer out r s) (io.mem, io.disks)
  { io with
    reqControl := { io.reqControl with reqs := io.reqControl.reqs.map (BlockRequest.complete out) }
    mem := s.1
    disks := s.2 }

/-- `Raid_FailDisk` is called from elsewhere. -/
def failDisks (io : StripeIo) (out : Outcome) : StripeIo :=
  { io with disks := fun col row => if out.failDisk col row then (io.disks col row).fail else io.disks col row }

/-- `Raid_XorRangeRequests`, on the requests that there are. -/
def xorRange (io : StripeIo) (destBuf : Ptr) (rangeOffset rangeLen : Nat) : StripeIo :=
  let calls := xorRangeRequests p io.reqControl.reqs destBuf rangeOffset rangeLen
  { io with mem := xorAll io.address calls io.mem, xors := io.xors ++ calls }

/-- The two calls that add what is read of the stripe beside the operation's sectors. -/
def addRest (io : StripeIo) (rangeOffset rangeLen : Nat) (rc : RequestControl) : RequestControl :=
  let rc := addDataRangeRequests p io.disks .read (p.firstSectorOfStripe io.firstSector) io.firstSector io.readBuf
    rangeOffset rangeLen rc
  addDataRangeRequests p io.disks .read io.nthSector (p.nthSectorOfStripe io.firstSector)
    (io.readBuf.add (p.sectorToByte (io.firstSector - p.firstSectorOfStripe io.firstSector))) rangeOffset rangeLen rc

/-- `InitiateSplitStripeWrite`, for the request that has failed. -/
def initiateSplitStripeWrite (io : StripeIo) (failedReq : BlockRequest) : StripeIo :=
  let failedOff := p.stripeUnitOffset failedReq.startAddress
  let failedLen := failedReq.bufferLen
  -- the data part of the failed request
  let (failedOff, failedLen) :=
    if io.recoverProc = .readModifyWrite then
      (p.stripeUnitOffset (failedOff + failedLen), p.bytesPerStripeUnit - failedLen)
    else (failedOff, failedLen)
  let rangeOff := p.stripeUnitOffset (failedOff + failedLen)
  let rangeLen := p.bytesPerStripeUnit - failedLen
  let io := { io with recoverProc := .stripeIOFailure, rangeOff := 0, rangeLen := p.bytesPerStripeUnit }
  let rc := io.addRest p failedOff failedLen io.reqControl.reset
  let rc := addDataRangeRequests p io.disks .read io.firstSector io.nthSector
    (io.readBuf.add (p.sectorToByte (p.dataSectorsPerStripe - (io.nthSector - io.firstSector)))) rangeOff rangeLen rc
  let rc := addParityRangeRequest p io.disks .read io.firstSector io.parityBuf rangeOff rangeLen rc
  let io := { io with reqControl := rc }
  if rc.numFailed = 0 then io.initiateIORequests .oldInfoRead else io.initiateStripeIOFailure

/-- Both algorithms are needed: the request that has failed covers a part of a unit. -/
def needsSplit (io : StripeIo) (failedReq : BlockRequest) : Prop :=
  io.rangeLen = p.bytesPerStripeUnit ∧ failedReq.bufferLen ≠ p.bytesPerStripeUnit ∧ io.recoverProc ≠ .stripeIOFailure

instance (io : StripeIo) (failedReq : BlockRequest) : Decidable (io.needsSplit p failedReq) := instDecidableAnd

/-- The range of a read modify write: that of the request, if it is the only one. -/
def modifyRange (reqs : List BlockRequest) : Nat × Nat :=
  match reqs with
  | [r] => (r.startAddress, r.bufferLen)
  | _ => (0, p.bytesPerStripeUnit)

def initiateReadModifyWrite (call : RecoverProc → StripeIo → StripeIo) (io : StripeIo) : StripeIo :=
  let rc := addDataRequests p io.disks .read io.firstSector io.nthSector io.readBuf io.reqControl.reset
  let range := modifyRange p rc.reqs
  let rc := addParityRangeRequest p io.disks .read io.firstSector io.parityBuf range.1 range.2 rc
  let io := { io with rangeOff := range.1, rangeLen := range.2, reqControl := rc }
  match rc.numFailed, rc.failedReq with
  | 0, _ => io.initiateIORequests .oldInfoRead
  | _, none => io
  | _, some failedReq =>
    -- `recoverProc` is set before either call
    if io.needsSplit p failedReq then { io with recoverProc := .stripeIOFailure }.initiateSplitStripeWrite p failedReq
    else call io.recoverProc { io with recoverProc := .stripeIOFailure }

/-- What `InitiateReconstructWrite` and `oldInfoReadDoneProc` do about a failed request. -/
def recover (call : RecoverProc → StripeIo → StripeIo) (io : StripeIo) (failedReq : BlockRequest) : StripeIo :=
  if io.needsSplit p failedReq then io.initiateSplitStripeWrite p failedReq
  else call io.recoverProc { io with recoverProc := .stripeIOFailure }

/-- The range of a reconstruct write: what is written, if that is in one stripe unit. -/
def reconstructRange (io : StripeIo) : Nat × Nat :=
  if p.sectorToStripeUnitID io.firstSector = p.sectorToStripeUnitID (io.nthSector - 1) then
    (p.sectorToByte io.firstSector, p.sectorToByte (io.nthSector - io.firstSector))
  else (0, p.bytesPerStripeUnit)

def initiateReconstructWrite (call : RecoverProc → StripeIo → StripeIo) (io : StripeIo) : StripeIo :=
  let range := io.reconstructRange p
  let rc := io.addRest p range.1 range.2 io.reqControl.reset
  let io := { io with rangeOff := range.1, rangeLen := range.2, reqControl := rc }
  match rc.numFailed, rc.failedReq with
  | 0, _ => io.initiateIORequests .oldInfoRead
  | _, none => io
  | _, some failedReq => io.recover p call failedReq

/-- A call of `recoverProc`, then `InitiateStripeIOFailure`: two inside one another are enough. -/
def callRecover : Nat → RecoverProc → StripeIo → StripeIo
  | n + 1, .readModifyWrite, io => io.initiateReadModifyWrite p (callRecover n)
  | n + 1, .reconstructWrite, io => io.initiateReconstructWrite p (callRecover n)
  | _, _, io => io.initiateStripeIOFailure

def initiateStripeWrite (io : StripeIo) : StripeIo :=
  let rc := addParityRequest p io.disks .read io.firstSector io.parityBuf io.reqControl.reset
  if 0 < rc.numFailed then
    let rc := addDataRequests p io.disks .write io.firstSector io.nthSector io.buffer rc.reset
    let io := { io with reqControl := rc }
    if rc.numFailed = 0 then io.initiateIORequests .stripeIo else io.initiateStripeIOFailure
  else if io.nthSector - io.firstSector < p.dataSectorsPerStripe / 2 then
    { io with reqControl := rc, recoverProc := .reconstructWrite }.initiateReadModifyWrite p (callRecover p 2)
  else
    { io with reqControl := rc, recoverProc := .readModifyWrite }.initiateReconstructWrite p (callRecover p 2)

/-- The first part of `oldInfoReadDoneProc`, with no request failed, up to the new parity. -/
def computeParity (io : StripeIo) : StripeIo :=
  let newParityBuf : Ptr := ⟨.newParityBuf, 0⟩
  let io := { io with mem := io.mem.fill newParityBuf p.bytesPerStripeUnit fun _ => 0 }
  let io := io.xorRange p newParityBuf io.rangeOff io.rangeLen
  let rc := addDataRangeRequests p io.disks .write io.firstSector io.nthSector io.buffer io.rangeOff io.rangeLen io.reqControl.reset
  { io with reqControl := rc.completeFailed }.xorRange p newParityBuf io.rangeOff io.rangeLen

/-- `oldInfoReadDoneProc`, with no request failed. -/
def writeNew (io : StripeIo) : StripeIo :=
  let io := { io.computeParity p with parityBuf := ⟨.newParityBuf, 0⟩ }
  let rc := addParityRangeRequest p io.disks .write io.firstSector io.parityBuf io.rangeOff io.rangeLen io.reqControl
  let io := { io with reqControl := rc }
  match rc.numFailed with
  | 0 => io.initiateIORequests .stripeWrite
  | 1 => io.initiateIORequests .stripeIo
  | _ => io.initiateStripeIOFailure

def initiateReconstructRead (io : StripeIo) (failedReq : BlockRequest) : StripeIo :=
  let rc := { io.reqControl with numFailed := 0, failedReq := some failedReq }
  let rc := io.addRest p failedReq.startAddress failedReq.bufferLen rc
  let rc := addParityRangeRequest p io.disks .read io.firstSector io.parityBuf failedReq.startAddress failedReq.bufferLen rc
  let io := { io with reqControl := rc }
  match rc.numFailed with
  | 0 => io.initiateIORequests .reconstructStripeRead
  | _ => io.initiateStripeIOFailure

def initiateStripeRead (io : StripeIo) : StripeIo :=
  let rc := addDataRequests p io.disks .read io.firstSector io.nthSector io.buffer io.reqControl.reset
  let io := { io with reqControl := rc }
  match rc.numFailed, rc.failedReq with
  | 0, _ => io.initiateIORequests .stripeRead
  | 1, some failedReq => io.initiateReconstructRead p failedReq
  | _, _ => io.initiateStripeIOFailure

/-- The data of the request that has failed are computed. -/
def reconstructData (io : StripeIo) : StripeIo :=
  match io.reqControl.failedReq with
  | none => io
  | some r =>
    { io with mem := io.mem.fill r.buffer r.bufferLen fun _ => 0 }.xorRange p r.buffer r.startAddress r.bufferLen

/-- The callback, with the number of requests that have failed and the last of them. -/
def callDone (io : StripeIo) (numFailed : Nat) (failedReq : Option BlockRequest) : DoneProc → StripeIo
  | .oldInfoRead =>
    match numFailed, failedReq with
    | 0, _ => io.writeNew p
    | _, none => io
    | _, some failedReq =>
      { io with reqControl := { io.reqControl with failedReq := some failedReq } }.recover p (callRecover p 2) failedReq
  | .stripeWrite => { io with status := .done (if numFailed ≤ 1 then 0 else numFailed) }
  | .stripeIo => { io with status := .done numFailed }
  | .stripeRead =>
    match numFailed, failedReq with
    | 1, some failedReq => io.initiateReconstructRead p failedReq
    | _, _ => { io with status := .done numFailed }
  | .reconstructStripeRead =>
    match numFailed with
    | 0 => { io.reconstructData p with status := .done 0 }
    | _ => { io with status := .done numFailed }

/-- The requests that go on come to their end. -/
def step (io : StripeIo) (out : Outcome) : StripeIo :=
  match io.status with
  | .done _ => io
  | .waiting proc =>
    let failed := failures out io.reqControl.reqs
    ((io.complete out).failDisks out).callDone p failed.length ((failed.find? out.last).or failed.getLast?) proc

def run (io : StripeIo) (outs : List Outcome) : StripeIo := outs.foldl (step p) io

end StripeIo

end SpriteKernel.DevRaid.Initiate
