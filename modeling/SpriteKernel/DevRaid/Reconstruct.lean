import SpriteKernel.DevRaid.StripeFrame

/- The reconstruction of a disk (devRaidReconstruct.c) beside reads and writes of stripes, each under its stripe's
   lock and one step. The reconstruction's steps end where it waits for its requests, so that a stripe is locked
   while it is read and while its unit is written. -/
namespace SpriteKernel.DevRaid.Initiate

namespace Params
variable (p : Params)

/-- `Raid_MapPhysicalToStripeID`. All rows are one group. -/
def mapPhysicalToStripeID (row sector : Nat) : Nat := sector / p.sectorsPerStripeUnit * p.geometry.numRow + row

end Params

/-- `InitiateStripeReconstruction` is to be called, requests go on for one of the two doneProcs, or it is over. -/
inductive Phase where
  | next
  | reading
  | writing
  | done (success : Bool)
  deriving DecidableEq

/-- `RaidReconstructionControl`, with its memory. -/
structure Reconstruction where
  stripeID : Nat
  reqControl : RequestControl
  parityBuf : Ptr
  readBuf : Ptr
  address : Buf → Int
  mem : Mem
  phase : Phase

/-- An array of which the disk at a column and row is reconstructed. -/
structure Rebuild where
  disks : Disks
  control : Reconstruction

def Reconstruction.locked (rec : Reconstruction) : Option Nat :=
  match rec.phase with
  | .reading => some rec.stripeID
  | .writing => some rec.stripeID
  | _ => none

namespace Rebuild
variable (p : Params) (col row : Nat)

def setPhase (s : Rebuild) (phase : Phase) : Rebuild := { s with control := { s.control with phase := phase } }

def initiateReconstructionFailure (s : Rebuild) : Rebuild := s.setPhase (.done false)

def initiateStripeReconstruction (s : Rebuild) : Rebuild :=
  let disk := s.disks col row
  if disk.numValidSector = p.sectorsPerDisk then s.setPhase (.done true)
  else if disk.state ≠ .ready then s.setPhase (.done true)
  else
    let stripeID := p.mapPhysicalToStripeID row disk.numValidSector
    let firstSector := p.stripeIDToSector stripeID
    let nthSector := p.nthSectorOfStripe firstSector
    let rc := addDataRequests p s.disks .read firstSector nthSector s.control.readBuf s.control.reqControl.reset
    let rc := addParityRequest p s.disks .read firstSector s.control.parityBuf rc
    let s := { s with control := { s.control with stripeID := stripeID, reqControl := rc } }
    if rc.numFailed = 1 then s.setPhase .reading else s.initiateReconstructionFailure

def complete (s : Rebuild) (out : Outcome) : Rebuild :=
  let t := s.control.reqControl.reqs.foldl (fun t r => transfer out r t) (s.control.mem, s.disks)
  { disks := t.2
    control :=
      { s.control with
        reqControl := { s.control.reqControl with reqs := s.control.reqControl.reqs.map (BlockRequest.complete out) }
        mem := t.1 } }

/-- The unit is computed into the buffer of the request that has failed, which becomes a
    write. -/
def computeUnit (s : Rebuild) (r : BlockRequest) : Rebuild :=
  let rc := s.control.reqControl
  let mem := s.control.mem.fill r.buffer r.bufferLen fun _ => 0
  let mem := xorAll s.control.address (xorRangeRequests p rc.reqs r.buffer r.startAddress r.bufferLen) mem
  let write := { r with operation := .write, state := .ready }
  { s with
    control :=
      { s.control with
        reqControl := { rc with reqs := rc.reqs.map fun q => if q = r then write else q, failedReq := some write }
        mem := mem } }

def reconstructionReadDone (s : Rebuild) (numFailed : Nat) : Rebuild :=
  if 0 < numFailed then s.initiateReconstructionFailure
  else
    match s.control.reqControl.failedReq with
    | none => s
    | some r =>
      let s := s.computeUnit p r
      let disk := s.disks col row
      if disk.state ≠ .ready then s.initiateReconstructionFailure
      else
        { s.setPhase .writing with
          disks := s.disks.set col row { disk with numValidSector := p.nthSectorOfStripeUnit disk.numValidSector } }

def reconstructionWriteDone (s : Rebuild) (numFailed : Nat) : Rebuild :=
  let disk := s.disks col row
  if 0 < numFailed then
    if disk.state ≠ .ready then s.initiateReconstructionFailure
    else
      { s.initiateReconstructionFailure with
        disks := s.disks.set col row { disk with numValidSector := p.firstSectorOfStripeUnit disk.numValidSector } }
  else if disk.state = .ready then
    { s.setPhase .next with disks := s.disks.set col row { disk with saved := disk.numValidSector } }
  else s.setPhase .next

def step (s : Rebuild) (out : Outcome) : Rebuild :=
  let numFailed := (failures out s.control.reqControl.reqs).length
  match s.control.phase with
  | .next => s.initiateStripeReconstruction p col row
  | .reading => (s.complete out).reconstructionReadDone p col row numFailed
  | .writing => (s.complete out).reconstructionWriteDone p col row numFailed
  | .done _ => s

end Rebuild

/-- A read and a write of sectors `f` to `t` of stripe `k`, with their buffers, and an outcome for each wait. -/
inductive Event where
  | reconstruct (out : Outcome)
  | restart
  | read (k f t : Nat) (address : Buf → Int) (mem : Mem) (outs : List Outcome)
  | write (k f t : Nat) (address : Buf → Int) (mem : Mem) (outs : List Outcome)
  | failDisk

/-- `InitiateStripeWrite` of a range, up to its end or before it. -/
def writeStripe (p : Params) (k f t : Nat) (address : Buf → Int) (mem : Mem) (disks : Disks) (outs : List Outcome) : StripeIo :=
  ((StripeIo.make (k * p.dataSectorsPerStripe + f) (k * p.dataSectorsPerStripe + t) address mem disks).initiateStripeWrite p).run p outs

/-- A stripe operation may go on: the range is one of a stripe, which is not locked. -/
structure MayGo (p : Params) (s : Rebuild) (k f t : Nat) : Prop where
  range : f < t ∧ t ≤ p.dataSectorsPerStripe
  stripe : p.height k < p.geometry.units
  unlocked : s.control.locked ≠ some k

/-- Writes fail on the disk at `col` and `row` only; reads fail anywhere. -/
def Outcome.WritesFailAt (out : Outcome) (col row : Nat) : Prop :=
  ∀ q : BlockRequest, q.operation = .write → out.fails q = true → q.col = col ∧ q.row = row

/-- **The steps** of an array of which the disk at `col` and `row` is reconstructed. -/
inductive Step (p : Params) (col row : Nat) : Rebuild → Event → Rebuild → Prop where
  | reconstruct {s : Rebuild} {out : Outcome} : Step p col row s (.reconstruct out) (s.step p col row out)
  | restart {s : Rebuild} {b : Bool} (hphase : s.control.phase = .done b) (hready : (s.disks col row).state = .ready) :
    Step p col row s .restart (s.setPhase .next)
  | read {s : Rebuild} {k f t : Nat} {address : Buf → Int} {mem : Mem} {outs : List Outcome} {m : Nat} (hgo : MayGo p s k f t)
      (houts : ∀ out ∈ outs, out.Alone) (hdone : (readStripe p k f t address mem s.disks outs).status = .done m) :
    Step p col row s (.read k f t address mem outs) { s with disks := (readStripe p k f t address mem s.disks outs).disks }
  | write {s : Rebuild} {k f t : Nat} {address : Buf → Int} {mem : Mem} {outs : List Outcome} {m : Nat} (hgo : MayGo p s k f t)
      (houts : ∀ out ∈ outs, out.Alone ∧ out.WritesFailAt col row)
      (hdone : (writeStripe p k f t address mem s.disks outs).status = .done m) :
    Step p col row s (.write k f t address mem outs) { s with disks := (writeStripe p k f t address mem s.disks outs).disks }
  | failDisk {s : Rebuild} : Step p col row s .failDisk { s with disks := s.disks.set col row (s.disks col row).fail }

/-- The states after a list of events, the first of which comes first. -/
inductive Run (p : Params) (col row : Nat) : Rebuild → List Event → Rebuild → Prop where
  | nil (s : Rebuild) : Run p col row s [] s
  | snoc {s t u : Rebuild} {events : List Event} {e : Event} (h : Run p col row s events t) (hs : Step p col row t e u) :
    Run p col row s (events ++ [e]) u

end SpriteKernel.DevRaid.Initiate
