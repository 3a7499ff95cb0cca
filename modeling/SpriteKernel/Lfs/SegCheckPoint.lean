import Mathlib.Data.Finset.Basic
import Mathlib.Logic.Function.Basic

/- Checkpoints of one file system by several processes (`lfsSeg.c`, `lfsLoad.c`): each `LfsCheckPointFileSystem`
   waits for its turn, captures what the modules have, and writes it to the next area under a timestamp. The cleaner
   checkpoints before it marks the segments it cleaned. Of the descriptor map and the usage array a state has the
   segments they refer to. A capture is one step, as `LFS_WRITE_ACTIVE` keeps the calls apart; a wait is a step that
   is enabled once it is over. -/
namespace SpriteKernel.Lfs.CheckPoints
open Function

/-- The flags `LfsSegCheckPoint` looks at; `LFS_CHECKPOINT_CLEANER` is given by the cleaner alone. -/
structure CallFlags where
  detach : Bool
  timer : Bool
  deriving DecidableEq

/-- A process. The cleaner is `none`. -/
abbrev Proc := Option Nat

/-- The `activeFlags`, the directory operations, and whether a sleeper holds `lfsPtr->lock`. -/
structure Flags where
  cleanerActive : Bool
  syncCheckPointActive : Bool
  cleanerCheckPointActive : Bool
  checkPointWaitActive : Bool
  shutdownActive : Bool
  dirModsActive : Nat
  lockHeld : Bool

def Flags.checkPointActive (f : Flags) : Bool := f.syncCheckPointActive || f.cleanerCheckPointActive

/-- What a checkpoint has of the file system: the segments it refers to, and when it was
captured. -/
structure Capture where
  time : Nat
  refs : Finset Nat
  deriving DecidableEq

inductive Call where
  | out
  | waiting
  | queued (flags : CallFlags)
  | dirMods (flags : CallFlags)
  | cleanerExit
  | laying
  | captured (c : Capture)
  | written
  deriving DecidableEq

/-- A checkpoint on the disk. -/
structure Written where
  timestamp : Nat
  capture : Capture

inductive Cleaner where
  | off
  | cleaning (segs : Finset Nat)
  | marking (segs : Finset Nat)

/-- `lfsPtr->checkPoint` and the two areas, `none` after a failed write; `completed` keeps all that were completed. -/
structure Areas where
  timestamp : Nat
  nextArea : Bool
  areas : Bool → Option Written
  completed : List Written

/-- The segments the file system refers to, the clean ones, and the one it is writing. -/
structure Segments where
  refs : Finset Nat
  clean : Finset Nat
  currentSegment : Nat

structure State where
  flags : Flags
  calls : Proc → Call
  cleaner : Cleaner
  segs : Segments
  disk : Areas
  clock : Nat
  panicked : Bool

def Cleaner.segs : Cleaner → Finset Nat
  | .off => ∅
  | .cleaning segs => segs
  | .marking segs => segs

def State.setCall (s : State) (p : Proc) (c : Call) : State := { s with calls := update s.calls p c }

def State.setFlags (s : State) (f : Flags) : State := { s with flags := f }

/-- `LfsSegCheckPoint`, from the wait for the cleaner on. `Sync_WaitTime` keeps the lock. -/
def State.waitCleanerExit (s : State) (p : Proc) (flags : CallFlags) : State :=
  if flags.detach then
    let s := s.setFlags { s.flags with shutdownActive := true }
    if s.flags.cleanerActive then (s.setFlags { s.flags with lockHeld := true }).setCall p .cleanerExit
    else s.setCall p .laying
  else s.setCall p .laying

/-- `LfsSegCheckPoint`, from the wait for the directory operations on. -/
def State.waitDirMods (s : State) (p : Proc) (flags : CallFlags) : State :=
  if 0 < s.flags.dirModsActive then s.setCall p (.dirMods flags) else s.waitCleanerExit p flags

/-- `LfsSegCheckPoint`, from the wait for other checkpoints on. -/
def State.waitCheckPoint (s : State) (p : Proc) (flags : CallFlags) : State :=
  if p ≠ none then
    if s.flags.checkPointActive then
      if flags.timer then s.setCall p .out else s.setCall p (.queued flags)
    else (s.setFlags { s.flags with syncCheckPointActive := true }).waitDirMods p flags
  else (s.setFlags { s.flags with cleanerCheckPointActive := true }).waitDirMods p flags

def State.segCheckPoint (s : State) (p : Proc) (flags : CallFlags) : State :=
  if s.flags.cleanerActive then
    if flags.timer then s.setCall p .out
    else if ¬(flags.detach ∨ p = none) then
      (s.setFlags { s.flags with checkPointWaitActive := true }).setCall p .waiting
    else s.waitCheckPoint p flags
  else s.waitCheckPoint p flags

/-- A process goes on behind its wait. -/
def State.resume (s : State) (p : Proc) : Option State :=
  match s.calls p with
  | .waiting => if s.flags.lockHeld ∨ s.flags.checkPointWaitActive then none else some (s.setCall p .out)
  | .queued flags =>
    if s.flags.lockHeld ∨ s.flags.checkPointActive then none else some (s.waitCheckPoint p flags)
  | .dirMods flags =>
    if s.flags.lockHeld ∨ 0 < s.flags.dirModsActive then none else some (s.waitCleanerExit p flags)
  | .cleanerExit =>
    if s.flags.cleanerActive then none
    else some ((s.setFlags { s.flags with lockHeld := false }).setCall p .laying)
  | _ => none

/-- The modules have laid out what they have, and put it into the checkpoint. -/
def State.capture (s : State) (p : Proc) : Option State :=
  match s.calls p with
  | .laying => some { s.setCall p (.captured ⟨s.clock, s.segs.refs⟩) with clock := s.clock + 1 }
  | _ => none

/-- `LfsGetCurrentTimestamp`. -/
def Areas.stamp (d : Areas) : Areas := { d with timestamp := (d.timestamp + 1) % 4294967296 }

def Areas.write (d : Areas) (c : Capture) : Areas where
  timestamp := d.stamp.timestamp
  nextArea := !d.nextArea
  areas := update d.areas d.nextArea (some ⟨d.stamp.timestamp, c⟩)
  completed := ⟨d.stamp.timestamp, c⟩ :: d.completed

/-- `LfsCheckPointFileSystem`, under `checkPointLock`. -/
def State.write (s : State) (p : Proc) : Option State :=
  match s.calls p with
  | .captured c => some { s.setCall p .written with disk := s.disk.write c }
  | _ => none

/-- The write fails, and `LfsError` panics. -/
def State.writeFails (s : State) (p : Proc) : Option State :=
  match s.calls p with
  | .captured _ =>
    some { s with
      disk := { s.disk.stamp with areas := update s.disk.areas s.disk.nextArea none }
      panicked := true }
  | _ => none

def State.segCheckPointDone (s : State) (p : Proc) : State :=
  if p = none then
    (s.setFlags { s.flags with cleanerCheckPointActive := false, checkPointWaitActive := false }).setCall p .out
  else (s.setFlags { s.flags with syncCheckPointActive := false, checkPointWaitActive := false }).setCall p .out

def State.segCleanStart (s : State) : State :=
  if s.flags.cleanerActive then s
  else { s.setFlags { s.flags with cleanerActive := true } with cleaner := .cleaning ∅ }

/-- `SegmentCleanProc` has read a segment, not clean nor current, and written again what was live in it. -/
def State.clean (s : State) (seg : Nat) : Option State :=
  match s.cleaner with
  | .cleaning segs =>
    if s.calls none ≠ .out ∨ seg ∈ s.segs.clean ∨ seg = s.segs.currentSegment then none
    else some { s with
      cleaner := .cleaning (insert seg segs)
      segs := { s.segs with refs := s.segs.refs.erase seg } }
  | _ => none

/-- `SegmentCleanProc` behind its checkpoint. -/
def Cleaner.checkPointed : Cleaner → Cleaner
  | .cleaning segs => .marking segs
  | c => c

def State.markSegsClean (s : State) : Option State :=
  match s.cleaner with
  | .marking segs => some { s with
      cleaner := .cleaning ∅
      segs := { s.segs with clean := s.segs.clean ∪ segs } }
  | _ => none

/-- `SegmentCleanProc` exits. Its checkpoint for who waits is one more call by another process. -/
def State.cleanerExits (s : State) : Option State :=
  match s.cleaner with
  | .cleaning segs =>
    if s.flags.lockHeld ∨ s.calls none ≠ .out ∨ segs ≠ ∅ then none
    else some { s.setFlags { s.flags with cleanerActive := false } with cleaner := .off }
  | _ => none

/-- The log goes on in the current segment, or with a clean one (`LfsGetLogTail`). -/
def State.log (s : State) (seg : Nat) : Option State :=
  if seg ∈ s.segs.clean ∨ seg = s.segs.currentSegment then
    some { s with segs := ⟨insert seg s.segs.refs, s.segs.clean.erase seg, seg⟩ }
  else none

inductive Act where
  | segCheckPoint (p : Nat) (flags : CallFlags)
  | cleanerCheckPoint
  | resume (p : Proc)
  | capture (p : Proc)
  | write (p : Proc)
  | writeFails (p : Proc)
  | segCheckPointDone (p : Proc)
  | segCleanStart
  | clean (seg : Nat)
  | markSegsClean
  | cleanerExits
  | dirOpStart
  | dirOpEnd
  | waitForCleanSegments
  | log (seg : Nat)
  | free (seg : Nat)
  | stamp

/-- One step of one process; `none` where the process has to wait, or is somewhere else. -/
def step (s : State) (a : Act) : Option State :=
  if s.panicked then none
  else match a with
  | .segCheckPoint p flags =>
    if s.flags.lockHeld ∨ s.calls (some p) ≠ .out then none else some (s.segCheckPoint (some p) flags)
  | .cleanerCheckPoint =>
    match s.cleaner with
    | .cleaning _ =>
      if s.flags.lockHeld ∨ s.calls none ≠ .out then none else some (s.segCheckPoint none ⟨false, false⟩)
    | _ => none
  | .resume p => s.resume p
  | .capture p => s.capture p
  | .write p => s.write p
  | .writeFails p => s.writeFails p
  | .segCheckPointDone p =>
    if s.flags.lockHeld ∨ s.calls p ≠ .written then none
    else if p = none then some { s.segCheckPointDone p with cleaner := s.cleaner.checkPointed }
    else some (s.segCheckPointDone p)
  | .segCleanStart => some s.segCleanStart
  | .clean seg => s.clean seg
  | .markSegsClean => s.markSegsClean
  | .cleanerExits => s.cleanerExits
  | .dirOpStart =>
    if s.flags.lockHeld ∨ s.flags.checkPointActive then none
    else some (s.setFlags { s.flags with dirModsActive := s.flags.dirModsActive + 1 })
  | .dirOpEnd =>
    if s.flags.lockHeld ∨ s.flags.dirModsActive = 0 then none
    else some (s.setFlags { s.flags with dirModsActive := s.flags.dirModsActive - 1 })
  | .waitForCleanSegments =>
    if s.flags.lockHeld then none else some (s.setFlags { s.flags with checkPointWaitActive := true })
  | .log seg => s.log seg
  | .free seg => some { s with segs := { s.segs with refs := s.segs.refs.erase seg } }
  | .stamp => some { s with disk := s.disk.stamp }

end SpriteKernel.Lfs.CheckPoints
