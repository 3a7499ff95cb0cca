import SpriteKernel.Fs.Types
import SpriteKernel.Lfs.Types
import Mathlib.Logic.Function.Basic

/- The segment usage array (`lfsSegUsage.c`): how many bytes of each segment are live, and which are clean, dirty or
   full. A clean segment's `activeBytes` is the number of the next clean one; those of the segment the log is in are
   in the checkpoint. The array is in stable memory (`lfsStableMem.c`), whose blocks are in the log: the first change
   to a block frees its old place, which changes the array once more. All entries are taken to be cached. -/
namespace SpriteKernel.Lfs

open Function

open SpriteKernel

structure SegUsageEntry where
  activeBytes : Int
  timeOfLastWrite : Int
  clean : Bool
  dirty : Bool
  deriving DecidableEq, Repr

structure SegUsageCheckPoint where
  freeBlocks : Int
  numClean : Int
  numDirty : Int
  dirtyActiveBytes : Int
  currentSegment : Int
  currentBlockOffset : Int
  curSegActiveBytes : Int
  previousSegment : Int
  cleanSegList : Int
  deriving DecidableEq, Repr

structure SegLogRange where
  current : Int
  prevSeg : Int
  nextSeg : Int
  deriving DecidableEq, Repr

/-- `LfsSegList`. -/
structure SegListEntry where
  segNumber : Int
  activeBytes : Int
  priority : Nat
  deriving DecidableEq, Repr

/-- `LfsStableMemEntry`: the block fetched, and whether it is released as modified. -/
structure SmemEntry where
  blockNum : Nat
  modified : Bool
  deriving DecidableEq, Repr

/-- `blockIndex`: where the array's blocks are on disk; `panic`: the kernel has stopped; `cleanStarted`:
    `LfsSegCleanStart` was called. -/
structure SegUsage where
  params : SuperBlock
  checkPoint : SegUsageCheckPoint
  timeOfLastWrite : Int
  entry : Int → SegUsageEntry
  blockIndex : Nat → DiskAddr
  panic : Bool := false
  cleanStarted : Bool := false

def lfsMinCleanThreshold : Int := 5

namespace SegUsage

/-! ## Small steps -/

def setEntry (segNumber : Int) (s : SegUsageEntry) (u : SegUsage) : SegUsage :=
  { u with entry := update u.entry segNumber s }

def setCheckPoint (cp : SegUsageCheckPoint) (u : SegUsage) : SegUsage := { u with checkPoint := cp }

/-- `LfsSetNilDiskAddr` of the place of a block of the array. -/
def clearIndex (block : Nat) (u : SegUsage) : SegUsage :=
  { u with blockIndex := update u.blockIndex block nilDiskAddr }

def stop (u : SegUsage) : SegUsage := { u with panic := true }

def segCleanStart (u : SegUsage) : SegUsage := { u with cleanStarted := true }

/-- The block of the array that a segment's entry is in. -/
def blockOf (u : SegUsage) (segNumber : Int) : Nat := segNumber.toNat / u.params.entriesPerBlock

def segmentOf (u : SegUsage) (block : Nat) : Int := u.params.diskAddrToSegmentNum (u.blockIndex block)

/-- How many blocks the array has. -/
def numBlocks (u : SegUsage) : Nat := u.params.numberSegments / u.params.entriesPerBlock + 1

@[simp] theorem setEntry_entry_self (n : Int) (s : SegUsageEntry) (u : SegUsage) : (u.setEntry n s).entry n = s := by
  exact update_self n s u.entry

theorem setEntry_entry_of_ne {n i : Int} (h : i ≠ n) (s : SegUsageEntry) (u : SegUsage) :
    (u.setEntry n s).entry i = u.entry i := by
  exact update_of_ne h s u.entry

@[simp] theorem clearIndex_self (b : Nat) (u : SegUsage) : (u.clearIndex b).blockIndex b = nilDiskAddr := by
  exact update_self b nilDiskAddr u.blockIndex

theorem clearIndex_of_ne {b c : Nat} (h : c ≠ b) (u : SegUsage) : (u.clearIndex b).blockIndex c = u.blockIndex c := by
  exact update_of_ne h nilDiskAddr u.blockIndex

@[simp] theorem setEntry_checkPoint (n : Int) (s : SegUsageEntry) (u : SegUsage) :
    (u.setEntry n s).checkPoint = u.checkPoint := rfl

@[simp] theorem setEntry_params (n : Int) (s : SegUsageEntry) (u : SegUsage) :
    (u.setEntry n s).params = u.params := rfl

@[simp] theorem setEntry_blockIndex (n : Int) (s : SegUsageEntry) (u : SegUsage) :
    (u.setEntry n s).blockIndex = u.blockIndex := rfl

@[simp] theorem setCheckPoint_checkPoint (cp : SegUsageCheckPoint) (u : SegUsage) :
    (u.setCheckPoint cp).checkPoint = cp := rfl

@[simp] theorem setCheckPoint_entry (cp : SegUsageCheckPoint) (u : SegUsage) :
    (u.setCheckPoint cp).entry = u.entry := rfl

@[simp] theorem setCheckPoint_params (cp : SegUsageCheckPoint) (u : SegUsage) :
    (u.setCheckPoint cp).params = u.params := rfl

@[simp] theorem setCheckPoint_blockIndex (cp : SegUsageCheckPoint) (u : SegUsage) :
    (u.setCheckPoint cp).blockIndex = u.blockIndex := rfl

/-! ## Setting the usage of a segment -/

/-- `LfsSetSegUsage` for the segment being written. -/
def setCurrentUsage (activeBytes : Int) (u : SegUsage) : SegUsage :=
  let cp := u.checkPoint
  let newActiveBytes := max (cp.curSegActiveBytes + activeBytes) 0
  u.setCheckPoint { cp with
    curSegActiveBytes := newActiveBytes
    freeBlocks := cp.freeBlocks +
      (u.params.bytesToBlocks cp.curSegActiveBytes - u.params.bytesToBlocks newActiveBytes) }

/-- `LfsSetSegUsage` for another segment, up to the release of its entry. -/
def setEntryUsage (segNumber activeBytes : Int) (u : SegUsage) : SegUsage :=
  let s := u.entry segNumber
  let newActiveBytes := max (s.activeBytes + activeBytes) 0
  let cp := { u.checkPoint with freeBlocks := u.checkPoint.freeBlocks +
    (u.params.bytesToBlocks s.activeBytes - u.params.bytesToBlocks newActiveBytes) }
  if s.clean then (u.setCheckPoint cp).stop
  else if newActiveBytes ≤ cp.dirtyActiveBytes then
    if s.dirty then (u.setCheckPoint cp).setEntry segNumber { s with activeBytes := newActiveBytes }
    else (u.setCheckPoint { cp with numDirty := cp.numDirty + 1 }).setEntry segNumber
      { s with activeBytes := newActiveBytes, dirty := true }
  else if s.dirty then
    (u.setCheckPoint { cp with numDirty := cp.numDirty - 1 }).setEntry segNumber
      { s with activeBytes := newActiveBytes, dirty := false }
  else (u.setCheckPoint cp).setEntry segNumber { s with activeBytes := newActiveBytes }

/-- `LfsSetSegUsage`, where the entry's release frees its block's old place. Every call forgets one place. -/
def setSegUsageNested : Nat → Int → Int → SegUsage → SegUsage
  | nested, segNumber, activeBytes, u =>
    if ¬u.params.validSegmentNum segNumber then u.stop
    else if segNumber = u.checkPoint.currentSegment then u.setCurrentUsage activeBytes
    else if (u.entry segNumber).clean then u.setEntryUsage segNumber activeBytes
    else
      let block := u.blockOf segNumber
      let u := u.setEntryUsage segNumber activeBytes
      match nested with
      | 0 => u
      | nested + 1 =>
        if u.blockIndex block = nilDiskAddr then u
        else setSegUsageNested nested (u.segmentOf block) (-u.params.stableBlockSize) (u.clearIndex block)

def setSegUsage (segNumber activeBytes : Int) (u : SegUsage) : SegUsage :=
  setSegUsageNested u.numBlocks segNumber activeBytes u

/-! ## Stable memory -/

def release (e : SmemEntry) (u : SegUsage) : SegUsage :=
  if e.modified && u.blockIndex e.blockNum != nilDiskAddr then
    (u.clearIndex e.blockNum).setSegUsage (u.segmentOf e.blockNum) (-u.params.stableBlockSize)
  else u

def releaseHeld (held : Option SmemEntry) (u : SegUsage) : SegUsage :=
  match held with
  | some e => u.release e
  | none => u

/-- `LfsStableMemFetch` of a segment's entry, releasing the one held before; `none` for an invalid number. -/
def fetch (segNumber : Int) (held : Option SmemEntry) (u : SegUsage) : Option SmemEntry × SegUsage :=
  if ¬u.params.validSegmentNum segNumber then (none, u.releaseHeld held)
  else
    let block := u.blockOf segNumber
    match held with
    | some e => if e.blockNum = block then (some e, u) else (some ⟨block, false⟩, u.release e)
    | none => (some ⟨block, false⟩, u)

/-! ## The log -/

/-- What `LfsGetLogTail` returns: its status, and with `SUCCESS` the range and the
starting block. -/
structure LogTail where
  status : ReturnStatus
  range : Option SegLogRange := none
  startBlock : Int := 0
  deriving DecidableEq, Repr

/-- The old current segment's entry takes over its count. -/
def retireCurrent (u : SegUsage) : SegUsage :=
  let cp := u.checkPoint
  let s := u.entry cp.currentSegment
  let isDirty := decide (cp.curSegActiveBytes ≤ cp.dirtyActiveBytes)
  (u.setCheckPoint { cp with numDirty := if isDirty then cp.numDirty + 1 else cp.numDirty }).setEntry
    cp.currentSegment
    { s with
      activeBytes := cp.curSegActiveBytes
      dirty := s.dirty || isDirty
      timeOfLastWrite := u.timeOfLastWrite }

def takeClean (segNumber : Int) (u : SegUsage) : SegUsage :=
  let cp := u.checkPoint
  let s := u.entry segNumber
  let u := { u with timeOfLastWrite := 0 }
  let u := (u.setCheckPoint { cp with
    cleanSegList := s.activeBytes
    previousSegment := cp.currentSegment
    currentSegment := segNumber
    numClean := cp.numClean - 1
    curSegActiveBytes := 0 }).setEntry segNumber { s with activeBytes := 0, clean := false }
  if u.checkPoint.numClean ≤ u.params.minNumClean then u.segCleanStart else u

/-- The range `LfsGetLogTail` returns for the current segment. -/
def logRange (u : SegUsage) : SegLogRange :=
  { current := u.checkPoint.currentSegment
    prevSeg := u.checkPoint.previousSegment
    nextSeg := u.checkPoint.cleanSegList }

/-- `LfsGetLogTail`, where a new segment is needed and there is a clean one. -/
def newLogSegment (u : SegUsage) : LogTail × SegUsage :=
  match u.fetch u.checkPoint.currentSegment none with
  | (none, u) => ({ status := .genInvalidArg }, u.stop)
  | (some e, u) =>
    let u := u.retireCurrent
    let segNumber := u.checkPoint.cleanSegList
    match u.fetch segNumber (some { e with modified := true }) with
    | (none, u) => ({ status := .genInvalidArg }, u.stop)
    | (some e, u) =>
      let u := u.takeClean segNumber
      ({ status := .success, range := some u.logRange, startBlock := 0 }, u.release { e with modified := true })

def getLogTail (cantWait : Bool) (u : SegUsage) : LogTail × SegUsage :=
  let cp := u.checkPoint
  let low := !cantWait && decide (cp.numClean ≤ u.params.minNumClean + lfsMinCleanThreshold)
  let u := if low then u.segCleanStart else u
  if low && decide (cp.numClean ≤ u.params.minNumClean) then ({ status := .fsWouldBlock }, u)
  else if cp.currentBlockOffset ≠ -1 then
    ({ status := .success, range := some u.logRange, startBlock := cp.currentBlockOffset }, u)
  else if cp.numClean = 0 then ({ status := .fsNoDiskSpace }, u)
  else u.newLogSegment

def setLogTail (logRange : SegLogRange) (startBlock activeBytes timeOfLastWrite : Int) (u : SegUsage) :
    SegUsage :=
  let u := u.setCheckPoint { u.checkPoint with currentBlockOffset := startBlock }
  let u := { u with timeOfLastWrite := max u.timeOfLastWrite timeOfLastWrite }
  if activeBytes > 0 then u.setSegUsage logRange.current activeBytes else u

/-! ## Cleaning -/

/-- What `LfsMarkSegsClean` keeps while it threads the segments onto a list. -/
structure Marking where
  first : Int := -1
  previous : Int := -1
  held : Option SmemEntry := none
  usage : SegUsage

/-- One segment of the list; `none` where it cannot be fetched. -/
def markSegClean (segNumber : Int) (m : Marking) : Option Marking :=
  if segNumber = -1 then some m
  else
    match m.usage.fetch segNumber m.held with
    | (none, _) => none
    | (some e, u) =>
      let s := u.entry segNumber
      if s.clean then some { m with held := some e, usage := u }
      else
        let cp := u.checkPoint
        let u := u.setCheckPoint { cp with
          numDirty := if s.dirty then cp.numDirty - 1 else cp.numDirty
          numClean := cp.numClean + 1 }
        some
          { first := if m.previous = -1 then segNumber else m.first
            previous := segNumber
            held := some { e with modified := true }
            usage := u.setEntry segNumber { s with clean := true, dirty := false, activeBytes := m.previous } }

/-- The loop of `LfsMarkSegsClean`, and whether it came to its end. -/
def markLoop : List Int → Marking → Bool × Marking
  | [], m => (true, m)
  | segNumber :: segs, m =>
    match markSegClean segNumber m with
    | some m' => markLoop segs m'
    | none => (false, { m with usage := (m.usage.fetch segNumber m.held).2.stop })

/-- The end of `LfsMarkSegsClean`: the marked segments go on the list behind its head. -/
def insertMarked (m : Marking) : SegUsage :=
  let head := m.usage.checkPoint.cleanSegList
  match m.usage.fetch head m.held with
  | (none, u) => u.stop
  | (some e, u) =>
    let nextSeg := (u.entry head).activeBytes
    let u := u.setEntry head { u.entry head with activeBytes := m.previous }
    match u.fetch m.first (some { e with modified := true }) with
    | (none, u) => u.stop
    | (some e, u) =>
      (u.setEntry m.first { u.entry m.first with activeBytes := nextSeg }).release { e with modified := true }

/-- `LfsMarkSegsClean` of the segments with these numbers. -/
def markSegsClean (segs : List Int) (u : SegUsage) : SegUsage :=
  let r := markLoop segs { usage := u }
  if !r.1 then r.2.usage
  else if r.2.previous = -1 then r.2.usage
  else insertMarked r.2

/-- `LfsSetDirtyLevel`, one segment. -/
def setDirtyLevelOf (dirtyActiveBytes segNum : Int) (h : Option SmemEntry × SegUsage) :
    Option SmemEntry × SegUsage :=
  match h.2.fetch segNum h.1 with
  | (none, u) => (none, u.stop)
  | (some e, u) =>
    let s := u.entry segNum
    if s.activeBytes ≤ dirtyActiveBytes then
      if s.dirty || s.clean then (some e, u)
      else
        (some { e with modified := true },
          (u.setCheckPoint { u.checkPoint with numDirty := u.checkPoint.numDirty + 1 }).setEntry segNum
            { s with dirty := true })
    else (some e, u)

def setDirtyLevel (dirtyActiveBytes : Int) (u : SegUsage) : SegUsage :=
  let u := u.setCheckPoint { u.checkPoint with dirtyActiveBytes := dirtyActiveBytes }
  let r := (List.range u.params.numberSegments).foldl
    (fun h (segNum : Nat) => setDirtyLevelOf dirtyActiveBytes segNum h) (none, u)
  r.2.releaseHeld r.1

/-- The age in minutes `LfsGetSegsToClean` uses: one minute at least and two years at
most. -/
def ageOf (currentTime timeOfLastWrite : Int) : Int :=
  let age := (currentTime - timeOfLastWrite).tdiv 60
  if age > 60 * 24 * 365 * 2 then 60 * 24 * 365 * 2
  else if age ≤ 0 then 1
  else age

/-- The priority of a dirty segment, in unsigned 32-bit arithmetic. -/
def priorityOf (u : SegUsage) (currentTime : Int) (s : SegUsageEntry) : Nat :=
  if s.activeBytes = 0 then 0x7fffffff
  else
    let blocks := if s.activeBytes < 0 then 0 else u.params.bytesToBlocks s.activeBytes
    let word := fun n : Int => (n % 4294967296).toNat
    word ((u.params.segSizeInBlocks - blocks) * ageOf currentTime s.timeOfLastWrite) /
      word (u.params.segSizeInBlocks + blocks)

/-- Put a segment behind the last of at least its priority, in an array of `maxSegArrayLen`. -/
def insertByPriority (maxSegArrayLen : Nat) (e : SegListEntry) (segs : List SegListEntry) : List SegListEntry :=
  let i := (segs.reverse.dropWhile (fun d => decide (d.priority < e.priority))).length
  (segs.take i ++ e :: segs.drop i).take maxSegArrayLen

/-- `LfsGetSegsToClean`: the array, `*minNeededToCleanPtr` and `*maxAvailToWritePtr`. -/
structure SegsToClean where
  segs : List SegListEntry
  minNeededToClean : Int
  maxAvailToWrite : Int

/-- `LfsGetSegsToClean`, one segment. -/
def considerSeg (maxSegArrayLen : Nat) (currentTime segNum : Int)
    (h : List SegListEntry × Option SmemEntry × SegUsage) : List SegListEntry × Option SmemEntry × SegUsage :=
  let (segs, held, u) := h
  if u.checkPoint.currentSegment = segNum then h
  else
    match u.fetch segNum held with
    | (none, u) => (segs, none, u.stop)
    | (some e, u) =>
      let s := u.entry segNum
      let u :=
        if !(s.clean || s.dirty) && decide (s.activeBytes ≤ u.checkPoint.dirtyActiveBytes) then
          (u.setCheckPoint { u.checkPoint with numDirty := u.checkPoint.numDirty + 1 }).setEntry segNum
            { s with dirty := true }
        else u
      let s := u.entry segNum
      (if s.dirty then insertByPriority maxSegArrayLen ⟨segNum, s.activeBytes, u.priorityOf currentTime s⟩ segs
        else segs, some e, u)

/-- `LfsGetSegsToClean`; `fullClean` is `LFS_CONTROL_CLEANALL`. -/
def getSegsToClean (maxSegArrayLen : Nat) (currentTime : Int) (fullClean : Bool) (u : SegUsage) :
    SegsToClean × SegUsage :=
  let (segs, held, u) := (List.range u.params.numberSegments).foldl
    (fun h (segNum : Nat) => considerSeg maxSegArrayLen currentTime segNum h) ([], none, u)
  let u := u.releaseHeld held
  let cp := u.checkPoint
  ({ segs := segs
     minNeededToClean :=
      if fullClean then segs.length
      else max (u.params.minNumClean + u.params.numSegsToClean + 1 - cp.numClean) 0
     maxAvailToWrite := min (u.params.minNumClean.tdiv 2) (cp.numClean - 10) }, u)

/-! ## Steps -/

inductive Label where
  | setSegUsage (segNumber activeBytes : Int)
  | getLogTail (cantWait : Bool)
  | setLogTail (logRange : SegLogRange) (startBlock activeBytes timeOfLastWrite : Int)
  | setDirtyLevel (dirtyActiveBytes : Int)
  | getSegsToClean (maxSegArrayLen : Nat) (currentTime : Int) (fullClean : Bool)
  | markSegsClean (segs : List Int)
  deriving DecidableEq, Repr

/-- One call, while the kernel runs. -/
def step (u : SegUsage) (l : Label) : Option SegUsage :=
  if u.panic then none
  else
    some (match l with
      | .setSegUsage segNumber activeBytes => u.setSegUsage segNumber activeBytes
      | .getLogTail cantWait => (u.getLogTail cantWait).2
      | .setLogTail range startBlock activeBytes time => u.setLogTail range startBlock activeBytes time
      | .setDirtyLevel dirtyActiveBytes => u.setDirtyLevel dirtyActiveBytes
      | .getSegsToClean maxSegArrayLen currentTime fullClean =>
        (u.getSegsToClean maxSegArrayLen currentTime fullClean).2
      | .markSegsClean segs => u.markSegsClean segs)

end SegUsage

end SpriteKernel.Lfs
