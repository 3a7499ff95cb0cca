import SpriteKernel.Fscache.BlockCache
import SpriteKernel.Lib.Transition

/- The entries of the block cache's monitor, and the processes in them. One that waits has left the monitor, and goes
   on where it was; it may be woken at any time. The callers unlock the blocks they were given, return those they
   write, and finish the reallocations started. -/
namespace SpriteKernel.Fscache
open Function

/-- `flags` of Fscache_FetchBlock, less the type of block -/
structure FetchFlags where
  dontBlock : Bool := false
  cantBlock : Bool := false
  readAhead : Bool := false
  ioInProgress : Bool := false

/-- `flags` of Fscache_UnlockBlock -/
structure UnlockFlags where
  delete : Bool := false
  clearReadAhead : Bool := false
  unneeded : Bool := false
  beingCleaned : Bool := false

/-- `flags` of Fscache_FileWriteBack -/
structure WriteBackFlags where
  wait : Bool := false
  invalidate : Bool := false
  descOnly : Bool := false

/-- The statuses that Fscache_ReturnDirtyBlock tells apart -/
inductive WriteStatus where
  | success
  | interrupted
  | serverDown
  | noDiskSpace
  | domainUnavailable
  | deviceError
  | other

/-- VM's oldest reference time, and whether it has a page to map; `newer` is what is found where the LRU list is
    empty. -/
structure VmAnswer where
  refTime : Int
  mapped : Bool
  newer : Bool

/-- What a process that is in the monitor has still to do. -/
inductive CacheCall where
  | fetchBlock (f : Nat) (blockNum : Int) (flags : FetchFlags)
  | invalidate (f : Nat) (i lastBlock : Int)
  | writeBack (f : Nat) (i lastBlock : Int) (flags : WriteBackFlags) (fsyncFile : Bool)

/-- How far it came: it waits, or it returns, with a block or without one. -/
inductive CacheEnd where
  | waits (call : CacheCall)
  | returns (b : Option Nat)

/-- Where FSCACHE_LAST_BLOCK is given, the last block of the file. -/
def lastBlockOf (lastBlock lastByte : Int) : Int :=
  if lastBlock = -1 then if lastByte > 0 then lastByte / 4096 else 0 else lastBlock

namespace BlockCache
variable (c : CacheConfig) (s : BlockCache)

/-! ### Fscache_FetchBlock -/

def takeFree (cantBlock : Bool) : Option (BlockCache × Nat) :=
  if s.numAvailBlocks > s.minNumAvailBlocks ∨ cantBlock = true then
    match s.use .partFree, s.use .totFree with
    | b :: _, _ => some ((s.addFree (-1)).remove b, b)
    | [], b :: _ =>
      let s := (s.addFree (-1)).remove b
      some (if c.pageIs8K then s.moveRear .partFree (otherBlock b) else s, b)
    | [], [] => none
  else none

/-- From the label `getBlock` on. -/
def getBlock (cantBlock : Bool) (vm : VmAnswer) : BlockCache × Option Nat :=
  match s.createBlock c true vm.mapped with
  | some (s, b) => (s, some b)
  | none => s.fetchBlock cantBlock

def oldestIsNewer (vm : VmAnswer) : Bool :=
  match s.use .lru with
  | b :: _ => decide ((s.blocks b).timeReferenced > vm.refTime)
  | [] => vm.newer

def allocateBlock (cantBlock : Bool) (vm : VmAnswer) : BlockCache × Option Nat :=
  match s.takeFree c cantBlock with
  | some (s, b) => (s, some b)
  | none =>
    if s.numCacheBlocks ≥ s.maxCacheBlocks then
      match s.fetchBlock cantBlock with
      | (s, some b) => (s, some b)
      | (s, none) => if cantBlock then s.getBlock c cantBlock vm else (s, none)
    else if s.oldestIsNewer vm then s.getBlock c cantBlock vm
    else s.fetchBlock cantBlock

/-- The block is put in the cache under the key, referenced and with I/O in progress. -/
def enterBlock (f : Nat) (blockNum : Int) (flags : FetchFlags) (now : Int) (b : Nat) : BlockCache :=
  let s := s.addBlocksInCache f 1
  let s := s.setBlock b { s.blocks b with
    cacheInfo := f, refCount := 1, flags := { readAhead := flags.readAhead, ioInProgress := true }, fileNum := c.fileNum f,
    blockNum := blockNum, blockSize := -1, timeDirtied := 0, timeReferenced := now }
  if s.hash (f, blockNum) = some none then
    ((({ s with hash := update s.hash (f, blockNum) (some (some b)) } : BlockCache).insertRear .lru b).addAvail (-1)).checkAvail
  else s.panic .valueChanged

def referenceBlock (flags : FetchFlags) (b : Nat) : BlockCache :=
  let block := s.blocks b
  let blockFlags := { block.flags with ioInProgress := block.flags.ioInProgress || flags.ioInProgress }
  let s := s.setBlock b { block with refCount := block.refCount + 1, flags := blockFlags }
  if block.refCount + 1 = 1 ∧ block.flags.dirty = false then (s.addAvail (-1)).checkAvail else s

/-- Whether a block that is found has to be waited for. -/
def isBusy (flags : FetchFlags) (b : Nat) : Bool :=
  let block := s.blocks b
  (flags.ioInProgress && (decide (block.refCount > 0) || block.flags.ioInProgress || block.flags.beingWritten)) ||
    block.flags.ioInProgress

/-- `Hash_Find`: an entry that is not there is made, and its value is NIL. -/
def hashFind (key : BlockHashKey) : BlockCache :=
  match s.hash key with
  | some _ => s
  | none => { s with hash := update s.hash key (some none) }

/-- The loop of `Fscache_FetchBlock`. Where it goes round without having waited, VM is asked again. -/
def fetchLoop (f : Nat) (blockNum : Int) (flags : FetchFlags) (now : Int) : List VmAnswer → BlockCache → Option (BlockCache × CacheEnd)
  | [], _ => none
  | vm :: vms, s =>
    match (s.hashFind (f, blockNum)).hash (f, blockNum) with
    | some (some b) =>
      if (s.blocks b).fileNum ≠ c.fileNum f then some (s.panic .hashing, .returns none)
      else if s.isBusy flags b then some (s, if flags.dontBlock then .returns none else .waits (.fetchBlock f blockNum flags))
      else some (s.referenceBlock flags b, .returns (some b))
    | _ =>
      match (s.hashFind (f, blockNum)).allocateBlock c flags.cantBlock vm with
      | (s, some b) => some (s.enterBlock c f blockNum flags now b, .returns (some b))
      | (s, none) =>
        if flags.dontBlock then some (s, .returns none)
        else if flags.cantBlock ∨ s.use .lru = [] then fetchLoop f blockNum flags now vms s
        else some (s, .waits (.fetchBlock f blockNum flags))

/-! ### Invalidation and write-back of files -/

/-- `GetUnlockedBlock`: there is no entry, or the block has to be waited for, or it is found. -/
inductive Unlocked where
  | none
  | nil
  | wait
  | block (b : Nat)

def getUnlockedBlock (f : Nat) (i : Int) : Unlocked :=
  match s.hash (f, i) with
  | none => .none
  | some none => .nil
  | some (some b) => if (s.blocks b).refCount > 0 ∨ (s.blocks b).flags.beingWritten = true then .wait else .block b

/-- The body of the loop of `CacheFileInvalidate`. -/
def invalidateBlock (f : Nat) (i : Int) (b : Nat) : BlockCache :=
  if (s.blocks b).fileNum ≠ c.fileNum f then s.panic .hashing
  else
    let s := (s.addBlocksInCache f (-1)).hashDelete (f, i)
    let s := if (s.blocks b).flags.dirty then ((s.addDirtyBlocks f (-1)).deleteBlockFromDirtyList b).addAvail 1 else s
    (s.remove b).putOnFreeList c b

/-- The loop of `CacheFileInvalidate`, `n` blocks from `i` on, and where it waits. -/
def invalidateLoop (f : Nat) : Nat → Int → BlockCache → BlockCache × Option Int
  | 0, _, s => (s, none)
  | n + 1, i, s =>
    match s.getUnlockedBlock f i with
    | .none => invalidateLoop f n (i + 1) s
    | .nil => (s.panic .nilBlock, none)
    | .wait => (s, some i)
    | .block b => invalidateLoop f n (i + 1) (s.invalidateBlock c f i b)

def clearIfNone (f : Nat) : BlockCache :=
  if (s.files f).blocksInCache = 0 then s.setFileFlags f (s.files f).flags.clearErrors else s

/-- `CacheFileInvalidate` from block `i` on -/
def invalidateFrom (f : Nat) (i lastBlock : Int) : BlockCache × CacheEnd :=
  match s.invalidateLoop c f (lastBlock - i + 1).toNat i with
  | (s, none) => (s.clearIfNone f, .returns none)
  | (s, some i) => (s, .waits (.invalidate f i lastBlock))

def cacheFileInvalidate (f : Nat) (firstBlock lastBlock : Int) : BlockCache × CacheEnd :=
  if (s.files f).blocksInCache > 0 then s.invalidateFrom c f firstBlock lastBlock else (s.clearIfNone f, .returns none)

/-- A block that `Fscache_FileWriteBack` invalidates: it is left to the block cleaner, or freed. -/
def releaseBlock (f : Nat) (i : Int) (b : Nat) : BlockCache :=
  let block := s.blocks b
  if block.dirtyOrWritten then
    if block.flags.deleted then s else ((s.setFlags b { block.flags with deleted := true }).hashDelete (f, i)).remove b
  else (((s.addBlocksInCache f (-1)).hashDelete (f, i)).remove b).putOnFreeList c b

/-- The loop of `Fscache_FileWriteBack`: where it waits, and whether it found a dirty block. -/
def writeBackLoop (f : Nat) (flags : WriteBackFlags) : Nat → Int → Bool → BlockCache → BlockCache × Option Int × Bool
  | 0, _, fsyncFile, s => (s, none, fsyncFile)
  | n + 1, i, fsyncFile, s =>
    match s.hash (f, i) with
    | none => writeBackLoop f flags n (i + 1) fsyncFile s
    | some none => (s.panic .nilBlock, none, fsyncFile)
    | some (some b) =>
      if (s.blocks b).fileNum ≠ c.fileNum f then (s.panic .hashing, none, fsyncFile)
      else if (s.blocks b).refCount > 0 then
        if flags.invalidate || flags.wait then (s, some i, fsyncFile) else writeBackLoop f flags n (i + 1) fsyncFile s
      else
        writeBackLoop f flags n (i + 1) (fsyncFile || (s.blocks b).dirtyOrWritten)
          (if flags.invalidate then s.releaseBlock c f i b else s)

/-- `Fscache_FileWriteBack` from block `i` on, up to where it waits for the blocks to be written. -/
def writeBackFrom (f : Nat) (i lastBlock : Int) (flags : WriteBackFlags) (fsyncFile : Bool) : BlockCache × CacheEnd :=
  match s.writeBackLoop c f flags (lastBlock - i + 1).toNat i fsyncFile with
  | (s, none, fsyncFile) => (if (s.files f).flags.onDirtyList && fsyncFile then s.startFileSync f else s, .returns none)
  | (s, some i, fsyncFile) => (s, .waits (.writeBack f i lastBlock flags fsyncFile))

def fileWriteBack (f : Nat) (firstBlock lastBlock : Int) (flags : WriteBackFlags) : BlockCache × CacheEnd :=
  let s := s.setFileFlags f (s.files f).flags.clearErrors
  if (s.files f).blocksInCache = 0 ∨ flags.descOnly = true then
    (if (s.files f).flags.onDirtyList && flags.descOnly then s.startFileSync f else s, .returns none)
  else s.writeBackFrom c f firstBlock lastBlock flags false

/-! ### Unlocking blocks -/

def ioDone (b : Nat) : BlockCache := s.setFlags b { (s.blocks b).flags with ioInProgress := false }

/-- The reference of a process is given up; the block may become available. -/
def dereference (b : Nat) : BlockCache :=
  let block := { s.blocks b with refCount := (s.blocks b).refCount - 1 }
  let s := s.setBlock b block
  if block.refCount = 0 ∧ block.dirtyOrWritten = false then s.addAvail 1 else s

def markDirty (b : Nat) (timeDirtied : Int) (beingCleaned : Bool) : BlockCache :=
  let f := (s.blocks b).cacheInfo
  let s := if beingCleaned then
      (s.setFileFlags f { (s.files f).flags with beingCleaned := true }).setFlags b { (s.blocks b).flags with beingCleaned := true }
    else s
  if (s.blocks b).flags.dirty then s
  else
    let block := s.blocks b
    let s := s.setBlock b { block with flags := { block.flags with dirty := true }, timeDirtied := timeDirtied }
    if block.flags.beingWritten then s else (s.addDirtyBlocks f 1).putBlockOnDirtyList b false

def setSize (b : Nat) (diskBlock blockSize : Int) : BlockCache :=
  let block := s.blocks b
  if diskBlock ≠ -1 then s.setBlock b { block with diskBlock := diskBlock, blockSize := blockSize }
  else if block.blockSize = -1 ∧ blockSize > 0 then s.setBlock b { block with blockSize := blockSize }
  else s

/-- A block that nobody references any more is put where it belongs on the LRU list. -/
def placeUnlocked (b : Nat) (unneeded : Bool) (now : Int) : BlockCache :=
  let block := s.blocks b
  let flags := { block.flags with cleanerWaiting := false }
  if unneeded then
    if flags.dirty then s.setBlock b { block with flags := { flags with moveToFront := true }, timeReferenced := 0 }
    else (s.setBlock b { block with flags := flags, timeReferenced := 0 }).moveFront .lru b
  else (s.setBlock b { block with flags := { flags with moveToFront := false }, timeReferenced := now }).moveRear .lru b

def unlockBlock (b : Nat) (timeDirtied diskBlock blockSize : Int) (flags : UnlockFlags) (now : Int) : BlockCache × CacheEnd :=
  if (s.blocks b).flags.free then (s.panic .freeBlock, .returns none)
  else
    let s := s.ioDone b
    if flags.delete then (s.dereference b).cacheFileInvalidate c (s.blocks b).cacheInfo (s.blocks b).blockNum (s.blocks b).blockNum
    else
      let s := if flags.clearReadAhead then s.setFlags b { (s.blocks b).flags with readAhead := false } else s
      let s := if timeDirtied ≠ 0 then s.markDirty b timeDirtied flags.beingCleaned else s
      let s := (s.setSize b diskBlock blockSize).dereference b
      (if (s.blocks b).refCount = 0 then s.placeUnlocked b flags.unneeded now else s, .returns none)

/-! ### The block cleaner -/

/-- The scan of `Fscache_GetDirtyBlock`: what is referenced is marked. -/
def scanDirty (f : Nat) (blockMatch : Nat → Bool) : List Nat → BlockCache → BlockCache × Option Nat
  | [], s => (s, none)
  | b :: rest, s =>
    let block := s.blocks b
    if block.fileNum ≠ c.fileNum f then (s.panic .badBlock, none)
    else if block.refCount > 0 then scanDirty f blockMatch rest (s.setFlags b { block.flags with cleanerWaiting := true })
    else if blockMatch b then (s, some b)
    else scanDirty f blockMatch rest s

def startWrite (f b : Nat) : BlockCache :=
  let info := s.files f
  let block := s.blocks b
  let s := s.setFile f { info with dirtyList := info.dirtyList.erase b }
  let s := s.setBlock b { block with
    refCount := block.refCount + 1,
    flags := { block.flags with dirty := false, beingCleaned := false, beingWritten := true } }
  if block.blockSize < 0 then s.panic .blockSize else s

def getDirtyBlock (f : Nat) (blockMatch : Nat → Bool) : BlockCache × Option Nat :=
  let flags := (s.files f).flags
  if flags.closeInProgress ∨ flags.serverDown ∨ flags.noDiskSpace ∨ flags.genericError ∨ flags.gone then (s, none)
  else
    match s.scanDirty c f blockMatch (s.files f).dirtyList with
    | (s, some b) => (s.startWrite f b, some b)
    | (s, none) => (s, none)

/-- What an error means for the file. -/
def writeFailed (f : Nat) (status : WriteStatus) (now : Int) : BlockCache :=
  let info := s.files f
  let flags : FileFlags :=
    match status with
    | .serverDown => { info.flags with serverDown := true }
    | .noDiskSpace => { info.flags with noDiskSpace := true }
    | .domainUnavailable => { info.flags with domainDown := true }
    | _ => { info.flags with genericError := true }
  s.setFile f { info with flags := flags, lastTimeTried := now }

/-- What is done with a block that has been written, and not been modified meanwhile. -/
def blockCleaned (f b : Nat) : BlockCache :=
  let s := if (s.blocks b).refCount = 0 then s.addAvail 1 else s
  let s :=
    if (s.blocks b).flags.deleted then (s.addBlocksInCache f (-1)).putOnFreeList c b
    else if (s.blocks b).flags.moveToFront then
      (s.moveFront .lru b).setFlags b { (s.blocks b).flags with moveToFront := false }
    else s
  s.addDirtyBlocks f (-1)

/-- `Fscache_ReturnDirtyBlock`; where the device failed, new space is allocated for the block. -/
def returnDirtyBlock (b : Nat) (status : WriteStatus) (now : Int) : BlockCache :=
  let f := (s.blocks b).cacheInfo
  let block := { s.blocks b with
    refCount := (s.blocks b).refCount - 1, flags := { (s.blocks b).flags with beingWritten := false } }
  let s := s.setBlock b block
  let written := fun s : BlockCache =>
    let info := s.files f
    let s := s.setFileFlags f { info.flags with serverDown := false, noDiskSpace := false, genericError := false }
    if (s.blocks b).flags.dirty then s.putBlockOnDirtyList b true else s.blockCleaned c f b
  match status with
  | .success => written s
  | .interrupted => written (s.setFlags b { block.flags with dirty := true })
  | .deviceError =>
    let s := s.setBlock b { block with refCount := block.refCount + 1, flags := { block.flags with beingWritten := true } }
    (s.writeFailed f status now).putBlockOnDirtyList b true
  | _ => (s.writeFailed f status now).putBlockOnDirtyList b true

def finishRealloc (b : Nat) (diskBlock : Int) : BlockCache :=
  let f := (s.blocks b).cacheInfo
  let block := { s.blocks b with
    refCount := (s.blocks b).refCount - 1, flags := { (s.blocks b).flags with beingWritten := false } }
  let s := s.setBlock b block
  if diskBlock ≠ -1 then
    let s := s.setBlock b { block with diskBlock := diskBlock }
    let flags := (s.files f).flags
    let s := s.setFileFlags f { flags with noDiskSpace := false, domainDown := false, genericError := false }
    s.putFileOnDirtyList f (s.files f).oldestDirtyBlockTime
  else s

/-- `Fscache_GetDirtyFile`, where it comes to this file and takes it. -/
def getDirtyFile (f : Nat) : Option BlockCache :=
  let info := s.files f
  let flags := info.flags
  if flags.onDirtyList ∧ ¬ (flags.closeInProgress ∨ flags.serverDown ∨ flags.gone) ∧
      (info.dirtyList = [] ∨ ∃ b ∈ info.dirtyList, (s.blocks b).refCount = 0) then
    some (s.setFileFlags f { flags with
      noDiskSpace := false, domainDown := false, genericError := false, beingWritten := true, onDirtyList := false })
  else none

def returnDirtyFile (f : Nat) : BlockCache :=
  let info := s.files f
  let flags := { info.flags with beingWritten := false }
  let flags := if info.numDirtyBlocks = 0 ∧ flags.descDirty = false then { flags with fsync := false, beingCleaned := false } else flags
  let s := s.setFileFlags f flags
  if (info.numDirtyBlocks > 0 ∨ flags.descDirty = true) ∧ flags.gone = false then s.putFileOnDirtyList f info.oldestDirtyBlockTime
  else s

end BlockCache

/-! ### The processes -/

/-- Whether a block is with the block cleaner, and whether its space is being reallocated. -/
inductive BlockOut where
  | kept
  | written
  | realloced
  deriving DecidableEq

/-- The cache, what waiting processes have still to do, their references to each block, and the cleaner's blocks. -/
structure CacheSystem where
  cache : BlockCache
  calls : Nat → Option CacheCall
  held : Nat → Int
  out : Nat → BlockOut

inductive CacheStep where
  | fetchBlock (p f : Nat) (blockNum : Int) (flags : FetchFlags) (now : Int) (vms : List VmAnswer)
  | fileInvalidate (p f : Nat) (firstBlock lastBlock lastByte : Int)
  | fileWriteBack (p f : Nat) (firstBlock lastBlock lastByte : Int) (flags : WriteBackFlags)
  | unlockBlock (p b : Nat) (timeDirtied diskBlock blockSize : Int) (flags : UnlockFlags) (now : Int)
  | resume (p : Nat) (shuttingDown : Bool) (now : Int) (vms : List VmAnswer)
  | ioDone (b : Nat)
  | getDirtyBlock (f : Nat) (blockMatch : Nat → Bool)
  | returnDirtyBlock (b : Nat) (status : WriteStatus) (now : Int)
  | finishRealloc (b : Nat) (diskBlock : Int)
  | getDirtyFile (f : Nat)
  | returnDirtyFile (f : Nat)
  | createBlock (mapped : Bool)
  | destroyBlock
  | setMaxCacheBlocks (n : Int)
  | setMinNumAvailBlocks (n : Int)

namespace CacheSystem
variable (c : CacheConfig) (s : CacheSystem)

/-- Where a process has come to. -/
def finish (p : Nat) : BlockCache × CacheEnd → CacheSystem
  | (cache, .waits call) => { s with cache := cache, calls := update s.calls p (some call) }
  | (cache, .returns none) => { s with cache := cache, calls := update s.calls p none }
  | (cache, .returns (some b)) =>
    { s with cache := cache, calls := update s.calls p none, held := update s.held b (s.held b + 1) }

/-- A process that waited goes on. At shutdown an invalidation skips its block, and a write-back gives up. -/
def goOn (shuttingDown : Bool) (now : Int) (vms : List VmAnswer) : CacheCall → Option (BlockCache × CacheEnd)
  | .fetchBlock f blockNum flags => BlockCache.fetchLoop c f blockNum flags now vms s.cache
  | .invalidate f i lastBlock => some (s.cache.invalidateFrom c f (if shuttingDown then i + 1 else i) lastBlock)
  | .writeBack f i lastBlock flags fsyncFile =>
    some (if shuttingDown then (s.cache, .returns none) else s.cache.writeBackFrom c f i lastBlock flags fsyncFile)

def step (s : CacheSystem) (a : CacheStep) : Option CacheSystem :=
  if s.cache.panicked ≠ none then none
  else
    match a with
    | .fetchBlock p f blockNum flags now vms =>
      if s.calls p = none then (BlockCache.fetchLoop c f blockNum flags now vms s.cache).map (s.finish p) else none
    | .fileInvalidate p f firstBlock lastBlock lastByte =>
      if s.calls p = none then some (s.finish p (s.cache.cacheFileInvalidate c f firstBlock (lastBlockOf lastBlock lastByte))) else none
    | .fileWriteBack p f firstBlock lastBlock lastByte flags =>
      if s.calls p = none then some (s.finish p (s.cache.fileWriteBack c f firstBlock (lastBlockOf lastBlock lastByte) flags)) else none
    | .unlockBlock p b timeDirtied diskBlock blockSize flags now =>
      if s.calls p = none ∧ s.held b > 0 then
        some (finish { s with held := update s.held b (s.held b - 1) } p
          (s.cache.unlockBlock c b timeDirtied diskBlock blockSize flags now))
      else none
    | .resume p shuttingDown now vms => (s.calls p).bind fun call => (s.goOn c shuttingDown now vms call).map (s.finish p)
    | .ioDone b => if s.held b > 0 then some { s with cache := s.cache.ioDone b } else none
    | .getDirtyBlock f blockMatch =>
      match s.cache.getDirtyBlock c f blockMatch with
      | (cache, some b) => some { s with cache := cache, out := update s.out b .written }
      | (cache, none) => some { s with cache := cache }
    | .returnDirtyBlock b status now =>
      if s.out b = .written then
        some { s with
          cache := s.cache.returnDirtyBlock c b status now
          out := update s.out b (match status with | .deviceError => .realloced | _ => .kept) }
      else none
    | .finishRealloc b diskBlock =>
      if s.out b = .realloced then
        some { s with cache := s.cache.finishRealloc b diskBlock, out := update s.out b .kept }
      else none
    | .getDirtyFile f => (s.cache.getDirtyFile f).map fun cache => { s with cache := cache }
    | .returnDirtyFile f => if (s.cache.files f).flags.beingWritten then some { s with cache := s.cache.returnDirtyFile f } else none
    | .createBlock mapped => (s.cache.createBlock c false mapped).map fun r => { s with cache := r.1 }
    | .destroyBlock => some { s with cache := (s.cache.destroyBlock c).1 }
    | .setMaxCacheBlocks n => some { s with cache := { s.cache with maxCacheBlocks := n } }
    | .setMinNumAvailBlocks n => some { s with cache := { s.cache with minNumAvailBlocks := n } }

end CacheSystem
end SpriteKernel.Fscache
