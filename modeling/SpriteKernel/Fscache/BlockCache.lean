import SpriteKernel.Lib.Update

/- The block cache (fscacheBlocks.c): the blocks, on the unmapped list, a free list or the LRU list, the hash table
   of those in the cache, and the counts kept of them. The routines have the monitor. Of a backend's dirty list only
   which files are on it is kept. -/
namespace SpriteKernel.Fscache
open Function

/-- Values of `flags` of an Fscache_Block -/
structure BlockFlags where
  free : Bool := false
  beingWritten : Bool := false
  dirty : Bool := false
  deleted : Bool := false
  moveToFront : Bool := false
  cleanerWaiting : Bool := false
  notMapped : Bool := false
  readAhead : Bool := false
  ioInProgress : Bool := false
  beingCleaned : Bool := false

/-- Fscache_Block; `cacheInfo` stands for its `cacheInfoPtr`. -/
structure FscacheBlock where
  timeDirtied : Int
  timeReferenced : Int
  cacheInfo : Nat
  fileNum : Int
  blockNum : Int
  diskBlock : Int
  blockSize : Int
  refCount : Int
  flags : BlockFlags

/-- Values of `flags` of an Fscache_FileInfo -/
structure FileFlags where
  closeInProgress : Bool := false
  serverDown : Bool := false
  noDiskSpace : Bool := false
  domainDown : Bool := false
  genericError : Bool := false
  beingWritten : Bool := false
  onDirtyList : Bool := false
  gone : Bool := false
  fsync : Bool := false
  descDirty : Bool := false
  beingCleaned : Bool := false

structure FileInfo where
  dirtyList : List Nat
  flags : FileFlags
  blocksInCache : Int
  numDirtyBlocks : Int
  lastTimeTried : Int
  oldestDirtyBlockTime : Int

/-- The lists that `useLinks` puts a block on. -/
inductive UseList where
  | unmapped
  | totFree
  | partFree
  | lru
  deriving DecidableEq

/-- The panics, and the use of a block pointer that is NIL. -/
inductive CachePanic where
  | hashing
  | numAvailBlocks
  | valueChanged
  | notInHashTable
  | freeBlock
  | badBlock
  | blockSize
  | nilBlock
  deriving DecidableEq

abbrev BlockHashKey := Nat × Int

/-- Blocks and files are numbered. An entry of the hash table whose value is NIL is `some none`. -/
structure BlockCache where
  blocks : Nat → FscacheBlock
  files : Nat → FileInfo
  use : UseList → List Nat
  hash : BlockHashKey → Option (Option Nat)
  numAvailBlocks : Int
  minNumAvailBlocks : Int
  numFreeBlocks : Int
  numCacheBlocks : Int
  maxCacheBlocks : Int
  panicked : Option CachePanic

/-- `fileNum` is `hdrPtr->fileID.minor` of a file. With pages of 8K the blocks of the array are paired. -/
structure CacheConfig where
  maxNumBlocks : Nat
  pageIs8K : Bool
  fileNum : Nat → Int
  paired : pageIs8K = true → maxNumBlocks % 2 = 0

def fscacheMinBlocks : Int := 32

def CacheConfig.blocksPerPage (c : CacheConfig) : Int := if c.pageIs8K then 2 else 1

def otherBlock (b : Nat) : Nat := if b % 2 ≠ 0 then b - 1 else b + 1

def FscacheBlock.dirtyOrWritten (b : FscacheBlock) : Bool := b.flags.dirty || b.flags.beingWritten

/-- What keeps `FetchBlock` from taking a block of the LRU list. -/
def FscacheBlock.unneeded (b : FscacheBlock) : Bool := !decide (b.refCount > 0) && !b.dirtyOrWritten && !b.flags.deleted

/-- Whether the other block of a page keeps it from being taken. -/
def FscacheBlock.inUse (b : FscacheBlock) : Bool := decide (b.refCount > 0) || b.dirtyOrWritten

/-- `flags & ~(FSCACHE_SERVER_DOWN | FSCACHE_NO_DISK_SPACE | FSCACHE_DOMAIN_DOWN | FSCACHE_GENERIC_ERROR)` -/
def FileFlags.clearErrors (f : FileFlags) : FileFlags :=
  { f with serverDown := false, noDiskSpace := false, domainDown := false, genericError := false }

namespace BlockCache
variable (c : CacheConfig) (s : BlockCache)

def setBlock (b : Nat) (x : FscacheBlock) : BlockCache := { s with blocks := update s.blocks b x }

def setFlags (b : Nat) (flags : BlockFlags) : BlockCache := s.setBlock b { s.blocks b with flags := flags }

def setFile (f : Nat) (x : FileInfo) : BlockCache := { s with files := update s.files f x }

def setFileFlags (f : Nat) (flags : FileFlags) : BlockCache := s.setFile f { s.files f with flags := flags }

def panic (p : CachePanic) : BlockCache := { s with panicked := some p }

/-- `List_Remove(&blockPtr->useLinks)` -/
def remove (b : Nat) : BlockCache := { s with use := fun l => (s.use l).erase b }

/-- `List_Insert(&blockPtr->useLinks, LIST_ATFRONT(list))` -/
def insertFront (l : UseList) (b : Nat) : BlockCache := { s with use := update s.use l (b :: s.use l) }

/-- `List_Insert(&blockPtr->useLinks, LIST_ATREAR(list))` -/
def insertRear (l : UseList) (b : Nat) : BlockCache := { s with use := update s.use l (s.use l ++ [b]) }

def moveFront (l : UseList) (b : Nat) : BlockCache := (s.remove b).insertFront l b

def moveRear (l : UseList) (b : Nat) : BlockCache := (s.remove b).insertRear l b

def hashDelete (key : BlockHashKey) : BlockCache := { s with hash := update s.hash key none }

def addAvail (n : Int) : BlockCache := { s with numAvailBlocks := s.numAvailBlocks + n }

def addFree (n : Int) : BlockCache := { s with numFreeBlocks := s.numFreeBlocks + n }

def addCache (n : Int) : BlockCache := { s with numCacheBlocks := s.numCacheBlocks + n }

def addBlocksInCache (f : Nat) (n : Int) : BlockCache :=
  s.setFile f { s.files f with blocksInCache := (s.files f).blocksInCache + n }

def addDirtyBlocks (f : Nat) (n : Int) : BlockCache :=
  s.setFile f { s.files f with numDirtyBlocks := (s.files f).numDirtyBlocks + n }

/-- The panic that follows where `numAvailBlocks` is decremented. -/
def checkAvail : BlockCache := if s.numAvailBlocks < 0 then s.panic .numAvailBlocks else s

/-! ### Lists -/

def putFileOnDirtyList (f : Nat) (oldestDirtyBlockTime : Int) : BlockCache :=
  let info := s.files f
  if info.flags.onDirtyList || info.flags.beingWritten then s
  else s.setFile f { info with flags := { info.flags with onDirtyList := true }, oldestDirtyBlockTime := oldestDirtyBlockTime }

def putBlockOnDirtyList (b : Nat) (onFront : Bool) : BlockCache :=
  let f := (s.blocks b).cacheInfo
  let info := s.files f
  let s := s.setFlags b { (s.blocks b).flags with dirty := true }
  let s := s.setFile f { info with dirtyList := if onFront then b :: info.dirtyList else info.dirtyList ++ [b] }
  s.putFileOnDirtyList f (s.blocks b).timeDirtied

def deleteBlockFromDirtyList (b : Nat) : BlockCache :=
  let f := (s.blocks b).cacheInfo
  let info : FileInfo := { s.files f with dirtyList := (s.files f).dirtyList.erase b }
  if info.flags.onDirtyList ∧ info.numDirtyBlocks = 0 ∧ info.flags.descDirty = false then
    s.setFile f { info with flags := { info.flags with onDirtyList := false, fsync := false, beingCleaned := false } }
  else s.setFile f info

def putOnFreeList (b : Nat) : BlockCache :=
  let s := (s.setFlags b { free := true }).addFree 1
  if c.pageIs8K then
    if (s.blocks (otherBlock b)).flags.free then (s.insertFront .totFree b).moveFront .totFree (otherBlock b)
    else s.insertFront .partFree b
  else s.insertFront .totFree b

def deleteBlock (b : Nat) : BlockCache :=
  let key : BlockHashKey := ((s.blocks b).cacheInfo, (s.blocks b).blockNum)
  match s.hash key with
  | none => s.panic .notInHashTable
  | some _ => (s.hashDelete key).addBlocksInCache (s.blocks b).cacheInfo (-1)

/-- `StartFileSync`, which starts the backend too. -/
def startFileSync (f : Nat) : BlockCache := s.setFileFlags f { (s.files f).flags with fsync := true }

/-! ### Creating, destroying and allocating blocks -/

/-- `CreateBlock`; `mapped` says that VM had a page. Where `retBlock`, the block is on no list yet. -/
def createBlock (retBlock mapped : Bool) : Option (BlockCache × Nat) :=
  match s.use .unmapped with
  | [] => none
  | b :: _ =>
    if mapped then
      let s := (s.addAvail c.blocksPerPage).addCache c.blocksPerPage
      let s := if retBlock then s.remove b else ((s.addFree 1).setFlags b { free := true }).moveRear .totFree b
      if c.pageIs8K then
        let s := (s.setFlags (otherBlock b) { free := true }).addFree 1
        some (s.moveRear (if retBlock then .partFree else .totFree) (otherBlock b), b)
      else some (s, b)
    else none

/-- The scan of the LRU list: what it goes past is marked, and what it finds is on no list any more. -/
def scanLru : List Nat → BlockCache → BlockCache × Option Nat
  | [], s => (s, none)
  | b :: rest, s =>
    let block := s.blocks b
    if block.refCount > 0 then scanLru rest s
    else if block.dirtyOrWritten then
      let s := s.setFlags b { block.flags with moveToFront := true }
      scanLru rest (if (s.files block.cacheInfo).flags.beingWritten then s else s.startFileSync block.cacheInfo)
    else if block.flags.deleted then scanLru rest s
    else ((s.remove b).deleteBlock b, some b)

/-- `FetchBlock`, up to where it may wait. -/
def fetchBlock (cantBlock : Bool) : BlockCache × Option Nat :=
  if s.numAvailBlocks > s.minNumAvailBlocks ∨ cantBlock = true then scanLru (s.use .lru) s else (s, none)

/-- The counts where a page is unmapped. -/
def unmapPage : BlockCache := ((s.addCache (-c.blocksPerPage)).addAvail (-c.blocksPerPage)).checkAvail

/-- The loop of `DestroyBlock`. -/
def destroyLoop : Nat → BlockCache → BlockCache × Bool
  | 0, s => (s, false)
  | n + 1, s =>
    match s.fetchBlock false with
    | (s, none) => (s, false)
    | (s, some b) =>
      let other := otherBlock b
      if c.pageIs8K then
        if (s.blocks other).inUse then destroyLoop n (s.putOnFreeList c b)
        else
          let s := if (s.blocks other).flags.free then s else s.deleteBlock other
          let s := (s.setFlags other { notMapped := true }).moveRear .unmapped other
          (((s.setFlags b { notMapped := true }).insertRear .unmapped b).unmapPage c, true)
      else (((s.setFlags b { notMapped := true }).insertRear .unmapped b).unmapPage c, true)

def destroyBlock : BlockCache × Bool :=
  if s.numAvailBlocks - c.blocksPerPage < s.minNumAvailBlocks ∨
      s.numCacheBlocks - fscacheMinBlocks - c.blocksPerPage < s.minNumAvailBlocks then (s, false)
  else
    match s.use .totFree with
    | b :: _ =>
      let s := ((s.setFlags b { notMapped := true }).moveRear .unmapped b).addFree (-1)
      let s := if c.pageIs8K then ((s.setFlags (otherBlock b) { notMapped := true }).moveRear .unmapped (otherBlock b)).addFree (-1) else s
      (s.unmapPage c, true)
    | [] => destroyLoop c ((s.use .lru).length + 1) s

end BlockCache
end SpriteKernel.Fscache
