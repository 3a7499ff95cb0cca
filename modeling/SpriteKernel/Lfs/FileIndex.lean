import SpriteKernel.Fs.Types
import SpriteKernel.Lfs.Types
import Mathlib.Logic.Function.Basic

/- Where a file's blocks are on disk (`lfsFileIndex.c`): ten direct addresses, and trees of index blocks below the
   indirect ones. Index blocks are blocks of the file with negative numbers: -1 the indirect and -2 the double
   indirect block, and from -4 down the blocks below -2. The calls that tell the usage array of blocks that die are
   recorded, in order. -/
namespace SpriteKernel.Lfs

open Function

open SpriteKernel

def numDirectBlocks : Int := 10

def numIndirectBlocks : Int := 3

def indicesPerBlock : Int := 1024

def fsBlockSize : Int := 4096

/-- A value stored in an `int`. -/
def toInt32 (n : Int) : Int := n.bmod 4294967296

/-- A call `LfsSetSegUsage(lfsPtr, segNumber, activeBytes)`. -/
structure UsageCall where
  segNumber : Int
  activeBytes : Int
  deriving DecidableEq, Repr

/-- How a routine goes wrong: it follows a pointer out of its array, or it panics. -/
inductive Fault where
  | outOfBounds
  | panic
  deriving DecidableEq, Repr

/-- The entries of an index block, or the addresses in a descriptor. -/
abbrev BlockArray := Int → DiskAddr

/-- `LfsSegUsageFreeBlocks` of one address, which becomes nil. -/
def segUsageFree (p : SuperBlock) (blockSize : Int) (diskAddress : DiskAddr) : List UsageCall :=
  if diskAddress = nilDiskAddr then [] else [⟨p.diskAddrToSegmentNum diskAddress, -blockSize⟩]

/-- `LfsSegUsageFreeBlocks` of `blockArrayLen` addresses from `first` on, of an array of `limit`. -/
def segUsageFreeBlocks (p : SuperBlock) (limit blockSize : Int) : Nat → Int → BlockArray →
    Except Fault (BlockArray × List UsageCall)
  | 0, _, blockArray => .ok (blockArray, [])
  | blockArrayLen + 1, first, blockArray =>
    if 0 ≤ first ∧ first < limit then do
      let diskAddress := blockArray first
      let (rest, calls) ← segUsageFreeBlocks p limit blockSize blockArrayLen (first + 1)
        (update blockArray first nilDiskAddr)
      .ok (rest, segUsageFree p blockSize diskAddress ++ calls)
    else .error .outOfBounds

structure CachedIndex where
  entry : BlockArray
  dirty : Bool

structure CachedData where
  blockSize : Int
  dirty : Bool
  deriving DecidableEq, Repr

/-- What `lfsFileIndex.c` uses of a file: its descriptor, and its blocks in the cache. -/
structure FileIndex where
  lastByte : Int
  isDirectory : Bool
  direct : BlockArray
  indirect : BlockArray
  indexDirty : Bool
  cache : Int → Option CachedIndex
  data : Int → Option CachedData
  usageCalls : List UsageCall
  panic : Bool := false

/-- `LfsReadBytes` of index and data blocks, and whether `Fscache_FetchBlock` has a block to give without waiting. -/
structure IndexIO where
  params : SuperBlock
  readIndex : DiskAddr → Except ReturnStatus BlockArray
  readData : DiskAddr → ReturnStatus
  room : Int → Bool

/-- `FSCACHE_CANT_BLOCK` and `FSCACHE_DONT_BLOCK`. -/
structure CacheFlags where
  cantBlock : Bool := false
  dontBlock : Bool := false
  deriving DecidableEq, Repr

inductive IndexOp where
  | getAddr
  | setAddr
  | growAddr
  deriving DecidableEq, Repr

/-- `Fscache_FetchBlock` returns no block. -/
def IndexIO.busy (io : IndexIO) (cacheFlags : CacheFlags) (blockNum : Int) : Bool :=
  cacheFlags.dontBlock && !io.room blockNum

def roundToBlocks (p : SuperBlock) (bytes : Int) : Int := p.blocksToBytes (p.bytesToBlocks bytes)

namespace FileIndex

/-! ## Small steps -/

def setDirect (i : Int) (diskAddress : DiskAddr) (f : FileIndex) : FileIndex :=
  { f with direct := update f.direct i diskAddress, indexDirty := true }

def setIndirect (i : Int) (diskAddress : DiskAddr) (f : FileIndex) : FileIndex :=
  { f with indirect := update f.indirect i diskAddress, indexDirty := true }

/-- An indirect address changed by way of a pointer to it. -/
def putIndirect (i : Int) (diskAddress : DiskAddr) (f : FileIndex) : FileIndex :=
  { f with indirect := update f.indirect i diskAddress }

/-- `Fscache_UnlockBlock` of an index block. -/
def putIndex (blockNum : Int) (b : CachedIndex) (f : FileIndex) : FileIndex :=
  { f with cache := update f.cache blockNum (some b) }

/-- `Fscache_UnlockBlock` with `FSCACHE_DELETE_BLOCK`. -/
def deleteIndex (blockNum : Int) (f : FileIndex) : FileIndex :=
  { f with cache := update f.cache blockNum none }

def callUsage (calls : List UsageCall) (f : FileIndex) : FileIndex :=
  { f with usageCalls := f.usageCalls ++ calls }

@[simp] theorem putIndex_cache_self (v : Int) (b : CachedIndex) (f : FileIndex) :
    (f.putIndex v b).cache v = some b := by
  exact update_self v (some b) f.cache

theorem putIndex_cache_of_ne {v w : Int} (h : w ≠ v) (b : CachedIndex) (f : FileIndex) :
    (f.putIndex v b).cache w = f.cache w := by
  exact update_of_ne h (some b) f.cache

@[simp] theorem deleteIndex_cache_self (v : Int) (f : FileIndex) : (f.deleteIndex v).cache v = none := by
  exact update_self v none f.cache

theorem deleteIndex_cache_of_ne {v w : Int} (h : w ≠ v) (f : FileIndex) : (f.deleteIndex v).cache w = f.cache w := by
  exact update_of_ne h none f.cache

@[simp] theorem putIndirect_indirect_self (i : Int) (a : DiskAddr) (f : FileIndex) :
    (f.putIndirect i a).indirect i = a := by
  exact update_self i a f.indirect

theorem putIndirect_indirect_of_ne {i j : Int} (h : j ≠ i) (a : DiskAddr) (f : FileIndex) :
    (f.putIndirect i a).indirect j = f.indirect j := by
  exact update_of_ne h a f.indirect

theorem putIndirect_self {i : Int} {a : DiskAddr} {f : FileIndex} (h : f.indirect i = a) : f.putIndirect i a = f := by
  unfold putIndirect
  rw [← h, update_eq_self]

/-! ## Access -/

def growBlock (io : IndexIO) (blockNum growthSize : Int) (diskAddr : DiskAddr) (cacheFlags : CacheFlags)
    (f : FileIndex) : ReturnStatus × FileIndex :=
  if diskAddr = nilDiskAddr then (.success, f)
  else
    let origBlockSize := f.lastByte + 1 - blockNum * fsBlockSize
    if origBlockSize ≤ 0 then (.failure, { f with panic := true })
    else
      let origBlockSize := roundToBlocks io.params origBlockSize
      let grown := f.callUsage [⟨io.params.diskAddrToSegmentNum diskAddr, growthSize⟩]
      if origBlockSize + growthSize > fsBlockSize then (.failure, { f with panic := true })
      else if f.isDirectory then (.success, grown)
      else
        let dirtied := { grown with data := update f.data blockNum (some ⟨origBlockSize + growthSize, true⟩) }
        if (f.data blockNum).isSome then
          -- a busy block is found, but not returned
          if io.busy cacheFlags blockNum then (.failure, { f with panic := true }) else (.success, dirtied)
        else if io.busy cacheFlags blockNum then (.fsWouldBlock, f)
        else if io.readData diskAddr ≠ .success then (io.readData diskAddr, { f with panic := true })
        else (.success, dirtied)

inductive Place where
  | direct (i : Int)
  | indirect (i : Int)
  | entry (parentBlockNum parentIndex : Int)
  | invalid
  deriving DecidableEq, Repr

/-- The range checks of `AccessBlock`. -/
def place (blockNum : Int) : Place :=
  if blockNum < 0 then
    if blockNum ≥ -numIndirectBlocks then .indirect (-blockNum - 1)
    else if blockNum > -(numIndirectBlocks + indicesPerBlock) then .entry (-2) (-blockNum - (numIndirectBlocks + 1))
    else .invalid
  else if blockNum < numDirectBlocks then .direct blockNum
  else if blockNum < numDirectBlocks + indicesPerBlock then .entry (-1) (blockNum - numDirectBlocks)
  else if blockNum < numDirectBlocks + indicesPerBlock + indicesPerBlock * indicesPerBlock then
    .entry (-(numIndirectBlocks + 1 + (blockNum - numDirectBlocks - indicesPerBlock).tdiv indicesPerBlock))
      ((blockNum - numDirectBlocks - indicesPerBlock).tmod indicesPerBlock)
  else .invalid

/-- `AccessBlock` with the parent in the cache. -/
def accessEntry (io : IndexIO) (op : IndexOp) (cacheFlags : CacheFlags) (blockNum blockSize parentBlockNum parentIndex : Int)
    (diskAddress : DiskAddr) (b : CachedIndex) (f : FileIndex) : ReturnStatus × DiskAddr × FileIndex :=
  match op with
  | .getAddr => (.success, b.entry parentIndex, f.putIndex parentBlockNum b)
  | .setAddr =>
    (.success, diskAddress, (f.callUsage (segUsageFree io.params blockSize (b.entry parentIndex))).putIndex
      parentBlockNum ⟨update b.entry parentIndex diskAddress, true⟩)
  | .growAddr =>
    let (status, f) := (f.putIndex parentBlockNum b).growBlock io blockNum blockSize (b.entry parentIndex) cacheFlags
    (status, b.entry parentIndex, f)

/-- `AccessBlock`: its status, `*diskAddressPtr`, and the file. `depth` bounds the index blocks above a block. -/
def accessBlock (io : IndexIO) : Nat → IndexOp → CacheFlags → Int → Int → DiskAddr → FileIndex →
    ReturnStatus × DiskAddr × FileIndex
  | depth, op, cacheFlags, blockNum, blockSize, diskAddress, f =>
    if blockNum < 0 ∧ op = .growAddr then (.failure, diskAddress, { f with panic := true })
    else
      match place blockNum with
      | .invalid => (.fsInvalidArg, diskAddress, f)
      | .indirect i =>
        match op with
        | .getAddr => (.success, f.indirect i, f)
        | _ => (.success, diskAddress,
            (f.callUsage (segUsageFree io.params blockSize (f.indirect i))).setIndirect i diskAddress)
      | .direct i =>
        match op with
        | .getAddr => (.success, f.direct i, f)
        | .setAddr => (.success, diskAddress,
            (f.callUsage (segUsageFree io.params blockSize (f.direct i))).setDirect i diskAddress)
        | .growAddr =>
          let (status, f') := f.growBlock io blockNum blockSize (f.direct i) cacheFlags
          (status, f.direct i, f')
      | .entry parentBlockNum parentIndex =>
        if io.busy cacheFlags parentBlockNum then (.fsWouldBlock, diskAddress, f)
        else
          match f.cache parentBlockNum, depth with
          | some b, _ => accessEntry io op cacheFlags blockNum blockSize parentBlockNum parentIndex diskAddress b f
          | none, 0 => (.fsInvalidArg, diskAddress, f)
          | none, depth + 1 =>
            let (status, parentDiskAddress, f) :=
              accessBlock io depth .getAddr cacheFlags parentBlockNum 0 nilDiskAddr f
            if status ≠ .success then (status, diskAddress, f)
            else if parentDiskAddress = nilDiskAddr then
              match op with
              | .setAddr => (.success, diskAddress,
                  f.putIndex parentBlockNum ⟨update (fun _ => nilDiskAddr) parentIndex diskAddress, true⟩)
              | _ => (.success, nilDiskAddr, f)
            else
              match io.readIndex parentDiskAddress with
              | .error status => (status, diskAddress, { f with panic := true })
              | .ok blockArray =>
                let r := accessEntry io op cacheFlags blockNum blockSize parentBlockNum parentIndex diskAddress
                  ⟨blockArray, false⟩ f
                (.success, r.2)

def getIndex (io : IndexIO) (cacheFlags : CacheFlags) (blockNum : Int) (f : FileIndex) :
    ReturnStatus × DiskAddr × FileIndex :=
  f.accessBlock io 2 .getAddr cacheFlags blockNum 0 nilDiskAddr

/-- `LfsFile_SetIndex`, with its `ERROR_CHECK`. -/
def setIndex (io : IndexIO) (cacheFlags : CacheFlags) (blockNum blockSize : Int) (diskAddress : DiskAddr)
    (f : FileIndex) : ReturnStatus × FileIndex :=
  if diskAddress ≠ nilDiskAddr ∧ ¬io.params.validSegmentNum (io.params.diskAddrToSegmentNum diskAddress) then
    (.failure, { f with panic := true })
  else
    let r := f.accessBlock io 2 .setAddr cacheFlags blockNum blockSize diskAddress
    (r.1, r.2.2)

/-! ## Truncation -/

/-- The index block in the cache, or read into it; `none` where there is none. -/
def fetchIndex (io : IndexIO) (blockNum : Int) (diskAddr : DiskAddr) (f : FileIndex) :
    Except ReturnStatus (Option BlockArray) :=
  match f.cache blockNum with
  | some b => .ok (some b.entry)
  | none => if diskAddr = nilDiskAddr then .ok none else (io.readIndex diskAddr).map some

def entryOf (blockArray : Option BlockArray) (i : Int) : DiskAddr :=
  match blockArray with
  | some a => a i
  | none => nilDiskAddr

/-- `DeleteIndirectBlock`, the loop over the blocks below. -/
def deleteChildren (delete : Int → DiskAddr → Int → FileIndex → Except Fault (ReturnStatus × DiskAddr × FileIndex))
    (step : Int) : Nat → Int → Int → Option BlockArray → ReturnStatus → FileIndex →
    Except Fault (ReturnStatus × Option BlockArray × FileIndex)
  | 0, _, _, blockArray, status, f => .ok (status, blockArray, f)
  | n + 1, i, startBlockNum, blockArray, _, f => do
    let (status, diskAddr, f) ← delete (-(numIndirectBlocks + 1 + i)) (entryOf blockArray i) startBlockNum f
    deleteChildren delete step n (i + 1) (startBlockNum + step)
      (blockArray.map (fun a => update a i diskAddr)) status f

/-- `DeleteIndirectBlock`, freeing data blocks: the file's last, maybe a fragment, and all from `startElement` on. -/
def deleteEntries (p : SuperBlock) (lastByte startBlockNum lastBlockNum lastByteBlock startElement : Int)
    (blockArray : BlockArray) : Except Fault (BlockArray × List UsageCall) := do
  let fragSize := roundToBlocks p (lastByte - lastByteBlock * fsBlockSize + 1)
  let (blockArray, fragCalls) ←
    (if lastByteBlock ≥ startBlockNum ∧ lastByteBlock < startBlockNum + indicesPerBlock ∧
        lastByteBlock ≥ lastBlockNum then
      segUsageFreeBlocks p indicesPerBlock fragSize 1 (startElement + (lastByteBlock - startBlockNum)) blockArray
    else .ok (blockArray, []))
  let (blockArray, calls) ← segUsageFreeBlocks p indicesPerBlock fsBlockSize
    (indicesPerBlock - startElement).toNat startElement blockArray
  .ok (blockArray, fragCalls ++ calls)

/-- `DeleteIndirectBlock`, its end: the block goes if all of it was deleted. -/
def finishIndirect (io : IndexIO) (virtualBlockNum : Int) (diskAddr : DiskAddr) (startElement : Int)
    (blockArray : Option BlockArray) (f : FileIndex) : DiskAddr × FileIndex :=
  match blockArray with
  | none => (diskAddr, f)
  | some a =>
    if startElement = 0 then
      (nilDiskAddr, (f.deleteIndex virtualBlockNum).callUsage (segUsageFree io.params fsBlockSize diskAddr))
    else (diskAddr, f.putIndex virtualBlockNum ⟨a, true⟩)

/-- `DeleteIndirectBlock`, of entries for `indicesPerBlock ^ level` blocks each: its status, `*diskAddrPtr`, the
    file. -/
def deleteIndirectBlock (io : IndexIO) (lastBlockNum lastByteBlock : Int) : Nat → Int → DiskAddr → Int →
    FileIndex → Except Fault (ReturnStatus × DiskAddr × FileIndex)
  | level, virtualBlockNum, diskAddr, startBlockNum, f =>
    match f.fetchIndex io virtualBlockNum diskAddr with
    | .error status => .ok (status, diskAddr, f)
    | .ok blockArray =>
      let step := indicesPerBlock ^ level
      let quotient := (lastBlockNum - startBlockNum).tdiv step
      if quotient > indicesPerBlock then .error .panic
      else
        let startElement := max quotient 0
        match level with
        | level + 1 => do
          let (status, blockArray, f) ← deleteChildren
            (fun child addr start f => deleteIndirectBlock io lastBlockNum lastByteBlock level child addr start f)
            step (indicesPerBlock - startElement).toNat startElement (startBlockNum + startElement * step)
            blockArray .success f
          let (diskAddr, f) := f.finishIndirect io virtualBlockNum diskAddr startElement blockArray
          .ok (status, diskAddr, f)
        | 0 =>
          match blockArray with
          | none => .ok (.success, diskAddr, f)
          | some a => do
            let (a, calls) ← deleteEntries io.params f.lastByte startBlockNum lastBlockNum lastByteBlock startElement a
            let (diskAddr, f) := (f.callUsage calls).finishIndirect io virtualBlockNum diskAddr startElement (some a)
            .ok (.success, diskAddr, f)

/-- `LfsFile_TruncIndex`, the direct blocks. -/
def truncDirect (io : IndexIO) (numBlocks lastByteBlock : Int) (f : FileIndex) : Except Fault FileIndex := do
  let fragSize := roundToBlocks io.params (f.lastByte - lastByteBlock * fsBlockSize + 1)
  let (direct, fragCalls) ←
    (if f.lastByte ≥ 0 ∧ lastByteBlock < numDirectBlocks ∧ lastByteBlock ≥ numBlocks then
      segUsageFreeBlocks io.params numDirectBlocks fragSize 1 lastByteBlock f.direct
    else .ok (f.direct, []))
  let (direct, calls) ← segUsageFreeBlocks io.params numDirectBlocks fsBlockSize (numDirectBlocks - numBlocks).toNat
    numBlocks direct
  .ok { f with direct := direct, usageCalls := f.usageCalls ++ (fragCalls ++ calls) }

/-- `LfsFile_TruncIndex`, one of the indirect addresses. -/
def truncIndirect (io : IndexIO) (numBlocks lastByteBlock : Int) (level : Nat) (i startBlockNum : Int)
    (f : FileIndex) : Except Fault (ReturnStatus × FileIndex) := do
  let (status, diskAddr, f) ←
    f.deleteIndirectBlock io numBlocks lastByteBlock level (-(i + 1)) (f.indirect i) startBlockNum
  .ok (status, f.putIndirect i diskAddr)

def truncIndex (io : IndexIO) (length : Int) (f : FileIndex) : Except Fault (ReturnStatus × FileIndex) := do
  let numBlocks := (toInt32 (length + (fsBlockSize - 1))).tdiv fsBlockSize
  let lastByteBlock := f.lastByte.tdiv fsBlockSize
  let (status, f) ←
    (if numBlocks < numDirectBlocks + indicesPerBlock + indicesPerBlock * indicesPerBlock ∧
        lastByteBlock ≥ numDirectBlocks + indicesPerBlock then
      f.truncIndirect io numBlocks lastByteBlock 1 1 (numDirectBlocks + indicesPerBlock)
    else .ok (.success, f))
  let (status, f) ←
    (if numBlocks < indicesPerBlock + numDirectBlocks ∧ lastByteBlock ≥ numDirectBlocks then
      f.truncIndirect io numBlocks lastByteBlock 0 0 numDirectBlocks
    else .ok (status, f))
  if numBlocks < numDirectBlocks then do
    let f ← f.truncDirect io numBlocks lastByteBlock
    .ok (status, f)
  else .ok (status, f)

end FileIndex

end SpriteKernel.Lfs
