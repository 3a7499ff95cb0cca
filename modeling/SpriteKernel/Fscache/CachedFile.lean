import SpriteKernel.Lib.Update
import SpriteKernel.Lib.Bytes
import SpriteKernel.Lib.Growing
import SpriteKernel.Lib.Transition

/- A cacheable file (fscacheOps.c): its writes go to blocks of the cache, its reads come from them. The backend keeps
   what is written back, and reads it again, with zeros after it. A step is told what is in the frames that
   Fscache_FetchBlock gives it. Offsets are integers that do not wrap, but where they are made unsigned. -/
namespace SpriteKernel.Fscache
open Function
open Bytes Growing

def fsBlockSize : Int := 4096

/-- `(unsigned int) x / FS_BLOCK_SIZE` -/
def blockOf (x : Int) : Int := x % 4294967296 / fsBlockSize

structure CacheBlock where
  data : Buffer
  blockSize : Int
  dirty : Bool

/-- `firstByte` and `lastByte` are attributes; `store` has the blocks for which the backend has storage. -/
structure CachedFile where
  firstByte : Int
  lastByte : Int
  cache : Int → Option CacheBlock
  store : Int → Option Buffer

namespace CachedFile
variable (f : CachedFile)

def blockRead (blockNum : Int) : Buffer := (f.store blockNum).getD fun _ => 0

/-- The backend's `allocate`; it says whether the block is new. -/
def allocate (blockNum : Int) : CachedFile × Bool :=
  match f.store blockNum with
  | some _ => (f, false)
  | none => ({ f with store := update f.store blockNum (some fun _ => 0) }, true)

/-- What is in the block when the bytes are copied into it; `frame` was in it before. -/
def blockToWrite (frame : Buffer) (lastFileBlock blockNum toWrite : Int) (newBlock : Bool) : Buffer :=
  match f.cache blockNum with
  | some block => block.data
  | none =>
    if toWrite = fsBlockSize then frame
    else if blockNum ≤ lastFileBlock ∧ newBlock = false then f.blockRead blockNum
    else fun _ => 0

/-- How many bytes `Fscache_Write` puts in a block. -/
def toWrite (blockNum offset size : Int) : Int :=
  if blockOf (offset + size - 1) > blockNum then fsBlockSize - offset % fsBlockSize else size

/-- The body of its loop; the end of the file, and the size of the block, are what they come to be. -/
def writeBlock (frames : Int → Buffer) (lastFileBlock blockNum offset toWrite : Int) (buffer : Buffer) : CachedFile :=
  let (f, newBlock) := f.allocate blockNum
  let data := f.blockToWrite (frames blockNum) lastFileBlock blockNum toWrite newBlock
  let lastByte := if offset + toWrite - 1 > f.lastByte then offset + toWrite - 1 else f.lastByte
  let blockSize := lastByte + 1 - blockNum * fsBlockSize
  let block : CacheBlock := {
    data := setBytes (offset % fsBlockSize) (bytesFrom buffer 0 toWrite.toNat) data
    blockSize := if blockSize > fsBlockSize then fsBlockSize else blockSize
    dirty := true }
  { f with lastByte := lastByte, cache := update f.cache blockNum (some block) }

/-- `n` blocks are written from `blockNum` on; the offset that is come to. -/
def writeLoop (frames : Int → Buffer) (lastFileBlock : Int) :
    Nat → CachedFile → Int → Int → Int → Buffer → CachedFile × Int
  | 0, f, _, offset, _, _ => (f, offset)
  | n + 1, f, blockNum, offset, size, buffer =>
    let toWrite := toWrite blockNum offset size
    writeLoop frames lastFileBlock n (f.writeBlock frames lastFileBlock blockNum offset toWrite buffer) (blockNum + 1)
      (offset + toWrite) (size - toWrite) (tail toWrite buffer)

/-- `Fscache_Write`, and the length it returns. -/
def write (append : Bool) (offset : Int) (buffer : Buffer) (len : Int) (frames : Int → Buffer) : CachedFile × Int :=
  let offset := if append then f.lastByte + 1 else offset
  let firstBlock := blockOf offset
  let lastBlock := blockOf (offset + len - 1)
  let lastFileBlock := if f.lastByte = -1 then -1 else blockOf f.lastByte
  let (f, newOffset) := writeLoop frames lastFileBlock (lastBlock - firstBlock + 1).toNat f firstBlock offset len buffer
  (if f.firstByte = -1 ∧ newOffset - offset > 0 then { f with firstByte := 0 } else f, newOffset - offset)

def fetch (blockNum : Int) : CachedFile × CacheBlock :=
  match f.cache blockNum with
  | some block => (f, block)
  | none =>
    let block : CacheBlock := { data := f.blockRead blockNum, blockSize := -1, dirty := false }
    ({ f with cache := update f.cache blockNum (some block) }, block)

/-- The body of the loop of `Fscache_Read`: how much it reads, and the bytes. -/
def readBlock (blockNum offset size : Int) : CachedFile × Int × List UInt8 :=
  let toRead := if blockOf (offset + size - 1) > blockNum then (blockNum + 1) * fsBlockSize - offset else size
  let toRead := if toRead > f.lastByte - offset + 1 then f.lastByte - offset + 1 else toRead
  let (f, block) := f.fetch blockNum
  (f, toRead, bytesFrom block.data (offset % fsBlockSize) toRead.toNat)

/-- At most `n` blocks are read from `blockNum` on; the bytes in the buffer, and what is left to read. -/
def readLoop : Nat → CachedFile → Int → Int → Int → CachedFile × List UInt8 × Int
  | 0, f, _, _, size => (f, [], size)
  | n + 1, f, blockNum, offset, size =>
    if offset ≤ f.lastByte then
      let (f, toRead, bytes) := f.readBlock blockNum offset size
      let (f, rest, size) := readLoop n f (blockNum + 1) (offset + toRead) (size - toRead)
      (f, bytes ++ rest, size)
    else (f, [], size)

/-- `Fscache_Read`: what it puts in the caller's buffer, and the length it returns. -/
def read (offset len : Int) : CachedFile × List UInt8 × Int :=
  if offset > f.lastByte then (f, [], 0)
  else
    let firstBlock := blockOf offset
    let lastBlock := blockOf (offset + len - 1)
    let (f, bytes, size) := readLoop (lastBlock - firstBlock + 1).toNat f firstBlock offset len
    (f, bytes, len - size)

def fileInvalidate (firstBlock lastBlock : Int) : CachedFile :=
  { f with cache := fun k => if firstBlock ≤ k ∧ k ≤ lastBlock then none else f.cache k }

def blockTrunc (blockNum newBlockSize : Int) : CachedFile :=
  { f with cache := update f.cache blockNum ((f.cache blockNum).map fun block => { block with blockSize := newBlockSize }) }

def truncate (len : Int) : CachedFile :=
  { f with store := fun k =>
      if k * fsBlockSize ≥ len then none else (f.store k).map fun data i => if k * fsBlockSize + i < len then data i else 0 }

/-- `Fscache_Trunc`. Its test of FS_NOT_CACHEABLE, a status, as a flag is taken to find the file cacheable. -/
def trunc (len : Int) : CachedFile :=
  let f :=
    if len - 1 < f.lastByte then
      let firstBlock := if len = 0 then 0 else (len - 1) / fsBlockSize + 1
      let lastBlock := f.lastByte / fsBlockSize
      let f := if len - 1 < f.firstByte then { f with lastByte := -1, firstByte := -1 } else { f with lastByte := len - 1 }
      let f := f.fileInvalidate firstBlock lastBlock
      if firstBlock > 0 then f.blockTrunc (firstBlock - 1) (len - (firstBlock - 1) * fsBlockSize) else f
    else f
  f.truncate len

def readAhead (blockNum : Int) : CachedFile := if blockNum * fsBlockSize > f.lastByte then f else (f.fetch blockNum).1

/-- The frame of a block that is not dirty is used for another one. -/
def evict (blockNum : Int) : Option CachedFile :=
  match f.cache blockNum with
  | some block => if block.dirty then none else some { f with cache := update f.cache blockNum none }
  | none => none

def writeBack (blockNum : Int) : Option CachedFile :=
  match f.cache blockNum with
  | some block =>
    if block.dirty then some { f with
      cache := update f.cache blockNum (some { block with dirty := false })
      store := update f.store blockNum (some (overwrite block.blockSize block.data (f.blockRead blockNum))) }
    else none
  | none => none

end CachedFile

inductive FileStep where
  | write (append : Bool) (offset : Nat) (buffer : Buffer) (len : Nat) (frames : Int → Buffer)
  | trunc (len : Nat)
  | read (offset len : Nat)
  | readAhead (blockNum : Nat)
  | evict (blockNum : Int)
  | writeBack (blockNum : Int)

namespace CachedFile

def step (f : CachedFile) : FileStep → Option CachedFile
  | .write append offset buffer len frames => some (f.write append offset buffer len frames).1
  | .trunc len => some (f.trunc len)
  | .read offset len => some (f.read offset len).1
  | .readAhead blockNum => some (f.readAhead blockNum)
  | .evict blockNum => f.evict blockNum
  | .writeBack blockNum => f.writeBack blockNum

end CachedFile

def arrayStep (l : List UInt8) : FileStep → List UInt8
  | .write append offset buffer len _ => writeAt 0 l (if append then l.length else offset) (bytesFrom buffer 0 len)
  | .trunc len => l.take len
  | _ => l

def fileStep (s : CachedFile × List UInt8) (a : FileStep) : Option (CachedFile × List UInt8) :=
  (s.1.step a).map (·, arrayStep s.2 a)

end SpriteKernel.Fscache
