import SpriteKernel.Lib.Bytes

/- Directories of the local domain (fslclLookup.c). A directory is a file of records, each with
   the number of a file and a name, and no record crosses a chunk of 512 bytes. -/
namespace SpriteKernel.Fslcl
open Bytes

def fsBlockSize : Int := 4096

def dirBlockSize : Int := 512

def rootFileNumber : Int := 2

/-- `Fslcl_DirRecLength`: header, name and NUL, rounded up. -/
def dirRecLength (stringLength : Int) : Int := 8 + (stringLength.tdiv 4 + 1) * 4

/-- `Fslcl_DirEntry` at an offset. -/
def fileNumber (b : Buffer) (p : Int) : Int := int b p
def recordLength (b : Buffer) (p : Int) : Int := short b (p + 4)
def nameLength (b : Buffer) (p : Int) : Int := short b (p + 6)

/-- The characters of a name, without the NUL at its end. -/
abbrev Name := List UInt8

/-- The comparison in `FindComponent`, up to the NUL of the component. -/
def sameChars : Name → Buffer → Int → Bool
  | [], _, _ => true
  | c :: cs, b, p => if c = b p then sameChars cs b (p + 1) else false

/-- Whether `strcmp` of a name and the string at an offset is 0. -/
def strcmpEq : Name → Buffer → Int → Bool
  | [], b, p => b p = 0
  | c :: cs, b, p => if c = b p then strcmpEq cs b (p + 1) else false

/-- Whether so many bytes find room: behind a name, or where one has been deleted. -/
def hasRoom (b : Buffer) (need p : Int) : Bool :=
  if fileNumber b p ≠ 0 then recordLength b p - dirRecLength (nameLength b p) ≥ need else recordLength b p ≥ need

/-- The record in use at a slot keeps what it needs, and the rest is another record. -/
def splitSlot (b : Buffer) (p : Int) : Buffer × Int :=
  if fileNumber b p ≠ 0 then
    let newRecordLength := dirRecLength (nameLength b p)
    let q := p + newRecordLength
    let b := setShort (q + 4) (recordLength b p - newRecordLength) b
    (setShort (p + 4) newRecordLength b, q)
  else (b, p)

/-- The fields of a record and its name. -/
def fillSlot (b : Buffer) (p : Int) (component : Name) (number : Int) : Buffer :=
  setBytes (p + 8) (component ++ [0]) (setShort (p + 6) component.length (setInt p number b))

/-- The contents of a directory file and its length. -/
structure Directory where
  data : Buffer
  size : Int

/-- A walk over a block: the offset come to, and the record before it unless a chunk begins there. -/
def scan (b : Buffer) (stop : Int → Bool) (base length : Int) : Nat → Int → Option Int → Option (Int × Option Int)
  | 0, _, _ => none
  | fuel + 1, blockOffset, last =>
    if blockOffset < length ∧ stop (base + blockOffset) = false then
      let next := blockOffset + recordLength b (base + blockOffset)
      scan b stop base length fuel next (if next % dirBlockSize = 0 then none else some blockOffset)
    else some (blockOffset, last)

/-- What the walk has time for if every record has a length. -/
def scanBlock (b : Buffer) (stop : Int → Bool) (base length : Int) : Option (Int × Option Int) :=
  scan b stop base length (length.toNat + 1) 0 none

namespace Directory
variable (d : Directory)

/-- The length that `Fscache_BlockRead` returns. -/
def blockLength (n : Int) : Int :=
  if n * fsBlockSize > d.size - 1 then 0 else min fsBlockSize (d.size - n * fsBlockSize)

/-- The loop over the blocks: block and offset where the walk stops, if it does before the end. -/
def searchLoop (stop : Int → Bool) : Nat → Int → Option (Option (Int × Int × Option Int))
  | 0, _ => none
  | fuel + 1, n =>
    let length := d.blockLength n
    if length = 0 then some none
    else
      match scanBlock d.data stop (n * fsBlockSize) length with
      | none => none
      | some (blockOffset, last) =>
        if blockOffset < length then some (some (n, blockOffset, last)) else searchLoop stop fuel (n + 1)

def search (stop : Int → Bool) : Option (Option (Int × Int × Option Int)) :=
  d.searchLoop stop ((d.size / fsBlockSize).toNat + 2) 0

/-- `FindComponent` without the name cache: the file's number and the record's offset. `none` inside is
    FS_FILE_NOT_FOUND. -/
def findComponent (component : Name) : Option (Option (Int × Int)) :=
  match d.search fun p =>
    recordLength d.data p ≤ 0 ∨
      (fileNumber d.data p ≠ 0 ∧ nameLength d.data p = component.length ∧ sameChars component d.data (p + 8) = true) with
  | none => none
  | some none => some none
  | some (some (n, blockOffset, _)) =>
    let p := n * fsBlockSize + blockOffset
    -- a record without a length: the directory is corrupted
    if recordLength d.data p ≤ 0 then some none else some (some (fileNumber d.data p, p))

/-- `InsertComponent`'s loop: block, offset and block length where so many bytes find room. -/
def slotLoop (need : Int) : Nat → Int → Option (Buffer × Int × Int × Int)
  | 0, _ => none
  | fuel + 1, n =>
    let base := n * fsBlockSize
    let length := d.blockLength n
    let data := if length = 0 then setBytes base (List.replicate 4096 0) d.data else d.data
    match scanBlock data (hasRoom data need) base length with
    | none => none
    | some (blockOffset, _) =>
      if blockOffset < length then some (data, n, blockOffset, length)
      else if length < fsBlockSize then
        let data := setBytes (base + length) (List.replicate 512 0) data
        some (setShort (base + blockOffset + 4) dirBlockSize data, n, blockOffset, length + dirBlockSize)
      else slotLoop need fuel (n + 1)

/-- `InsertComponent`: the directory, and the offset of the record. -/
def insertComponent (component : Name) (number : Int) : Option (Directory × Int) :=
  match d.slotLoop (dirRecLength component.length) ((d.size / fsBlockSize).toNat + 2) 0 with
  | none => none
  | some (data, n, blockOffset, length) =>
    let slot := splitSlot data (n * fsBlockSize + blockOffset)
    some (⟨fillSlot slot.1 slot.2 component number, max d.size (n * fsBlockSize + length)⟩, slot.2)

/-- `DeleteComponent`. The record before in the chunk takes over the bytes of the one deleted. -/
def deleteComponent (component : Name) : Option (Option Int × Directory) :=
  match d.search fun p =>
    fileNumber d.data p ≠ 0 ∧ nameLength d.data p = component.length ∧ strcmpEq component d.data (p + 8) = true with
  | none => none
  | some none => some (none, d)
  | some (some (n, blockOffset, last)) =>
    let p := n * fsBlockSize + blockOffset
    let data := setInt p 0 d.data
    let data :=
      match last with
      | none => data
      | some l =>
        let q := n * fsBlockSize + l
        setShort (q + 4) (recordLength data q + recordLength data p) data
    some (some p, { d with data := data })

def directoryEmpty : Option Bool :=
  match d.search fun p =>
    fileNumber d.data p ≠ 0 ∧ ¬(strcmpEq [46] d.data (p + 8) = true ∨ strcmpEq [46, 46] d.data (p + 8) = true) with
  | none => none
  | some none => some true
  | some (some _) => some false

end Directory

/-- `fslclEmptyDirBlock`: the records of `.` and `..` in memory that has not been cleared. -/
def emptyDirBlock (junk : Buffer) : Buffer :=
  let b := setInt 0 rootFileNumber junk
  let b := setShort 6 1 b
  let b := setShort 4 (dirRecLength 1) b
  let b := setBytes 8 [46, 0] b
  let q := dirRecLength 1
  let b := setInt q rootFileNumber b
  let b := setShort (q + 6) 2 b
  let b := setShort (q + 4) (dirBlockSize - dirRecLength 1) b
  setBytes (q + 8) [46, 46, 0] b

def writeNewDirectory (junk : Buffer) (current parent : Int) : Directory :=
  let b := setInt 0 current (emptyDirBlock junk)
  let b := setInt (0 + recordLength b 0) parent b
  ⟨b, dirBlockSize⟩

end SpriteKernel.Fslcl
