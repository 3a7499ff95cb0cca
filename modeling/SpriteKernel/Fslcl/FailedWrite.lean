import SpriteKernel.Fslcl.DirRun

/- Names that are added to a directory when no disk space is left for the block they are in. -/
namespace SpriteKernel.Fslcl

open Function
open Bytes

namespace Directory
variable (d : Directory)

/-- Whether a block has been allocated, and the directory from then on; `lost` is read where a block is deleted. -/
def cacheDirBlockWrite (lastByte : Int) (lost : Buffer) (allocated : Bool) (data : Buffer) (blockNum length : Int) :
    Bool × Directory :=
  let offset := blockNum * fsBlockSize
  let newLastByte := offset + length - 1
  let delete := !allocated && decide (lastByte + 1 < offset)
  (allocated, ⟨fun k => if delete ∧ offset ≤ k ∧ k < offset + fsBlockSize then lost k else data k, max d.size (newLastByte + 1)⟩)

/-- `InsertComponent` with the status that it returns. -/
def insertWrite (lastByte : Int) (lost : Buffer) (allocated : Bool) (component : Name) (number : Int) :
    Option (Bool × Directory × Int) :=
  match d.slotLoop (dirRecLength component.length) ((d.size / fsBlockSize).toNat + 2) 0 with
  | none => none
  | some (data, n, blockOffset, length) =>
    let slot := splitSlot data (n * fsBlockSize + blockOffset)
    let (status, d') := d.cacheDirBlockWrite lastByte lost allocated (fillSlot slot.1 slot.2 component number) n length
    some (status, d', slot.2)

/-- `LinkFile`, from the change of the descriptor on, for no directory: the directory and the number of links. -/
def linkFile (lastByte : Int) (lost : Buffer) (allocated stored : Bool) (component : Name) (number numLinks : Int) :
    Option (Bool × Directory × Int) :=
  let numLinks := numLinks + 1
  if stored = false then some (false, d, numLinks - 1)
  else (d.insertWrite lastByte lost allocated component number).map fun (status, d', _) =>
    (status, d', if status then numLinks else numLinks - 1)

/-- The number that a name is bound to, for the lookups that follow. -/
def lookup (name : Name) : Option (Option Int) := d.findComponent name |>.map (·.map Prod.fst)

theorem slotLoop_inside {need n m off length : Int} {fuel : Nat} {data : Buffer}
    (hs : d.slotLoop need fuel n = some (data, m, off, length)) (hn : n * fsBlockSize ≤ d.size) :
    m * fsBlockSize ≤ d.size := by
  induction fuel generalizing n with
  | zero => cases hs
  | succ fuel ih =>
    unfold slotLoop at hs
    dsimp only at hs
    split at hs
    · cases hs
    · split at hs
      · cases hs
        exact hn
      · split at hs
        · cases hs
          exact hn
        · -- only a full block leads on to the next one
          next hfull =>
          refine ih hs ?_
          unfold blockLength at hfull
          simp only [fsBlockSize] at *
          omega

end Directory

variable {d : Directory} {rs : List Int} {m : Name → Option Int} {component : Name} {max : Nat} {lastByte number : Int}

/-- A write that finds no space fails, and leaves the directory as the write that finds space does. -/
theorem Represents.insertWrite (h : Represents d rs m) (hlast : lastByte + 1 = d.size) (hm : m component = none)
    (hcomp : Component max component) (hmax : dirRecLength max ≤ dirBlockSize) (hnum : FileNumber number)
    (lost : Buffer) (allocated : Bool) : ∃ d' off rs',
      d.insertWrite lastByte lost allocated component number = some (allocated, d', off) ∧
        Represents d' rs' (update m component (some number)) := by
  obtain ⟨off, d', rs', heq, hd'⟩ := h.insert hm ⟨hcomp.notEmpty, hcomp.noNul⟩ (hcomp.fits hmax) hnum.notZero hnum.low hnum.high
  refine ⟨d', off, rs', ?_, hd'⟩
  unfold Directory.insertComponent at heq
  unfold Directory.insertWrite
  split at heq
  · cases heq
  · next data n blockOffset length hs =>
    cases heq
    have hsize := h.tiled.le
    have hn := d.slotLoop_inside hs (by omega)
    -- the block is not deleted: the directory does not end before it
    have hkeep : decide (lastByte + 1 < n * fsBlockSize) = false := decide_eq_false (by omega)
    simp [Directory.cacheDirBlockWrite, hs, hkeep]

theorem Represents.lookup (h : Represents d rs m) (name : Name) : d.lookup name = some (m name) := by
  obtain ⟨found, hfound, hfst⟩ := h.find name
  simp [Directory.lookup, hfound, hfst]

/-- What the caller of a call that failed goes by. -/
def Unchanged (d d' : Directory) : Prop := d'.size = d.size ∧ ∀ name, d'.lookup name = d.lookup name

theorem Represents.linkFile (h : Represents d rs m) (hlast : lastByte + 1 = d.size) (hm : m component = none)
    (hcomp : Component max component) (hmax : dirRecLength max ≤ dirBlockSize) (hnum : FileNumber number)
    (lost : Buffer) (numLinks : Int) : ∃ d',
      d.linkFile lastByte lost false true component number numLinks = some (false, d', numLinks) ∧
        d'.lookup component = some (some number) := by
  obtain ⟨d', off, rs', heq, hd'⟩ := h.insertWrite hlast hm hcomp hmax hnum lost false
  refine ⟨d', ?_, ?_⟩
  · simp [Directory.linkFile, heq]
  · rw [hd'.lookup, update_self]

theorem newDirectory_root : Represents (writeNewDirectory (fun _ => 0) 5 2) [0, 12] (newMap 5 2) :=
  newDirectory _ ⟨by decide, by decide, by decide⟩ ⟨by decide, by decide, by decide⟩

theorem component_a : Component 255 [97] := ⟨by decide, by decide, by simp⟩

end SpriteKernel.Fslcl
