import Mathlib.Algebra.Group.Hom.Defs
import Mathlib.Tactic.Abel

/- What the file-system modules share: host IDs, return codes, the usage bits
   of an open, the use counts of a handle. A word of independent bits is a
   structure of booleans, one field a bit; only the bits that modelled code
   reads are here. -/
namespace SpriteKernel

abbrev HostId := Nat

/-- The return codes of the modelled routines. -/
inductive ReturnStatus where
  | success
  | failure
  | genInvalidArg
  | sysArgNoAccess
  | fsWouldBlock
  | fsFileBusy
  | fsIsDirectory
  | fsNoDiskSpace
  | fsStaleHandle
  | fsFileRemoved
  | fsBrokenPipe
  | fsInvalidArg
  | fsNoExclusiveLock
  | fsNoSharedLock
  deriving DecidableEq, Repr

/-- `Fs_FileID`: what names a file, device, pipe or stream to every host. -/
structure FileId where
  type : Int
  serverID : Int
  major : Int
  minor : Int
  deriving DecidableEq, Repr

/-- The use bits of an open (`FS_READ`, `FS_WRITE`, ...) that the modelled code
tests. -/
structure UseFlags where
  read : Bool := false
  write : Bool := false
  execute : Bool := false
  create : Bool := false
  swap : Bool := false
  map : Bool := false
  migrating : Bool := false
  newStream : Bool := false
  rmtShared : Bool := false
  lastDirtyBlock : Bool := false
  deriving DecidableEq, Repr

/-- `Fsio_UseCounts`: how many streams use the object, how many of them are
writing, how many executing. -/
@[ext] structure UseCounts where
  ref : Int
  write : Int
  exec : Int
  deriving DecidableEq, Repr

namespace UseCounts

instance : Zero UseCounts := ⟨⟨0, 0, 0⟩⟩
instance : Add UseCounts := ⟨fun a b => ⟨a.ref + b.ref, a.write + b.write, a.exec + b.exec⟩⟩
instance : Neg UseCounts := ⟨fun a => ⟨-a.ref, -a.write, -a.exec⟩⟩
instance : Sub UseCounts := ⟨fun a b => ⟨a.ref - b.ref, a.write - b.write, a.exec - b.exec⟩⟩

@[simp] theorem zero_ref : (0 : UseCounts).ref = 0 := rfl
@[simp] theorem zero_write : (0 : UseCounts).write = 0 := rfl
@[simp] theorem zero_exec : (0 : UseCounts).exec = 0 := rfl
@[simp] theorem add_ref (a b : UseCounts) : (a + b).ref = a.ref + b.ref := rfl
@[simp] theorem add_write (a b : UseCounts) : (a + b).write = a.write + b.write := rfl
@[simp] theorem add_exec (a b : UseCounts) : (a + b).exec = a.exec + b.exec := rfl
@[simp] theorem neg_ref (a : UseCounts) : (-a).ref = -a.ref := rfl
@[simp] theorem neg_write (a : UseCounts) : (-a).write = -a.write := rfl
@[simp] theorem neg_exec (a : UseCounts) : (-a).exec = -a.exec := rfl
@[simp] theorem sub_ref (a b : UseCounts) : (a - b).ref = a.ref - b.ref := rfl
@[simp] theorem sub_write (a b : UseCounts) : (a - b).write = a.write - b.write := rfl
@[simp] theorem sub_exec (a b : UseCounts) : (a - b).exec = a.exec - b.exec := rfl

instance : AddCommGroup UseCounts where
  add_assoc a b c := by ext <;> simp <;> omega
  zero_add a := by ext <;> simp
  add_zero a := by ext <;> simp
  add_comm a b := by ext <;> simp <;> omega
  neg_add_cancel a := by ext <;> simp
  sub_eq_add_neg a b := by ext <;> simp <;> omega
  nsmul := nsmulRec
  zsmul := zsmulRec

/-- Some count is below zero: the condition every routine that takes counts
away panics on. -/
def negative (u : UseCounts) : Bool := u.ref < 0 || u.write < 0 || u.exec < 0

def ofFlags (f : UseFlags) : UseCounts :=
  ⟨1, if f.write then 1 else 0, if f.execute then 1 else 0⟩

/-! The counts one by one. -/

def refHom : UseCounts →+ Int := ⟨⟨ref, rfl⟩, fun _ _ => rfl⟩

def writeHom : UseCounts →+ Int := ⟨⟨write, rfl⟩, fun _ _ => rfl⟩

def execHom : UseCounts →+ Int := ⟨⟨exec, rfl⟩, fun _ _ => rfl⟩

/-- Counts that some number of streams can have. -/
def Feasible (u : UseCounts) : Prop := 0 ≤ u.write ∧ 0 ≤ u.exec ∧ u.write ≤ u.ref ∧ u.exec ≤ u.ref

instance (u : UseCounts) : Decidable u.Feasible := inferInstanceAs (Decidable (_ ∧ _ ∧ _ ∧ _))

theorem feasible_zero : Feasible 0 := ⟨Int.le_refl 0, Int.le_refl 0, Int.le_refl 0, Int.le_refl 0⟩

theorem feasible_ofFlags (f : UseFlags) : Feasible (ofFlags f) := by
  unfold Feasible ofFlags
  simp only
  split <;> split <;> omega

theorem Feasible.add {u v : UseCounts} (hu : Feasible u) (hv : Feasible v) : Feasible (u + v) := by
  unfold Feasible at *
  simp only [add_ref, add_write, add_exec]
  omega

theorem Feasible.not_negative {u : UseCounts} (h : Feasible u) : u.negative = false := by
  unfold Feasible at h
  simp only [negative, Bool.or_eq_false_iff, decide_eq_false_iff_not]
  omega

theorem Feasible.eq_zero {u : UseCounts} (h : Feasible u) (hr : u.ref = 0) : u = 0 := by
  unfold Feasible at h
  refine UseCounts.ext hr ?_ ?_
  · simp only [zero_write]
    omega
  · simp only [zero_exec]
    omega

end UseCounts

end SpriteKernel
