import SpriteKernel.Fs.Types

/- Who may use a local file (`CheckPermissions`, fslclLookup.c). As 3 and 2 or'ed together are 3, the request for either
   type of link is the one for a remote link. -/
namespace SpriteKernel.Fslcl

inductive FileType where
  | file
  | directory
  | symbolicLink
  | remoteLink
  | other (n : Nat)
  deriving DecidableEq

/-- The three permission bits of a class. -/
structure Rights where
  read : Bool
  write : Bool
  exec : Bool

/-- A right is asked for that is not there. -/
def Rights.lack (permBits : Rights) (useFlags : UseFlags) : Bool :=
  useFlags.read && !permBits.read || useFlags.write && !permBits.write || useFlags.execute && !permBits.exec

/-- What is used of `Fsdm_FileDescriptor`; `permissionsDirty` is `FSDM_FD_PERMISSIONS_DIRTY`. -/
structure FileDescriptor where
  fileType : FileType
  uid : Int
  gid : Int
  setUid : Bool
  setGid : Bool
  owner : Rights
  group : Rights
  world : Rights
  permissionsDirty : Bool

structure UserIDs where
  user : Int
  group : List Int

inductive AccessStatus where
  | success
  | notDirectory
  | wrongType
  | noAccess
  deriving DecidableEq

abbrev FileType.Fits (type fileType : FileType) : Prop :=
  type = .file ∨ type = fileType ∨ type = .remoteLink ∧ (fileType = .symbolicLink ∨ fileType = .remoteLink)

namespace FileDescriptor
variable (d : FileDescriptor) (idPtr : UserIDs) (useFlags : UseFlags) (type : FileType)

/-- The bits of the first class that applies. -/
def permBits : Rights :=
  if idPtr.user = d.uid then d.owner else if d.gid ∈ idPtr.group then d.group else d.world

/-- A file that is to be written has set-id bits. -/
abbrev Stripped : Prop := useFlags.write = true ∧ d.fileType = .file ∧ (d.setUid = true ∨ d.setGid = true)

/-- `CheckPermissions`, and the descriptor afterwards. -/
def checkPermissions : AccessStatus × FileDescriptor :=
  if ¬ type.Fits d.fileType then (if type = .directory then .notDirectory else .wrongType, d)
  else if type = .file ∧ useFlags.execute = true ∧ d.fileType ≠ .file then (.wrongType, d)
  else
    let d := if d.Stripped useFlags then { d with setUid := false, setGid := false, permissionsDirty := true } else d
    if idPtr.user = 0 ∧ d.fileType = .directory then (.success, d)
    else
      let useFlags := if idPtr.user = 0 then { execute := useFlags.execute } else useFlags
      if (d.permBits idPtr).lack useFlags then (.noAccess, d) else (.success, d)

/-- Root needs to execute what is no directory, and others need each right asked for. -/
def Grants : Prop :=
  if idPtr.user = 0 then d.fileType = .directory ∨ (useFlags.execute = true → (d.permBits idPtr).exec = true)
  else (useFlags.read = true → (d.permBits idPtr).read = true) ∧ (useFlags.write = true → (d.permBits idPtr).write = true) ∧
    (useFlags.execute = true → (d.permBits idPtr).exec = true)

variable {d idPtr useFlags type}

theorem not_lack {permBits : Rights} : permBits.lack useFlags = false ↔ (useFlags.read = true → permBits.read = true) ∧
    (useFlags.write = true → permBits.write = true) ∧ (useFlags.execute = true → permBits.exec = true) := by
  rw [Rights.lack]
  cases useFlags.read <;> cases useFlags.write <;> cases useFlags.execute <;> simp [and_assoc]

theorem grants_iff : d.Grants idPtr useFlags ↔ (idPtr.user = 0 ∧ d.fileType = .directory) ∨
    (d.permBits idPtr).lack (if idPtr.user = 0 then { execute := useFlags.execute } else useFlags) = false := by
  rw [not_lack, Grants]
  by_cases hroot : idPtr.user = 0
  · simp [hroot]
  · simp [hroot]

/-- **Who may do what**: only files are executed. A refusal leaves the descriptor, that of a file with set-id bits
    left out. -/
theorem checkPermissions_success (d : FileDescriptor) (idPtr : UserIDs) (useFlags : UseFlags) (type : FileType) :
    ((d.checkPermissions idPtr useFlags type).1 = .success ↔
      type.Fits d.fileType ∧ ¬ (type = .file ∧ useFlags.execute = true ∧ d.fileType ≠ .file) ∧ d.Grants idPtr useFlags) ∧
    ((d.checkPermissions idPtr useFlags type).1 ≠ .success →
      (d.checkPermissions idPtr useFlags type).1 = .noAccess ∧ d.Stripped useFlags ∨
        (d.checkPermissions idPtr useFlags type).2 = d) := by
  rw [checkPermissions]
  by_cases htype : type.Fits d.fileType
  swap
  · rw [if_pos htype]
    refine ⟨⟨fun h => ?_, fun h => absurd h.1 htype⟩, fun _ => .inr rfl⟩
    split at h <;> cases h
  rw [if_neg (not_not.2 htype)]
  by_cases hexec : type = .file ∧ useFlags.execute = true ∧ d.fileType ≠ .file
  · rw [if_pos hexec]
    exact ⟨⟨fun h => (by cases h), fun h => absurd hexec h.2.1⟩, fun _ => .inr rfl⟩
  rw [if_neg hexec]
  obtain ⟨d', hd', hft, hbits, hsame⟩ : ∃ d', d' = (if d.Stripped useFlags then
      { d with setUid := false, setGid := false, permissionsDirty := true } else d) ∧ d'.fileType = d.fileType ∧
      d'.permBits idPtr = d.permBits idPtr ∧ (¬ d.Stripped useFlags → d' = d) := by
    refine ⟨_, rfl, ?_, ?_, fun h => if_neg h⟩
    · split <;> rfl
    · split <;> rfl
  dsimp only
  rw [← hd', hft, hbits, grants_iff]
  by_cases hdir : idPtr.user = 0 ∧ d.fileType = .directory
  · rw [if_pos hdir]
    exact ⟨⟨fun _ => ⟨htype, hexec, .inl hdir⟩, fun _ => rfl⟩, fun h => absurd rfl h⟩
  rw [if_neg hdir]
  generalize (if idPtr.user = 0 then { execute := useFlags.execute } else useFlags : UseFlags) = asked
  by_cases hlack : (d.permBits idPtr).lack asked = true
  · rw [if_pos hlack, hlack]
    refine ⟨⟨fun h => (by cases h), fun h => ?_⟩, fun _ => ?_⟩
    · exact h.2.2.elim (absurd · hdir) fun h => by cases h
    · exact (or_iff_not_imp_left.2 hsame).imp_left fun h => ⟨rfl, h⟩
  · rw [if_neg hlack]
    exact ⟨⟨fun _ => ⟨htype, hexec, .inr (Bool.eq_false_iff.2 hlack)⟩, fun _ => rfl⟩, fun h => absurd rfl h⟩

/-- A directory is executed, by a request for one; somebody refused to write a file takes its set-id bits. -/
theorem executes_directory_and_strips :
    (checkPermissions ⟨.directory, 1, 1, false, false, ⟨true, true, true⟩, ⟨true, false, true⟩, ⟨true, false, true⟩, false⟩
      ⟨1, []⟩ { execute := true } .directory).1 = .success ∧
    (checkPermissions ⟨.file, 1, 1, true, false, ⟨true, true, true⟩, ⟨true, false, true⟩, ⟨true, false, true⟩, false⟩
      ⟨2, []⟩ { write := true } .file) =
    (.noAccess, ⟨.file, 1, 1, false, false, ⟨true, true, true⟩, ⟨true, false, true⟩, ⟨true, false, true⟩, true⟩) :=
  ⟨rfl, rfl⟩

end FileDescriptor
end SpriteKernel.Fslcl
