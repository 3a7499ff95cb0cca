import SpriteKernel.Fsconsist.Uses
import SpriteKernel.Lib.Tally

/- Opens, closes, kills and re-opens of a regular file (`fsioFile.c`), on the server. The handle's use counts
   summarise those on the client list, but are changed apart: the handle's under its lock, the list's in the monitor,
   which an open enters when it has given up the handle. `recov_Transparent` code (it is off), attributes, version,
   locks and the shadow stream are not kept. -/
namespace SpriteKernel.Fsio.File

open List UseCounts

open SpriteKernel SpriteKernel.Fsconsist Transition

/-- What the consistency routines are called for, with the handle unlocked: an open, a re-open, or a removal. -/
inductive Task where
  | nameOpen (clientID : HostId) (useFlags : UseFlags)
  | reopen (clientID : HostId) (use : UseCounts) (swap cacheable : Bool)
  | remove (clientID : HostId)
  deriving DecidableEq, Repr

def Task.request : Task → Request
  | .nameOpen clientID useFlags => .fileConsistency clientID useFlags
  | .reopen clientID use swap cacheable => .reopenConsistency clientID use swap cacheable
  | .remove clientID => .clientRemoveCallback clientID

/-- In none of these routines, past `Fsutil_HandleUnlock` on the way to the monitor, or in the consistency routine. -/
inductive FilePc where
  | idle
  | unlocked (t : Task)
  | inside (t : Task)
  deriving DecidableEq, Repr

/-- `Fsio_FileIOHandle`; the use counts are with the consistency state. `FSIO_FILE_NAME_DELETED` and
    `FSIO_FILE_DESC_DELETED`. -/
structure FileHandle where
  server : Server := {}
  pc : Pid → FilePc := fun _ => .idle
  nameDeleted : Bool := false
  descDeleted : Bool := false

inductive FileLabel where
  | nameOpen (p : Pid) (clientID : HostId) (useFlags : UseFlags)
  | close (p : Pid) (clientID : HostId) (flags : UseFlags)
  | clientKill (clientID : HostId)
  | reopen (p : Pid) (clientID : HostId) (use : UseCounts) (swap haveBlocks : Bool)
  | closeDeleted (p : Pid)
  | enter (p : Pid)
  | leave (p : Pid)
  | consist (l : Label)
  deriving DecidableEq, Repr

/-- The checks of `Fsio_FileNameOpen`, and the flags the open goes on with. -/
def openFlags (env : Env) (isDirectory : Bool) (use : UseCounts) (useFlags : UseFlags) :
    Except ReturnStatus UseFlags :=
  if useFlags.write && isDirectory then .error .fsIsDirectory
  else
    let useFlags := if isDirectory then { useFlags with execute := false } else useFlags
    if (useFlags.execute && use.write > 0) || ((useFlags.write || useFlags.create) && use.exec > 0) then
      .error .fsFileBusy
    else if useFlags.execute && env.isFile then .ok { useFlags with read := true }
    else .ok useFlags

namespace FileHandle

def setPc (s : FileHandle) (p : Pid) (c : FilePc) : FileHandle :=
  { s with pc := Function.update s.pc p c }

def setInfo (s : FileHandle) (i : Info) : FileHandle := { s with server := { s.server with info := i } }

def stop (s : FileHandle) (e : Panic) : FileHandle := { s with server := s.server.stop e }

/-- Take counts off the handle; below zero the kernel stops. -/
def takeUse (s : FileHandle) (use : UseCounts) : FileHandle :=
  if (s.server.info.use - use).negative then s.stop .badUseCounts
  else s.setInfo { s.server.info with use := s.server.info.use - use }

/-- `Fsio_FileCloseInt`; `callback`: the process that does the call-backs before a removal. -/
def fileCloseInt (s : FileHandle) (use : UseCounts) (clientID : HostId) (callback : Option Pid) :
    FileHandle :=
  let s := s.takeUse use
  if s.server.panic.isNone && s.server.info.use.ref == 0 && s.nameDeleted && !s.descDeleted then
    let s := { s with descDeleted := true }
    match callback with
    | some p => s.setPc p (.unlocked (.remove clientID))
    | none => s
  else s

/-- `Fsconsist_Kill`, and its counts off the handle: what follows an open or re-open
that failed. -/
def retreat (s : FileHandle) (clientID : HostId) : FileHandle :=
  let (use, i) := kill clientID s.server.info
  (s.setInfo i).takeUse use

/-- `Fsio_FileClose`: the check against bad closes, the client list, the counts. -/
def close (s : FileHandle) (p : Pid) (clientID : HostId) (flags : UseFlags) : FileHandle :=
  if flags.execute && s.server.info.clientList.any (fun c => c.clientID == clientID && c.use.exec == 0) then s
  else
    match Fsconsist.close clientID flags s.server.info with
    | .error e => s.stop e
    | .ok (false, _, _) => s
    | .ok (true, _, i) => (s.setInfo i).fileCloseInt (ofFlags flags) clientID (some p)

def clientKill (s : FileHandle) (clientID : HostId) : FileHandle :=
  let (use, l) := s.server.info.clientList.ioClientKill clientID
  (s.setInfo { s.server.info with clientList := l }).fileCloseInt use clientID none

/-- The end of a task: an open or re-open whose call-backs failed is taken back. -/
def finish (s : FileHandle) (p : Pid) (t : Task) (status : ReturnStatus) : FileHandle :=
  let s := s.setPc p .idle
  match t with
  | .nameOpen clientID _ | .reopen clientID _ _ _ =>
    if status = .success then s else s.retreat clientID
  | .remove _ => s

/-- The process may begin something. -/
def free (s : FileHandle) (p : Pid) : Bool := s.pc p = .idle && (s.server.pc p).free

/-- The steps of the consistency routines that no routine here takes for them. -/
def ofMonitor (s : FileHandle) : Label → Bool
  | .call p (.getClientAttrs _) | .call p (.fetchDirtyBlocks _) => s.free p
  | .call _ _ | .close _ _ | .kill _ | .ioClientKill _ | .reopenClient _ _ _ => false
  | _ => true

/-- One step; `none` where it cannot be taken. -/
def step (env : Env) (isDirectory : Bool) (s : FileHandle) (l : FileLabel) : Option FileHandle :=
  if s.server.panic.isSome then none
  else
    match l with
    | .nameOpen p clientID useFlags =>
      if s.free p then
        match openFlags env isDirectory s.server.info.use useFlags with
        | .error _ => some s
        | .ok useFlags =>
          if useFlags = {} then some s
          else
            some ((s.setInfo { s.server.info with use := s.server.info.use + ofFlags useFlags }).setPc p
              (.unlocked (.nameOpen clientID useFlags)))
      else none
    | .close p clientID flags => if s.free p then some (s.close p clientID flags) else none
    | .clientKill clientID => some (s.clientKill clientID)
    | .reopen p clientID use swap haveBlocks =>
      if s.free p then
        match reopenClient clientID use haveBlocks s.server.info with
        | .error e => some (s.stop e)
        | .ok i => some ((s.setInfo i).setPc p (.unlocked (.reopen clientID use swap haveBlocks)))
      else none
    | .closeDeleted p =>
      if s.free p then
        let s := { s with nameDeleted := true }
        if s.server.info.use.ref = 0 then some (s.fileCloseInt 0 env.rpc_SpriteID (some p)) else some s
      else none
    | .enter p =>
      match s.pc p with
      | .unlocked t =>
        (Server.step env s.server (.call p t.request)).map
          (fun server => { s.setPc p (.inside t) with server := server })
      | _ => none
    | .leave p =>
      match s.pc p, s.server.pc p with
      | .inside t, .returned _ _ status => some (s.finish p t status)
      | _, _ => none
    | .consist l =>
      if s.ofMonitor l then (Server.step env s.server l).map (fun server => { s with server := server })
      else none

end FileHandle

/-! ## The counts -/

/-- The call a process is on its way to. -/
def FilePc.request? : FilePc → Option Request
  | .unlocked t => some t.request
  | _ => none

/-- What a process has counted on the handle and not yet brought to the monitor. -/
def FilePc.owed : FilePc → UseCounts
  | .unlocked (.nameOpen _ useFlags) => ofFlags useFlags
  | _ => 0

namespace FileHandle

/-- What a process has counted on the handle and not yet on the list. -/
def owed (s : FileHandle) (p : Pid) : UseCounts := (s.pc p).owed + (s.server.pc p).owed

/-- The process is in an open between `use.ref++` and `UpdateList`. -/
def opening (s : FileHandle) (p : Pid) : Prop :=
  (∃ clientID useFlags, s.pc p = .unlocked (.nameOpen clientID useFlags)) ∨
    ∃ clientID useFlags, s.server.pc p = .waitDone (.scan (.fileConsistency clientID useFlags)) ∨
      (∃ loc next msg, s.server.pc p = .inRpc (.scanning (.fileConsistency clientID useFlags) loc next) msg) ∨
      ∃ loc next, s.server.pc p = .relock (.scanning (.fileConsistency clientID useFlags) loc next)

/-- A close leaves no use without a reference, a re-open brings none, and nothing the handle counts is taken off. -/
def KeepsCounts (s : FileHandle) : FileLabel → Prop
  | .close _ clientID flags => ∀ d ∈ s.server.info.clientList, d.clientID = clientID →
      (d.use - ofFlags flags).ref = 0 → d.use = ofFlags flags
  | .reopen _ _ use _ _ => 0 ≤ use.ref ∧ (use.ref = 0 → use = 0)
  | .enter p => ∀ r ∈ (s.pc p).request?, s.server.KeepsUses (.call p r)
  | .consist l => s.server.KeepsUses l
  | _ => True

instance (s : FileHandle) (l : FileLabel) : Decidable (KeepsCounts s l) := by
  cases l <;> unfold KeepsCounts <;> infer_instance

/-- The handle counts what is on the list, and what is on its way there, as long as
the kernel runs. -/
structure Counted (s : FileHandle) : Prop where
  base : s.server.Base
  tidy : s.server.panic = none → Tidy s.server.info.clientList
  stays : ∀ p, s.server.panic = none → (s.server.pc p).stays = true
  sums : s.server.panic = none →
    Tally.Sums s.owed (s.server.info.use - total s.server.info.clientList)

theorem counted_init : Counted {} where
  base := Server.base_init
  tidy := fun _ => by simp [Tidy]
  stays := fun _ _ => rfl
  sums := fun _ => Tally.sums_zero

/-- The consistency state after a step of a process that has the handle. -/
structure Handled (s : FileHandle) (i : Info) : Prop where
  wf : i.clientList.Wf i.fresh
  inProgress : i.flags.inProgress = s.server.info.flags.inProgress
  msgs : List.Sublist i.msgList s.server.info.msgList
  tidy : Tidy i.clientList

variable {s : FileHandle} {i : Info} {use : UseCounts}

theorem Handled.of_interferes (h : Counted s)
    (hi : Interferes s.server.info i) (ht : Tidy i.clientList) : Handled s i :=
  ⟨hi.wf h.base.wf, hi.inProgress, hi.msgs, ht⟩

theorem Handled.base (hi : Handled s i) (h : Counted s) : (s.setInfo i).server.Base :=
  h.base.withInfo hi.wf hi.inProgress hi.msgs s.server.timeouts

section
variable (h : Counted s)
include h

theorem Counted.setInfo (hi : Handled s i)
    (hb : i.use - total i.clientList = s.server.info.use - total s.server.info.clientList) :
    Counted (s.setInfo i) where
  base := hi.base h
  tidy := fun _ => hi.tidy
  stays := h.stays
  sums := fun hp => by
    have hs := h.sums hp
    rw [← hb] at hs
    exact hs

theorem Counted.stop (e : Panic) : Counted (s.stop e) where
  base := h.base.stop e
  tidy := fun hp => by simp [FileHandle.stop, Server.stop] at hp
  stays := fun _ hp => by simp [FileHandle.stop, Server.stop] at hp
  sums := fun hp => by simp [FileHandle.stop, Server.stop] at hp

theorem Counted.takeUse (hi : Handled s i)
    (hb : i.use - total i.clientList = s.server.info.use - total s.server.info.clientList + use) :
    Counted ((s.setInfo i).takeUse use) := by
  unfold FileHandle.takeUse
  split
  · refine ⟨(hi.base h).stop _, fun hp => ?_, fun _ hp => ?_, fun hp => ?_⟩ <;>
      simp [FileHandle.stop, Server.stop] at hp
  · refine h.setInfo (i := { i with use := i.use - use }) ⟨hi.wf, hi.inProgress, hi.msgs, hi.tidy⟩ ?_
    calc i.use - use - total i.clientList = i.use - total i.clientList - use := sub_right_comm _ _ _
      _ = _ := by rw [hb, add_sub_cancel_right]

theorem Counted.setPc {p : Pid} {c : FilePc} (hc : c.owed = (s.pc p).owed) :
    Counted (s.setPc p c) where
  base := h.base
  tidy := h.tidy
  stays := h.stays
  sums := fun hp => by
    refine (h.sums hp).congr (fun q => ?_)
    unfold owed
    by_cases hq : q = p
    · subst hq
      simp [FileHandle.setPc, hc]
    · simp [FileHandle.setPc, hq]

end

theorem Counted.fileCloseInt {clientID : HostId} {callback : Option Pid}
    (h : Counted (s.takeUse use)) (hp : ∀ p, callback = some p → (s.pc p).owed = 0) :
    Counted (s.fileCloseInt use clientID callback) := by
  have hpc : (s.takeUse use).pc = s.pc := by
    unfold FileHandle.takeUse
    split <;> rfl
  unfold FileHandle.fileCloseInt
  simp only
  split
  · have hdel : Counted { s.takeUse use with descDeleted := true } := ⟨h.base, h.tidy, h.stays, h.sums⟩
    cases callback with
    | none => exact hdel
    | some p =>
      have hzero : ((s.takeUse use).pc p).owed = 0 := by
        rw [hpc]
        exact hp p rfl
      exact hdel.setPc hzero.symm
  · exact h

end FileHandle

/-! ## The client list under the handle's lock -/

/-- What a close takes off the list, where it leaves no entry with no reference another
use. -/
theorem close_counts {clientID : HostId} {flags : UseFlags} {s i : Info} {wasCached : Bool}
    (hw : s.clientList.Wf s.fresh) (ht : Tidy s.clientList)
    (hl : ∀ d ∈ s.clientList, d.clientID = clientID → (d.use - ofFlags flags).ref = 0 →
      d.use = ofFlags flags)
    (h : Fsconsist.close clientID flags s = .ok (true, wasCached, i)) :
    Tidy i.clientList ∧ i.use - total i.clientList = s.use - total s.clientList + ofFlags flags := by
  unfold Fsconsist.close at h
  split at h
  · simp at h
  · next r hr =>
    split at h
    · simp at h
    · next hfound =>
      simp only [Except.ok.injEq, Prod.mk.injEq, true_and] at h
      rw [← h.2]
      rcases ioClientClose_spec hr with ⟨-, rfl⟩ | ⟨c, hc, -, hneg, -, -, hlist⟩
      · simp at hfound
      · obtain ⟨hmem, hid⟩ := ClientList.mem_of_client hc
        have hkey := hl c hmem hid
        rcases hlist with ⟨hgone, hlist⟩ | ⟨-, hlist⟩
        · simp only [Bool.and_eq_true, beq_iff_eq] at hgone
          have huse := hkey hgone.1.2
          refine ⟨fun d hd => ?_, ?_⟩
          · simp only [hlist] at hd
            exact ht d (mem_of_mem_eraseP hd)
          · have htotal : total r.list = total s.clientList - ofFlags flags := by
              rw [hlist, ← huse]
              exact KeyedList.sum_eraseP hc
            simp only [htotal, sub_sub_eq_add_sub, sub_add_eq_add_sub]
        · have hnn := UseCounts.nonneg_of_not_negative hneg
          refine ⟨fun d hd => ?_, ?_⟩
          · simp only [hlist] at hd
            rcases (KeyedList.mem_updateFirst_key hw.ids).mp hd with ⟨hd, -⟩ | ⟨a, ha, haid, rfl⟩
            · exact ht d hd
            · simp only [ClientInfo.setUse]
              exact ⟨hnn.1, fun hz => by rw [hkey hz, sub_self]⟩
          · have htotal : total r.list = total s.clientList - ofFlags flags := by
              rw [hlist]
              refine (KeyedList.sum_updateFirst hc).trans ?_
              simp only [ClientInfo.setUse, sub_sub_cancel_left]
              exact (sub_eq_add_neg _ _).symm
            simp only [htotal, sub_sub_eq_add_sub, sub_add_eq_add_sub]

theorem ioClientKill_counts (clientID : HostId) {l : ClientList} (ht : Tidy l) :
    Tidy (l.ioClientKill clientID).2 ∧ total (l.ioClientKill clientID).2 = total l - (l.ioClientKill clientID).1 := by
  refine ⟨fun d hd => ?_, ?_⟩
  · rcases Server.mem_ioClientKill hd with hd | hz
    · exact ht d hd
    · rw [hz]
      exact ⟨Int.le_refl 0, fun _ => rfl⟩
  · unfold ClientList.ioClientKill
    cases hc : l.client clientID with
    | none => exact (sub_zero _).symm
    | some c =>
      simp only
      split
      · refine (KeyedList.sum_updateFirst hc).trans ?_
        simp only [ClientInfo.setUse, zero_sub]
        exact (sub_eq_add_neg _ _).symm
      · exact KeyedList.sum_eraseP hc

theorem reopenClient_counts {clientID : HostId} {use : UseCounts} {haveDirtyBlocks : Bool} {s i : Info}
    (ht : Tidy s.clientList) (hu : 0 ≤ use.ref ∧ (use.ref = 0 → use = 0))
    (h : reopenClient clientID use haveDirtyBlocks s = .ok i) :
    Tidy i.clientList ∧ i.use - total i.clientList = s.use - total s.clientList := by
  have htidy : ∀ l : ClientList, Tidy l →
      Tidy (l.updateClient clientID (fun c => (c.setUse use).setCached haveDirtyBlocks)) := by
    intro l hl d hd
    rcases KeyedList.mem_of_mem_updateFirst hd with hd | ⟨a, -, -, rfl⟩
    · exact hl d hd
    · exact hu
  unfold reopenClient at h
  simp only at h
  split at h
  · next c hc =>
    split at h
    · simp at h
    · cases h
      refine ⟨htidy _ ht, ?_⟩
      have htotal : total (s.clientList.updateClient clientID
          (fun c => (c.setUse use).setCached haveDirtyBlocks)) = total s.clientList + (use - c.use) :=
        KeyedList.sum_updateFirst hc
      simp only [htotal, add_sub_add_right_eq_sub]
  · next hnone =>
    cases h
    have hins : Tidy (s.clientList.insertClient s.fresh clientID) := by
      intro d hd
      rcases mem_cons.mp hd with rfl | hd
      · exact ⟨Int.le_refl 0, fun _ => rfl⟩
      · exact ht d hd
    refine ⟨htidy _ hins, ?_⟩
    have htotal : total ((s.clientList.insertClient s.fresh clientID).updateClient clientID
        (fun c => (c.setUse use).setCached haveDirtyBlocks)) = total s.clientList + use := by
      unfold ClientList.updateClient ClientList.insertClient total
      rw [KeyedList.sum_updateFirst (List.find?_cons_of_pos (by simp))]
      simp only [ClientInfo.setUse, ClientInfo.setCached, map_cons, sum_cons, zero_add, sub_zero]
    simp only [htotal, add_sub_add_right_eq_sub]

namespace FileHandle

variable {s : FileHandle} {p : Pid}

theorem free_iff : s.free p = true ↔ s.pc p = .idle ∧ (s.server.pc p).free = true := by
  simp [FileHandle.free]

/-! ## The steps -/

variable {clientID : HostId}

section
variable (h : Counted s)
include h

section
variable (hok : s.server.panic = none)
include hok

theorem Counted.close {flags : UseFlags}
    (hp : s.free p = true) (hl : KeepsCounts s (.close p clientID flags)) :
    Counted (s.close p clientID flags) := by
  have hw := h.base.wf
  unfold FileHandle.close
  split
  · exact h
  · split
    · exact h.stop _
    · exact h
    · next wasCached i hc =>
      obtain ⟨ht, hb⟩ := close_counts hw (h.tidy hok) hl hc
      have hi := Handled.of_interferes h (interferes_close hw hc) ht
      refine Counted.fileCloseInt (h.takeUse hi hb) (fun q hq => ?_)
      cases hq
      have hidle : s.pc p = .idle := (free_iff.mp hp).1
      change (s.pc p).owed = 0
      rw [hidle]
      rfl

theorem Counted.clientKill : Counted (s.clientKill clientID) := by
  have hw := h.base.wf
  obtain ⟨ht, hb⟩ := ioClientKill_counts clientID (h.tidy hok)
  have hi : Handled s { s.server.info with clientList := (s.server.info.clientList.ioClientKill clientID).2 } :=
    ⟨(below_ioClientKill hw clientID).wf hw, rfl, List.Sublist.refl _, ht⟩
  change Counted ((s.setInfo
    { s.server.info with clientList := (s.server.info.clientList.ioClientKill clientID).2 }).fileCloseInt
      (s.server.info.clientList.ioClientKill clientID).1 clientID none)
  refine Counted.fileCloseInt (h.takeUse hi ?_) (fun q hq => nomatch hq)
  change s.server.info.use - total (s.server.info.clientList.ioClientKill clientID).2 =
    s.server.info.use - total s.server.info.clientList + (s.server.info.clientList.ioClientKill clientID).1
  rw [hb]
  abel

theorem Counted.retreat : Counted (s.retreat clientID) := by
  have hw := h.base.wf
  obtain ⟨ht, hb⟩ := ioClientKill_counts clientID (h.tidy hok)
  have hi : Handled s (kill clientID s.server.info).2 :=
    Handled.of_interferes h (interferes_kill hw clientID) ht
  refine h.takeUse hi ?_
  change s.server.info.use - total (s.server.info.clientList.ioClientKill clientID).2 =
    s.server.info.use - total s.server.info.clientList + (s.server.info.clientList.ioClientKill clientID).1
  rw [hb]
  abel

theorem Counted.finish {t : Task} {status : ReturnStatus}
    (hp : s.pc p = .inside t) : Counted (s.finish p t status) := by
  have hidle : Counted (s.setPc p .idle) := by
    refine h.setPc ?_
    rw [hp]
    rfl
  unfold FileHandle.finish
  cases t with
  | nameOpen clientID useFlags =>
    simp only
    split
    · exact hidle
    · exact hidle.retreat hok
  | reopen clientID use swap cacheable =>
    simp only
    split
    · exact hidle
    · exact hidle.retreat hok
  | remove clientID => exact hidle

end

theorem Counted.nameOpen {useFlags : UseFlags}
    (hp : s.pc p = .idle) :
    Counted ((s.setInfo { s.server.info with use := s.server.info.use + ofFlags useFlags }).setPc p
      (.unlocked (.nameOpen clientID useFlags))) where
  base := Server.Base.withInfo (i := { s.server.info with use := s.server.info.use + ofFlags useFlags })
    h.base h.base.wf rfl (List.Sublist.refl _) s.server.timeouts
  tidy := h.tidy
  stays := h.stays
  sums := fun hok => by
    refine (congrArg (Tally.Sums _) ?_).mp ((h.sums hok).change p (fun q hq => ?_))
    · change _ = s.server.info.use + ofFlags useFlags - total s.server.info.clientList
      simp only [owed, FileHandle.setPc, FileHandle.setInfo, Function.update_self, hp, FilePc.owed]
      rw [add_sub_add_right_eq_sub, sub_zero, sub_add_eq_add_sub]
    · simp [owed, FileHandle.setPc, FileHandle.setInfo, hq]

theorem Counted.reopen {use : UseCounts} {swap haveBlocks : Bool}
    {i : Info} (hok : s.server.panic = none) (hp : s.pc p = .idle)
    (hl : KeepsCounts s (.reopen p clientID use swap haveBlocks))
    (hr : reopenClient clientID use haveBlocks s.server.info = .ok i) :
    Counted ((s.setInfo i).setPc p (.unlocked (.reopen clientID use swap haveBlocks))) := by
  obtain ⟨ht, hb⟩ := reopenClient_counts (h.tidy hok) hl hr
  obtain ⟨hw, hf, hm⟩ := Server.wf_reopenClient h.base.wf hr
  have hi : Handled s i := ⟨hw, by rw [hf], by rw [hm], ht⟩
  refine (h.setInfo hi hb).setPc ?_
  change _ = (s.pc p).owed
  rw [hp]
  rfl

end

variable {env : Env} {server : Server} {l : Label} {isDirectory : Bool}

theorem Counted.accounts (h : Counted s) (hok : s.server.panic = none) (hl : s.server.KeepsUses l)
    (hs : Server.step env s.server l = some server) (hok' : server.panic = none) : Server.Accounts s.server server l :=
  Server.step_balanced h.base (h.tidy hok) (fun q => h.stays q hok) hl hs hok'

/-- A process goes from the handle to the monitor: what it owed the monitor it now
owes the list. -/
theorem Counted.enter {t : Task} (h : Counted s)
    (hok : s.server.panic = none) (hp : s.pc p = .unlocked t) (hl : s.server.KeepsUses (.call p t.request))
    (hs : Server.step env s.server (.call p t.request) = some server) :
    Counted { s.setPc p (.inside t) with server := server } where
  base := h.base.step hs
  tidy := fun hok' => (h.accounts hok hl hs hok').tidy
  stays := fun q hok' => (h.accounts hok hl hs hok').stays q
  sums := fun hok' => by
    have ha := h.accounts hok hl hs hok'
    have hbal := ha.balance p rfl
    have howed : t.request.owed = (FilePc.unlocked t).owed := by cases t <;> rfl
    refine (congrArg (Tally.Sums _) ?_).mp ((h.sums hok).change p (fun q hq => ?_))
    · change _ = server.info.use - total server.info.clientList
      rw [hbal]
      simp only [owed, FileHandle.setPc, Function.update_self, hp, Server.brings, howed]
      have hin : (FilePc.inside t).owed = 0 := rfl
      rw [hin]
      abel
    · have hother : server.pc q = s.server.pc q := ha.others q (by simpa [Label.process?] using Ne.symm hq)
      simp [owed, FileHandle.setPc, hq, hother]

theorem brings_ofMonitor (h : s.ofMonitor l = true) : Server.brings l = 0 := by
  cases l with
  | call p r => cases r <;> simp_all [ofMonitor, Server.brings, Request.owed]
  | _ => rfl

theorem Counted.consist (h : Counted s) (hok : s.server.panic = none) (hm : s.ofMonitor l = true) (hl : s.server.KeepsUses l)
    (hs : Server.step env s.server l = some server) : Counted { s with server := server } where
  base := h.base.step hs
  tidy := fun hok' => (h.accounts hok hl hs hok').tidy
  stays := fun q hok' => (h.accounts hok hl hs hok').stays q
  sums := fun hok' => by
    have ha := h.accounts hok hl hs hok'
    cases hproc : l.process? with
    | none =>
      have hs := h.sums hok
      rw [← ha.same hproc] at hs
      refine hs.congr (fun q => ?_)
      simp only [owed, ha.others q (by simp [hproc])]
    | some p =>
      have hbal := ha.balance p hproc
      refine (congrArg (Tally.Sums _) ?_).mp ((h.sums hok).change p (fun q hq => ?_))
      · change _ = server.info.use - total server.info.clientList
        rw [hbal, brings_ofMonitor hm]
        simp only [owed]
        abel
      · simp only [owed, ha.others q (by simpa [hproc] using Ne.symm hq)]

theorem Counted.step {t : FileHandle} {l : FileLabel} (h : Counted s)
    (hl : KeepsCounts s l) (hs : FileHandle.step env isDirectory s l = some t) : Counted t := by
  unfold FileHandle.step at hs
  split at hs
  · simp at hs
  · next hpanic =>
    have hok : s.server.panic = none := by simpa using hpanic
    cases l with
    | nameOpen p clientID useFlags =>
      simp only [Option.ite_none_right_eq_some] at hs
      obtain ⟨hp, hs⟩ := hs
      split at hs
      · exact Option.some.inj hs ▸ h
      · split at hs
        · exact Option.some.inj hs ▸ h
        · exact Option.some.inj hs ▸ h.nameOpen (free_iff.mp hp).1
    | close p clientID flags =>
      simp only [Option.ite_none_right_eq_some, Option.some.injEq] at hs
      exact hs.2 ▸ h.close hok hs.1 hl
    | clientKill clientID => exact Option.some.inj hs ▸ h.clientKill hok
    | reopen p clientID use swap haveBlocks =>
      simp only [Option.ite_none_right_eq_some] at hs
      obtain ⟨hp, hs⟩ := hs
      split at hs
      · exact Option.some.inj hs ▸ h.stop _
      · next i hr => exact Option.some.inj hs ▸ h.reopen hok (free_iff.mp hp).1 hl hr
    | closeDeleted p =>
      simp only [Option.ite_none_right_eq_some] at hs
      obtain ⟨hp, hs⟩ := hs
      have hdel : Counted { s with nameDeleted := true } := ⟨h.base, h.tidy, h.stays, h.sums⟩
      split at hs
      · have hi : Handled { s with nameDeleted := true } s.server.info :=
          ⟨h.base.wf, rfl, List.Sublist.refl _, h.tidy hok⟩
        refine Option.some.inj hs ▸ Counted.fileCloseInt (hdel.takeUse hi (add_zero _).symm) (fun q hq => ?_)
        cases hq
        rw [(free_iff.mp hp).1]
        rfl
      · exact Option.some.inj hs ▸ hdel
    | enter p =>
      simp only at hs
      split at hs
      · next task hpc =>
        obtain ⟨server, hstep, rfl⟩ := Option.map_eq_some_iff.mp hs
        exact h.enter hok hpc (hl _ (by rw [hpc]; rfl)) hstep
      · simp at hs
    | leave p =>
      simp only at hs
      split at hs
      · next task a loc status hpc _ => exact Option.some.inj hs ▸ h.finish hok hpc
      · simp at hs
    | consist l =>
      simp only [Option.ite_none_right_eq_some] at hs
      obtain ⟨hm, hs⟩ := hs
      obtain ⟨server, hstep, rfl⟩ := Option.map_eq_some_iff.mp hs
      exact h.consist hok hm hl hstep

theorem counted_of_run (h : Run (FileHandle.step env isDirectory) KeepsCounts {} s) : Counted s :=
  h.invariant (I := Counted) (fun _ _ _ hi hc hs => hi.step hc hs) counted_init

/-! ## The sums -/

theorem owed_eq_zero (h : ¬ s.opening p) : s.owed p = 0 := by
  have hpc : (s.pc p).owed = 0 := by
    unfold FilePc.owed
    split
    · next clientID useFlags hp => exact absurd (.inl ⟨clientID, useFlags, hp⟩) h
    · rfl
  have hscan : ∀ a : Scan, (∀ clientID useFlags, a ≠ .fileConsistency clientID useFlags) → a.owed = 0 := by
    intro a ha
    cases a with
    | fileConsistency clientID useFlags => exact absurd rfl (ha clientID useFlags)
    | _ => rfl
  have hserver : (s.server.pc p).owed = 0 := by
    unfold Pc.owed
    split
    · next a hp =>
      refine hscan a (fun clientID useFlags ha => h (.inr ⟨clientID, useFlags, .inl ?_⟩))
      rw [hp, ha]
    · next a loc next msg hp =>
      refine hscan a (fun clientID useFlags ha => h (.inr ⟨clientID, useFlags, .inr (.inl ⟨loc, next, msg, ?_⟩)⟩))
      rw [hp, ha]
    · next a loc next hp =>
      refine hscan a (fun clientID useFlags ha => h (.inr ⟨clientID, useFlags, .inr (.inr ⟨loc, next, ?_⟩)⟩))
      rw [hp, ha]
    · rfl
  unfold owed
  rw [hpc, hserver, add_zero]

theorem total_fields (l : ClientList) :
    (total l).ref = (l.map (fun c => c.use.ref)).sum ∧ (total l).write = (l.map (fun c => c.use.write)).sum ∧
      (total l).exec = (l.map (fun c => c.use.exec)).sum := by
  unfold total
  induction l with
  | nil => exact ⟨rfl, rfl, rfl⟩
  | cons c l ih =>
    obtain ⟨href, hwrite, hexec⟩ := ih
    simp only [map_cons, sum_cons, add_ref, add_write, add_exec, href,
      hwrite, hexec, and_self]

/-- With no open between the handle and the list, the handle's counts are the sums over the list. -/
theorem uses_of_run (env : Env) (isDirectory : Bool) {s : FileHandle}
    (h : Run (FileHandle.step env isDirectory) KeepsCounts {} s) (hok : s.server.panic = none)
    (hq : ∀ p, ¬ s.opening p) :
    s.server.info.use.ref = (s.server.info.clientList.map (fun c => c.use.ref)).sum ∧
      s.server.info.use.write = (s.server.info.clientList.map (fun c => c.use.write)).sum ∧
      s.server.info.use.exec = (s.server.info.clientList.map (fun c => c.use.exec)).sum := by
  have hzero : s.server.info.use - total s.server.info.clientList = 0 :=
    ((counted_of_run h).sums hok).eq_zero (fun p => owed_eq_zero (hq p))
  rw [sub_eq_zero.mp hzero]
  exact total_fields _

theorem not_opening (h : s.pc p = .idle) (hf : (s.server.pc p).free = true) : ¬ s.opening p := by
  rintro (⟨clientID, useFlags, hp⟩ | ⟨clientID, useFlags, hp | ⟨loc, next, msg, hp⟩ | ⟨loc, next, hp⟩⟩)
  · rw [h] at hp
    cases hp
  · rw [hp] at hf
    cases hf
  · rw [hp] at hf
    cases hf
  · rw [hp] at hf
    cases hf

/-- Host 2 opens the file for writing, and host 3 then for reading; host 2 is called
back. -/
def writerCalledBack : List FileLabel :=
  [.nameOpen 0 2 { write := true }, .enter 0, .leave 0, .nameOpen 1 3 { read := true }, .enter 1]

/-- Host 2 answers, and both opens are counted on both sides. -/
theorem uses_after_callback :
    ∃ s, Run (FileHandle.step fileServer false) KeepsCounts {} s ∧ s.server.info.use.ref = 2 ∧
      (s.server.info.clientList.map (fun c => c.use.ref)).sum = 2 := by
  have hrun : ∃ s, exec (guarded KeepsCounts (FileHandle.step fileServer false)) {} (writerCalledBack ++
      [.consist (.rpcReturn 1 .success), .consist (.relock 1), .consist (.consistReply 2 true),
        .consist (.repliesIn 1), .leave 1]) = some s ∧ s.server.panic = none ∧ s.server.info.use.ref = 2 ∧
      ∀ p, s.pc p = .idle ∧ (s.server.pc p).free = true := by
    refine ⟨_, rfl, rfl, rfl, fun p => ?_⟩
    match p with
    | 0 | 1 | _ + 2 => exact ⟨rfl, rfl⟩
  obtain ⟨s, he, hok, href, hpc⟩ := hrun
  have h := run_of_guarded _ {} s he
  have huses := uses_of_run fileServer false h hok (fun p => not_opening (hpc p).1 (hpc p).2)
  exact ⟨s, h, href, huses.1 ▸ href⟩

/-- Host 2 is down. It is taken off the list, and the handle still counts its open. -/
theorem dead_client_counted :
    ∃ s, Run (FileHandle.step fileServer false) (fun _ _ => True) {} s ∧ s.server.panic = none ∧
      (∀ p, ¬ s.opening p) ∧
      s.server.info.use.ref ≠ (s.server.info.clientList.map (fun c => c.use.ref)).sum ∧
      s.server.info.use.write ≠ (s.server.info.clientList.map (fun c => c.use.write)).sum := by
  have hrun : ∃ s, exec (FileHandle.step fileServer false) {} (writerCalledBack ++
      [.consist (.rpcReturn 1 .down), .consist (.relock 1), .leave 1]) = some s ∧ s.server.panic = none ∧
      s.server.info.use.ref ≠ (s.server.info.clientList.map (fun c => c.use.ref)).sum ∧
      s.server.info.use.write ≠ (s.server.info.clientList.map (fun c => c.use.write)).sum ∧
      ∀ p, s.pc p = .idle ∧ (s.server.pc p).free = true := by
    refine ⟨_, rfl, rfl, by decide, by decide, fun p => ?_⟩
    match p with
    | 0 | 1 | _ + 2 => exact ⟨rfl, rfl⟩
  obtain ⟨s, he, hok, href, hwrite, hpc⟩ := hrun
  exact ⟨s, run_of_exec _ {} s (fun _ _ => trivial) he, hok,
    fun p => not_opening (hpc p).1 (hpc p).2, href, hwrite⟩

end FileHandle

end SpriteKernel.Fsio.File
