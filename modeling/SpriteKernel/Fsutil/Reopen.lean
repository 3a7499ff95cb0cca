import SpriteKernel.Lib.Update
import SpriteKernel.Lib.Transition

/- Recovery of a client's handles (fsutilRecovery.c). The table has remote I/O handles and streams; scans pass over
   local ones. A scan skips a handle that somebody has locked, and maybe one that is installed meanwhile. -/
namespace SpriteKernel.Fsutil
open Function

/-- What a reopen, or a wait for one, returns. -/
inductive ReopenStatus where
  | success
  | rpcTimeout
  | rpcServiceDisabled
  | rpcInvalidRpc
  | fileRemoved
  | abortedBySignal
  | failure
  | other (status : Nat)
  deriving DecidableEq

/-- RPC_TIMEOUT and RPC_SERVICE_DISABLED: the server is gone again, and nothing is known. -/
def ReopenStatus.gone : ReopenStatus → Bool
  | rpcTimeout | rpcServiceDisabled => true
  | _ => false

/-- What has become of an I/O handle in a round. -/
inductive Attempt where
  | pending
  | skipped
  | replied (status : ReopenStatus)
  deriving DecidableEq

/-- `Fsrmt_IOHandle`, with RECOVERY_NEEDED, _COMPLETE and _FAILED, and FS_HANDLE_INVALID. History: its last round
    with its server. -/
structure RemoteHandle where
  serverID : Nat
  needed : Bool
  complete : Bool
  failed : Bool
  status : ReopenStatus
  invalid : Bool
  reopened : Attempt
  deriving DecidableEq

/-- What is used of `Fs_Stream`. Not the kernel's is `reopened`: the server has had it since its last round began. -/
structure StreamHandle where
  serverID : Nat
  ioHandle : Option Nat
  invalid : Bool
  reopened : Bool
  deriving DecidableEq

/-- Before ReopenHandles; its first scan, with the handles to come and those being reopened; the replies to a bulk
    reopen; both for streams; the last scan; afterwards. -/
inductive ReopenPhase where
  | starting
  | ioScan (bulk : Bool) (todo out : List Nat)
  | ioReply (status : ReopenStatus) (out : List Nat)
  | streamScan (bulk : Bool) (todo out : List Nat)
  | streamReply (status : ReopenStatus) (out : List Nat)
  | notifying (todo : List Nat)
  | finished
  deriving DecidableEq

structure ReopenRound where
  serverID : Nat
  phase : ReopenPhase
  deriving DecidableEq

/-- A process has marked a handle with Fsutil_WantRecovery; it was notified since, after a reopen that succeeded. -/
inductive Mark where
  | unmarked
  | wanted
  | served
  deriving DecidableEq

/-- `inProgress`: SRV_RECOV_IN_PROGRESS; `round`: what a process does in Fsutil_Reopen; `waiting`: the handle it
    waits for, and whether it was woken. History: the marks, and what RecoveryWait has returned. -/
structure Reopening where
  io : Nat → Option RemoteHandle
  ios : List Nat
  stream : Nat → Option StreamHandle
  streams : List Nat
  inProgress : Nat → Bool
  round : Nat → Option ReopenRound
  waiting : Nat → Option (Nat × Bool)
  mark : Nat → Nat → Mark
  returned : List (Nat × ReopenStatus × Mark)

namespace RemoteHandle

/-- `Fsutil_RecoveryInit`. -/
def init (serverID : Nat) : RemoteHandle := ⟨serverID, false, false, false, .success, false, .pending⟩

def recoveryComplete (x : RemoteHandle) (status : ReopenStatus) : RemoteHandle :=
  match status with
  | .rpcTimeout | .rpcServiceDisabled => { x with status := status, reopened := .replied status }
  | .success => { x with status := status, reopened := .replied status, complete := true }
  | _ => { x with status := status, reopened := .replied status, complete := true, failed := true }

/-- The reopen is left out, as nobody uses the handle: FS_RECOV_SKIP and FS_NO_REFERENCE. -/
def skipReopen (x : RemoteHandle) : RemoteHandle :=
  { x.recoveryComplete .success with reopened := .skipped }

/-- `RecoveryNotify`, and the handle is invalidated when its recovery has failed. -/
def recoveryNotify (x : RemoteHandle) : RemoteHandle :=
  { x with
    needed := x.needed && !x.complete
    complete := false
    invalid := x.invalid || x.failed }

/-- What `RecoveryWait` returns when it no longer waits. -/
def waitStatus (x : RemoteHandle) (signalled : Bool) : ReopenStatus :=
  if x.failed then x.status else if signalled then .abortedBySignal else .success

end RemoteHandle

namespace ReopenPhase

/-- A scan may come to a handle that is installed while it goes on. -/
def installIo (h : Nat) : ReopenPhase → ReopenPhase
  | ioScan bulk todo out => ioScan bulk (todo ++ [h]) out
  | notifying todo => notifying (todo ++ [h])
  | phase => phase

def installStream (a : Nat) : ReopenPhase → ReopenPhase
  | streamScan bulk todo out => streamScan bulk (todo ++ [a]) out
  | phase => phase

/-- The scan passes over a handle. -/
def pass (a : Nat) : ReopenPhase → ReopenPhase
  | ioScan bulk todo out => ioScan bulk (todo.erase a) out
  | streamScan bulk todo out => streamScan bulk (todo.erase a) out
  | notifying todo => notifying (todo.erase a)
  | phase => phase

/-- What the scan has yet to come to. -/
def todo : ReopenPhase → List Nat
  | ioScan _ todo _ | streamScan _ todo _ | notifying todo => todo
  | _ => []

end ReopenPhase

/-- The reopen is sent; the handle is removed or skipped; or a bulk set-up fails without a call. -/
inductive Setup where
  | sent
  | noHandle
  | skip
  | refused (status : ReopenStatus)
  deriving DecidableEq

inductive ReopenStep where
  | openIo (h serverID : Nat)
  | closeIo (h : Nat)
  | openStream (a h : Nat)
  | closeStream (a : Nat)
  | wantRecovery (q h : Nat)
  | wait (q h : Nat)
  | wakeup (q : Nat)
  | signal (q : Nat)
  | reopen (p serverID : Nat)
  | reopenHandles (p : Nat)
  | fastBoot (p : Nat)
  | reopenIo (p h : Nat) (setup : Setup)
  | reopenStream (p a : Nat) (status : ReopenStatus)
  | notify (p h : Nat)
  | skipLocked (p a : Nat)
  | endScan (p : Nat) (status : ReopenStatus)
  | reply (p : Nat) (status : ReopenStatus)
  | allReplied (p : Nat)
  | done (p : Nat)

namespace Reopening

def init : Reopening :=
  ⟨fun _ => none, [], fun _ => none, [], fun _ => false, fun _ => none, fun _ => none, fun _ _ => .unmarked, []⟩

variable (s : Reopening)

def setIo (h : Nat) (x : RemoteHandle) : Reopening := { s with io := update s.io h (some x) }

def setStream (a : Nat) (y : StreamHandle) : Reopening := { s with stream := update s.stream a (some y) }

def setPhase (p : Nat) (r : ReopenRound) (phase : ReopenPhase) : Reopening :=
  { s with round := update s.round p (some { r with phase := phase }) }

/-- A new handle; `Fsutil_RecoveryInit` has set it up. -/
def openIo (h serverID : Nat) : Option Reopening :=
  if (s.io h).isSome then none
  else some { s with
    io := update s.io h (some (.init serverID))
    ios := s.ios ++ [h]
    round := fun p => (s.round p).map fun r => { r with phase := r.phase.installIo h } }

/-- A stream refers to the handle: `recovery.use.ref` is not 0. -/
def inUse (h : Nat) : Bool := s.streams.any fun a => (s.stream a).any fun y => y.ioHandle == some h

def removeIo (h : Nat) : Reopening :=
  { s with
    io := update s.io h none
    ios := s.ios.erase h
    mark := fun q a => if a = h then .unmarked else s.mark q a }

/-- `Fsutil_RemoteHandleScavenge`. -/
def closeIo (h : Nat) : Option Reopening :=
  (s.io h).bind fun x => if x.needed || s.inUse h then none else some (s.removeIo h)

/-- A new stream; the server has just set it up, too. -/
def openStream (a h : Nat) : Option Reopening :=
  if (s.stream a).isSome then none
  else (s.io h).map fun x => { s with
    stream := update s.stream a (some ⟨x.serverID, some h, false, true⟩)
    streams := s.streams ++ [a]
    round := fun p => (s.round p).map fun r => { r with phase := r.phase.installStream a } }

def closeStream (a : Nat) : Reopening :=
  { s with stream := update s.stream a none, streams := s.streams.erase a }

def wantRecovery (q h : Nat) : Option Reopening :=
  (s.io h).map fun x => { s.setIo h { x with needed := true } with
    mark := fun p a => if p = q ∧ a = h then .wanted else s.mark p a }

def wakeUp (q h : Nat) (status : ReopenStatus) : Reopening :=
  { s with
    waiting := update s.waiting q none
    returned := (q, status, s.mark q h) :: s.returned }

/-- `Fsutil_WaitForRecovery`, as far as the wait in `RecoveryWait`. -/
def waitForRecovery (q h : Nat) : Option Reopening :=
  if (s.waiting q).isSome then none
  else (s.io h).map fun x =>
    if x.invalid then s.wakeUp q h .failure
    else if x.needed then { s with waiting := update s.waiting q (some (h, false)) }
    else s.wakeUp q h (x.waitStatus false)

/-- `RecoveryWait` goes on when its process was woken, or got a signal. -/
def recoveryWait (q : Nat) (signalled : Bool) : Option Reopening :=
  (s.waiting q).bind fun w => (s.io w.1).bind fun x =>
    if signalled then some (s.wakeUp q w.1 (x.waitStatus true))
    else if !w.2 then none
    else if x.needed then some { s with waiting := update s.waiting q (some (w.1, false)) }
    else some (s.wakeUp q w.1 (x.waitStatus false))

/-- `Fsutil_Reopen` begins, unless a round with the server is in progress. -/
def reopen (p serverID : Nat) : Option Reopening :=
  if (s.round p).isSome then none
  else if s.inProgress serverID then some s
  else some { s with
    inProgress := update s.inProgress serverID true
    round := update s.round p (some ⟨serverID, .starting⟩)
    io := fun h => (s.io h).map fun x => if x.serverID = serverID then { x with reopened := .pending } else x
    stream := fun a => (s.stream a).map fun y => if y.serverID = serverID then { y with reopened := false } else y }

/-- The first scan comes to an I/O handle. One single reopen at a time is out, or all of a bulk one. -/
def reopenIo (p h : Nat) (setup : Setup) : Option Reopening :=
  (s.round p).bind fun r => match r.phase with
    | .ioScan bulk todo out => (s.io h).bind fun x =>
      if h ∉ todo ∨ (bulk = false ∧ out ≠ []) then none
      else if x.serverID ≠ r.serverID ∨ x.invalid then some (s.setPhase p r (.ioScan bulk (todo.erase h) out))
      else match setup with
        | .sent => some (s.setPhase p r (.ioScan bulk (todo.erase h) (out ++ [h])))
        | .noHandle =>
          if x.needed || s.inUse h then none
          else some ((s.removeIo h).setPhase p r (.ioScan bulk (todo.erase h) out))
        | .skip => some ((s.setIo h x.skipReopen).setPhase p r (.ioScan bulk (todo.erase h) out))
        | .refused status =>
          if bulk && !status.gone then
            some ((s.setIo h (x.recoveryComplete status)).setPhase p r (.ioScan bulk (todo.erase h) out))
          else none
    | _ => none

def reopenStream (p a : Nat) (status : ReopenStatus) : Option Reopening :=
  (s.round p).bind fun r => match r.phase with
    | .streamScan bulk todo out => (s.stream a).bind fun y =>
      if a ∉ todo then none
      else if y.serverID ≠ r.serverID ∨ y.invalid then some (s.setPhase p r (.streamScan bulk (todo.erase a) out))
      else match y.ioHandle with
        | none => some (s.setPhase p r (.streamScan bulk (todo.erase a) out))
        | some h => (s.io h).bind fun x =>
          if x.failed then some ((s.setStream a { y with invalid := true }).setPhase p r (.streamScan bulk (todo.erase a) out))
          else if bulk then some (s.setPhase p r (.streamScan bulk (todo.erase a) (out ++ [a])))
          else if status = .success then
            some ((s.setStream a { y with reopened := true }).setPhase p r (.streamScan bulk (todo.erase a) out))
          else if status.gone then some (s.setPhase p r .finished)
          else some ((s.setStream a { y with invalid := true }).setPhase p r (.streamScan bulk (todo.erase a) out))
    | _ => none

/-- What there is of streams that refer to the handle has been reopened or has failed. -/
def settled (h : Nat) : Bool :=
  s.streams.all fun a => (s.stream a).all fun y => y.ioHandle != some h || y.invalid || y.reopened

/-- The last scan comes to a remote handle, whichever server it has. -/
def notify (p h : Nat) : Option Reopening :=
  (s.round p).bind fun r => match r.phase with
    | .notifying todo => (s.io h).bind fun x =>
      if h ∉ todo then none
      else if x.invalid then some (s.setPhase p r (.notifying (todo.erase h)))
      else some { (s.setIo h x.recoveryNotify).setPhase p r (.notifying (todo.erase h)) with
        waiting := fun q => (s.waiting q).map fun w => (w.1, w.2 || (x.complete && w.1 == h))
        mark := fun q a =>
          if a = h ∧ s.mark q h = .wanted ∧ x.complete ∧ x.serverID = r.serverID ∧ x.reopened = .replied .success ∧ s.settled h
          then .served else s.mark q a }
    | _ => none

/-- A handle is locked when the scan comes to it. -/
def skipLocked (p a : Nat) : Option Reopening :=
  (s.round p).bind fun r => if a ∈ r.phase.todo then some (s.setPhase p r (r.phase.pass a)) else none

/-- A scan is at its end; `status` is what the calls of the server for a bulk reopen return. -/
def endScan (p : Nat) (status : ReopenStatus) : Option Reopening :=
  (s.round p).bind fun r => match r.phase with
    | .ioScan bulk [] [] => some (s.setPhase p r (.streamScan bulk s.streams []))
    | .ioScan true [] out => some (s.setPhase p r (.ioReply status out))
    | .streamScan _ [] [] => some (s.setPhase p r (.notifying s.ios))
    | .streamScan _ [] out => some (s.setPhase p r (.streamReply status out))
    | .notifying [] => some (s.setPhase p r .finished)
    | _ => none

/-- `FinishReopenHandles` comes to a stream. -/
def finishStream (a : Nat) (y : StreamHandle) (status : ReopenStatus) : Reopening :=
  match status with
  | .rpcInvalidRpc | .rpcTimeout | .rpcServiceDisabled => s
  | .success => s.setStream a { y with reopened := true }
  | _ => s.setStream a { y with invalid := true }

/-- The reply to a reopen of an I/O handle, single or as `FinishReopenHandles` finds it: the server's status, unless
    the call failed. -/
def reply (p : Nat) (status : ReopenStatus) : Option Reopening :=
  (s.round p).bind fun r => match r.phase with
    | .ioScan false todo [h] => (s.io h).map fun x =>
      (s.setIo h (x.recoveryComplete status)).setPhase p r (if status.gone then .finished else .ioScan false todo [])
    | .ioReply called (h :: out) => (s.io h).map fun x =>
      let status := if called = .success then status else called
      if status = .rpcInvalidRpc then s.setPhase p r (.ioReply called out)
      else (s.setIo h (x.recoveryComplete status)).setPhase p r (.ioReply called out)
    | .streamReply called (a :: out) => (s.stream a).map fun y =>
      (s.finishStream a y (if called = .success then status else called)).setPhase p r (.streamReply called out)
    | _ => none

/-- A server that does not know of bulk reopens is sent single ones. -/
def allReplied (p : Nat) : Option Reopening :=
  (s.round p).bind fun r => match r.phase with
    | .ioReply .success [] => some (s.setPhase p r (.streamScan true s.streams []))
    | .ioReply .rpcInvalidRpc [] => some (s.setPhase p r (.ioScan false s.ios []))
    | .ioReply _ [] => some (s.setPhase p r .finished)
    | .streamReply .success [] => some (s.setPhase p r (.notifying s.ios))
    | .streamReply called [] => if called.gone then some (s.setPhase p r .finished) else none
    | _ => none

def done (p : Nat) : Option Reopening :=
  (s.round p).bind fun r =>
    if r.phase = .finished then
      some { s with inProgress := update s.inProgress r.serverID false, round := update s.round p none }
    else none

/-- `bulkHandles` is `recov_BulkHandles`; server 53 alone is sent bulk reopens. -/
def step (bulkHandles : Bool) (s : Reopening) : ReopenStep → Option Reopening
  | .openIo h serverID => s.openIo h serverID
  | .closeIo h => s.closeIo h
  | .openStream a h => s.openStream a h
  | .closeStream a => some (s.closeStream a)
  | .wantRecovery q h => s.wantRecovery q h
  | .wait q h => s.waitForRecovery q h
  | .wakeup q => s.recoveryWait q false
  | .signal q => s.recoveryWait q true
  | .reopen p serverID => s.reopen p serverID
  | .reopenHandles p => (s.round p).bind fun r =>
    if r.phase = .starting then some (s.setPhase p r (.ioScan (bulkHandles && r.serverID == 53) s.ios [])) else none
  | .fastBoot p => (s.round p).bind fun r =>
    if r.phase = .starting then some (s.setPhase p r .finished) else none
  | .reopenIo p h setup => s.reopenIo p h setup
  | .reopenStream p a status => s.reopenStream p a status
  | .notify p h => s.notify p h
  | .skipLocked p a => s.skipLocked p a
  | .endScan p status => s.endScan p status
  | .reply p status => s.reply p status
  | .allReplied p => s.allReplied p
  | .done p => s.done p

end Reopening
end SpriteKernel.Fsutil
