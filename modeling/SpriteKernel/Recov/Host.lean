import SpriteKernel.Lib.Transition

/- What a kernel knows of one other host (recovery.c): the bits of its state, and its call-back rounds scheduled or
   running. Every routine holds the monitor lock from where it begins, or is woken, to where it sleeps or returns. -/
namespace SpriteKernel.Recov

/-- The bits of `hostPtr->state`. -/
structure HostFlags where
  alive : Bool
  dead : Bool
  booting : Bool
  failure : Bool
  crashCallBacks : Bool
  wantRecovery : Bool
  pingingHost : Bool
  rebootCallBacks : Bool
  fastBoot : Bool
  serverDriven : Bool
  deriving DecidableEq

def HostFlags.unknown : HostFlags := ⟨false, false, false, false, false, false, false, false, false, false⟩

structure NotifyElement where
  proc : Nat
  data : Nat
  refCount : Int
  deriving DecidableEq

structure RecovHostState where
  flags : HostFlags
  bootID : UInt32
  time : Nat
  rebootList : List NotifyElement
  numFailures : Nat
  deriving DecidableEq

/-- `RECOV_INIT_HOST`. -/
def RecovHostState.init (flags : HostFlags) (bootID : UInt32) : RecovHostState := ⟨flags, bootID, 0, [], 0⟩

/-- An invocation of `CrashCallBacks`, with the number of the detection it was scheduled for. -/
structure CrashRound where
  detection : Nat
  running : Bool
  deriving DecidableEq

/-- An invocation of `RecovRebootCallBacks`; once it runs it has its copy of the reboot list. -/
inductive RebootRound where
  | pending
  | running (notifyList : List (Nat × Nat))
  deriving DecidableEq

/-- What a message says to `Recov_HostAlive`; `recovType` is two bits. -/
structure AliveArgs where
  bootID : UInt32
  asyncRecovery : Bool
  rpcNotActive : Bool
  fastBoot : Bool
  serverDriven : Bool
  deriving DecidableEq

/-- A process that sleeps on `hostPtr->recovery`. -/
structure Sleeper where
  args : AliveArgs
  woken : Bool
  deriving DecidableEq

inductive RecovEvent where
  | crash
  | began
  | ended (failed : Bool)
  deriving DecidableEq

/-- History: `unexpected`, the default branch of Recov_HostAlive; `crashes` detected; `served`, their number at its
    last synchronous return; `log`, the latest event first; `balance`, registrations less unregistrations. -/
structure Peer where
  host : Option RecovHostState
  crashRounds : List CrashRound
  rebootRounds : List RebootRound
  sleepers : List Sleeper
  unexpected : Bool
  detections : Nat
  served : Nat
  log : List RecovEvent
  balance : Nat → Nat → Nat

def Peer.init : Peer := ⟨none, [], [], [], false, 0, 0, [], fun _ _ => 0⟩

namespace Peer
variable (p : Peer)

def flags : HostFlags := (p.host.map RecovHostState.flags).getD .unknown

def rebootList : List NotifyElement := (p.host.map RecovHostState.rebootList).getD []

def setFlags (f : HostFlags) : Peer := { p with host := p.host.map fun h => { h with flags := f } }

def setRebootList (l : List NotifyElement) : Peer :=
  { p with host := p.host.map fun h => { h with rebootList := l } }

/-- `Hash_Find`, where a host that is not known yet is set up with the state given. -/
def find (flags : HostFlags) (bootID : UInt32) : Peer := { p with host := some (p.host.getD (.init flags bootID)) }

def crashDetected : Peer := { p with detections := p.detections + 1, log := .crash :: p.log }

/-- `Proc_CallFunc(CrashCallBacks, spriteID, 0)`. -/
def callCrashCallBacks : Peer := { p with crashRounds := p.crashRounds ++ [⟨p.detections, false⟩] }

/-- `Proc_CallFunc(RecovRebootCallBacks, spriteID, 0)`. -/
def callRebootCallBacks : Peer := { p with rebootRounds := p.rebootRounds ++ [.pending] }

/-- The changed boot time stamp of a host that is thought to be up. -/
def crashUndetected : Peer :=
  let f := { p.flags with alive := false, dead := false, booting := true }
  if f.crashCallBacks then p.crashDetected.setFlags f
  else (p.crashDetected.setFlags { f with crashCallBacks := true }).callCrashCallBacks

def heard (bootID : UInt32) (now : Nat) : Peer :=
  let p := p.find { HostFlags.unknown with alive := true } bootID
  let stamped : Peer := { p with host := p.host.map fun h => { h with time := now, bootID := bootID } }
  if (p.host.map RecovHostState.bootID) = some bootID then stamped
  else if p.flags.alive || p.flags.booting then stamped.crashUndetected
  else stamped

/-- The switch of Recov_HostAlive. -/
def upDown (rpcNotActive : Bool) : Peer :=
  let f := p.flags
  match f.alive, f.booting, f.dead with
  | false, false, false =>
    if rpcNotActive then p.setFlags { f with booting := true } else p.setFlags { f with alive := true }
  | true, false, false => p
  | false, true, false =>
    if rpcNotActive then p else p.setFlags { f with booting := false, alive := true, wantRecovery := true }
  | false, false, true =>
    if rpcNotActive then p.setFlags { f with booting := true, dead := false }
    else p.setFlags { f with alive := true, wantRecovery := true, dead := false }
  | _, _, _ => { p with unexpected := true }

def initiateReboot : Peer :=
  let f := p.flags
  if f.wantRecovery && f.alive && !f.rebootCallBacks then
    (p.setFlags { f with wantRecovery := false, rebootCallBacks := true }).callRebootCallBacks
  else p

/-- A server process goes on to serve the request. -/
def returned (a : AliveArgs) : Peer := if a.asyncRecovery then p else { p with served := p.detections }

/-- Recov_HostAlive behind its wait. -/
def markUp (a : AliveArgs) : Peer :=
  let p := p.upDown a.rpcNotActive
  (p.setFlags { p.flags with fastBoot := a.fastBoot, serverDriven := a.serverDriven }).initiateReboot

/-- Servers are blocked until the crash recovery actions are complete. -/
def awaitCrashRecovery (a : AliveArgs) : Peer :=
  if !a.asyncRecovery && p.flags.crashCallBacks then { p with sleepers := p.sleepers ++ [⟨a, false⟩] }
  else (p.markUp a).returned a

/-- `Recov_HostAlive`, of a host that is not the broadcast address. -/
def hostAlive (a : AliveArgs) (now : Nat) (shuttingDown : Bool) : Peer :=
  if a.bootID == 0 || shuttingDown then p.returned a
  else
    let rebooted := (p.host.map RecovHostState.bootID).getD a.bootID != a.bootID
    let p := p.heard a.bootID now
    if !rebooted && !(p.flags.crashCallBacks || p.flags.wantRecovery) && p.flags.alive then p.returned a
    else p.awaitCrashRecovery a

/-- A process that was woken in Recov_HostAlive looks again, or exits. -/
def wake (i : Nat) (shuttingDown : Bool) : Option Peer :=
  match p.sleepers[i]? with
  | some ⟨a, true⟩ =>
    let p : Peer := { p with sleepers := p.sleepers.eraseIdx i }
    some (if shuttingDown then p else p.awaitCrashRecovery a)
  | _ => none

def hostDead : Peer :=
  match p.host with
  | none => (p.find { HostFlags.unknown with dead := true } 0).crashDetected
  | some h =>
    let f := h.flags
    match f.alive, f.booting, f.dead with
    | false, false, false | false, true, false | true, false, false =>
      let f := { f with alive := false, booting := false, failure := f.failure || f.rebootCallBacks }
      (p.crashDetected.setFlags { f with dead := true, crashCallBacks := true }).callCrashCallBacks
    | _, _, _ => p

/-- `CrashCallBacks` begins to run. -/
def crashBegin (i : Nat) : Option Peer :=
  match p.crashRounds[i]? with
  | some ⟨n, false⟩ => some { p with crashRounds := p.crashRounds.set i ⟨n, true⟩ }
  | _ => none

/-- `MarkRecoveryComplete`, when the call-backs have been made. -/
def markRecoveryComplete (i : Nat) : Option Peer :=
  match p.crashRounds[i]? with
  | some ⟨_, true⟩ =>
    let p : Peer := { p with crashRounds := p.crashRounds.eraseIdx i }
    let p : Peer := { p with sleepers := p.sleepers.map fun w => { w with woken := true } }
    some (p.setFlags { p.flags with crashCallBacks := false })
  | _ => none

def getRebootList (i : Nat) : Option Peer :=
  match p.rebootRounds[i]? with
  | some .pending =>
    some { p with
      rebootRounds := p.rebootRounds.set i (.running (p.rebootList.map fun e => (e.proc, e.data)))
      log := .began :: p.log }
  | _ => none

def callBacksDone (i : Nat) : Option Peer :=
  match p.rebootRounds[i]? with
  | some (.running _) =>
    let f := { p.flags with rebootCallBacks := false }
    let p : Peer := { p with rebootRounds := p.rebootRounds.eraseIdx i, log := .ended f.failure :: p.log }
    let failures := fun n => if f.failure then n + 1 else 0
    let p : Peer := { p with host := p.host.map fun h => { h with numFailures := failures h.numFailures } }
    some (if f.failure then p.setFlags { f with failure := false, wantRecovery := true } else p.setFlags f)
  | _ => none

end Peer

def NotifyElement.isFor (e : NotifyElement) (proc data : Nat) : Bool := e.proc == proc && e.data == data

/-- The reference count of the first matching element goes up. -/
def addRef (proc data : Nat) : List NotifyElement → List NotifyElement
  | [] => []
  | e :: l => if e.isFor proc data then { e with refCount := e.refCount + 1 } :: l else e :: addRef proc data l

/-- It goes down, and the element off the list when none is left. -/
def dropRef (proc data : Nat) : List NotifyElement → List NotifyElement
  | [] => []
  | e :: l =>
    if e.isFor proc data then if e.refCount - 1 ≤ 0 then l else { e with refCount := e.refCount - 1 } :: l
    else e :: dropRef proc data l

namespace Peer
variable (p : Peer)

def rebootRegister (proc data : Nat) : Peer :=
  let p := p.find .unknown 0
  let found := p.rebootList.any fun e => e.isFor proc data
  let p := p.setRebootList (if found then addRef proc data p.rebootList else ⟨proc, data, 1⟩ :: p.rebootList)
  let p : Peer := { p with balance := fun a b => if a = proc ∧ b = data then p.balance a b + 1 else p.balance a b }
  p.setFlags { p.flags with pingingHost := true }

def rebootUnRegister (proc data : Nat) : Peer :=
  let p := p.find .unknown 0
  let p := p.setRebootList (dropRef proc data p.rebootList)
  { p with balance := fun a b => if a = proc ∧ b = data then p.balance a b - 1 else p.balance a b }

/-- `RecovCheckHost`; times are in seconds. -/
def checkHost (now : Nat) : Int × Peer :=
  let check : Int :=
    match p.host with
    | none => -1
    | some h =>
      if h.rebootList.isEmpty then -1
      else if h.flags.alive || h.flags.booting then if now - h.time > 10 then 1 else 0
      else if h.flags.dead then 1
      else -1
  (check, if check < 0 then p.setFlags { p.flags with pingingHost := false } else p)

end Peer
end SpriteKernel.Recov
