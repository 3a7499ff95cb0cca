import Mathlib.Logic.Function.Basic
import SpriteKernel.Recov.Host

/- The recovery module as a whole: messages from and time-outs of any host in any order, the
   call-back rounds that server processes carry out meanwhile, registrations, and `Recov_Proc`,
   which pings the hosts on its list (recovProc.c). -/
namespace SpriteKernel.Recov
open Transition

/-- What happens to one host; `i` says which of its sleepers or rounds goes on. `noTimeouts` is
    `rpc_NoTimeouts`. -/
inductive PeerStep where
  | hostAlive (a : AliveArgs) (now : Nat)
  | wake (i : Nat)
  | hostDead (noTimeouts : Bool)
  | crashBegin (i : Nat)
  | markRecoveryComplete (i : Nat)
  | getRebootList (i : Nat)
  | callBacksDone (i : Nat)
  | rebootRegister (proc data : Nat)
  | rebootUnRegister (proc data : Nat)
  | checkHost (now : Nat)

def Peer.step (p : Peer) (shuttingDown : Bool) : PeerStep → Option Peer
  | .hostAlive a now => some (p.hostAlive a now shuttingDown)
  | .wake i => p.wake i shuttingDown
  | .hostDead noTimeouts => some (if noTimeouts then p else p.hostDead)
  | .crashBegin i => p.crashBegin i
  | .markRecoveryComplete i => p.markRecoveryComplete i
  | .getRebootList i => p.getRebootList i
  | .callBacksDone i => p.callBacksDone i
  | .rebootRegister proc data => some (p.rebootRegister proc data)
  | .rebootUnRegister proc data => some (p.rebootUnRegister proc data)
  | .checkHost now => some (p.checkHost now).2

structure RecovPing where
  spriteID : Nat
  active : Bool
  deriving DecidableEq

/-- Where `Recov_Proc` is; an entry of the ping list never moves, so its place stands for `pingPtr`. -/
inductive ProcAt where
  | waiting
  | check (i : Nat)
  | deactivate (i : Nat)
  | next (i : Nat)
  deriving DecidableEq

structure HostTable where
  peers : Nat → Peer
  pingList : List RecovPing
  numHostsPinged : Int
  proc : ProcAt
  shuttingDown : Bool

def HostTable.init : HostTable := ⟨fun _ => .init, [], 0, .waiting, false⟩

/-- `NET_BROADCAST_HOSTID` and `rpc_SpriteID`. -/
structure RecovParams where
  broadcastHostID : Nat
  spriteID : Nat

namespace HostTable
variable (s : HostTable)

def setPeer (h : Nat) (p : Peer) : HostTable := { s with peers := Function.update s.peers h p }

/-- The first entry of a host is made active; `none` if there is no entry. -/
def activate (h : Nat) : List RecovPing → Option (List RecovPing × Int)
  | [] => none
  | e :: l =>
    if e.spriteID = h then some ({ e with active := true } :: l, if e.active then 0 else 1)
    else (activate h l).map fun r => (e :: r.1, r.2)

def addHostToPing (h : Nat) : HostTable :=
  match activate h s.pingList with
  | some (l, d) => { s with pingList := l, numHostsPinged := s.numHostsPinged + d }
  | none => { s with pingList := s.pingList ++ [⟨h, true⟩], numHostsPinged := s.numHostsPinged + 1 }

def deactivate (i : Nat) : HostTable :=
  match s.pingList[i]? with
  | some ⟨h, true⟩ => { s with pingList := s.pingList.set i ⟨h, false⟩, numHostsPinged := s.numHostsPinged - 1 }
  | _ => s

/-- Something happens to one host. -/
def onPeer (h : Nat) (l : PeerStep) : Option HostTable := ((s.peers h).step s.shuttingDown l).map (s.setPeer h)

end HostTable

/-- A registration takes the monitor of the ping list inside that of the hosts, so it is one step. -/
inductive RecovStep where
  | host (h : Nat) (l : PeerStep)
  | rebootRegister (h proc data : Nat)
  | firstHostToCheck
  | checkHost (now : Nat)
  | deactivate
  | nextHostToCheck
  | shutDown

namespace HostTable
variable (P : RecovParams) (s t : HostTable) {l : RecovStep}

/-- A host that call-backs can be registered for. -/
def validHost (h : Nat) : Bool := h != 0 && h != P.spriteID

/-- What can happen to a host: the broadcast address is not tracked, and only `Recov_Proc` checks hosts. -/
def happens (h : Nat) : PeerStep → Bool
  | .hostAlive _ _ | .hostDead _ => h != P.broadcastHostID
  | .rebootUnRegister _ _ => validHost P h
  | .rebootRegister _ _ | .checkHost _ => false
  | .wake _ | .crashBegin _ | .markRecoveryComplete _ | .getRebootList _ | .callBacksDone _ => true

def hostAt (i : Nat) : ProcAt := if i < s.pingList.length then .check i else .waiting

def step (s : HostTable) : RecovStep → Option HostTable
  | .host h l => if happens P h l then s.onPeer h l else none
  | .rebootRegister h proc data =>
    if validHost P h then (s.onPeer h (.rebootRegister proc data)).map fun t => t.addHostToPing h else none
  | .firstHostToCheck => if s.proc = .waiting ∧ !s.shuttingDown then some { s with proc := s.hostAt 0 } else none
  | .checkHost now =>
    match s.proc with
    | .check i =>
      (s.pingList[i]?).bind fun e => (s.onPeer e.spriteID (.checkHost now)).map fun t =>
        { t with proc := if ((s.peers e.spriteID).checkHost now).1 < 0 then .deactivate i else .next i }
    | _ => none
  | .deactivate =>
    match s.proc with
    | .deactivate i => some { s.deactivate i with proc := .next i }
    | _ => none
  | .nextHostToCheck =>
    match s.proc with
    | .next i => some { s with proc := s.hostAt (i + 1) }
    | _ => none
  | .shutDown => some { s with shuttingDown := true }

/-- The host that a step is about, and what happens to it. -/
def event : RecovStep → Option (Nat × PeerStep)
  | .host h l => some (h, l)
  | .rebootRegister h proc data => some (h, .rebootRegister proc data)
  | .checkHost now =>
    match s.proc with
    | .check i => (s.pingList[i]?).map fun e => (e.spriteID, .checkHost now)
    | _ => none
  | .firstHostToCheck | .deactivate | .nextHostToCheck | .shutDown => none

variable {P s t}

@[simp] theorem peers_addHostToPing (h : Nat) : (s.addHostToPing h).peers = s.peers := by
  unfold addHostToPing
  split <;> rfl

@[simp] theorem peers_deactivate (i : Nat) : (s.deactivate i).peers = s.peers := by
  unfold deactivate
  split <;> rfl

theorem onPeer_peers {h : Nat} {l : PeerStep} (ho : s.onPeer h l = some t) :
    (s.peers h).step s.shuttingDown l = some (t.peers h) ∧ ∀ g, g ≠ h → t.peers g = s.peers g := by
  obtain ⟨q, hq, rfl⟩ := Option.map_eq_some_iff.1 ho
  refine ⟨?_, fun g hg => Function.update_of_ne hg _ _⟩
  rw [hq]
  exact congrArg some (Function.update_self h q s.peers).symm

theorem step_peer (hs : step P s l = some t) (h : Nat) : t.peers h = s.peers h ∨
      ∃ pl, s.event l = some (h, pl) ∧ (s.peers h).step s.shuttingDown pl = some (t.peers h) := by
  have honly : ∀ (u : HostTable) (g : Nat) (pl : PeerStep), s.onPeer g pl = some u → s.event l = some (g, pl) →
      u.peers = t.peers → t.peers h = s.peers h ∨
        ∃ pl, s.event l = some (h, pl) ∧ (s.peers h).step s.shuttingDown pl = some (t.peers h) := by
    intro u g pl hu he ht
    obtain ⟨hself, hother⟩ := onPeer_peers hu
    rw [← ht]
    by_cases hg : h = g
    · subst hg
      exact .inr ⟨pl, he, hself⟩
    · exact .inl (hother h hg)
  cases l with
  | host g pl =>
    simp only [step] at hs
    split at hs
    · exact honly t g pl hs rfl rfl
    · cases hs
  | rebootRegister g proc data =>
    simp only [step] at hs
    split at hs
    · obtain ⟨u, hu, rfl⟩ := Option.map_eq_some_iff.1 hs
      exact honly u g _ hu rfl (peers_addHostToPing g).symm
    · cases hs
  | checkHost now =>
    simp only [step] at hs
    split at hs
    · next i hi =>
      obtain ⟨e, he, hs⟩ := Option.bind_eq_some_iff.1 hs
      obtain ⟨u, hu, rfl⟩ := Option.map_eq_some_iff.1 hs
      refine honly u e.spriteID _ hu ?_ rfl
      simp only [event, hi, he, Option.map_some]
    · cases hs
  | firstHostToCheck =>
    simp only [step] at hs
    split at hs
    · exact .inl (by rw [← Option.some.inj hs])
    · cases hs
  | deactivate =>
    simp only [step] at hs
    split at hs
    · cases hs
      exact .inl (by rw [peers_deactivate])
    · cases hs
  | nextHostToCheck =>
    simp only [step] at hs
    split at hs
    · exact .inl (by rw [← Option.some.inj hs])
    · cases hs
  | shutDown => exact .inl (by rw [← Option.some.inj hs])

theorem step_keeps {C : Peer → Bool → PeerStep → Prop} {I : Peer → Prop}
    (keeps : ∀ p shut l q, I p → C p shut l → p.step shut l = some q → I q)
    (hi : ∀ h, I (s.peers h)) (hc : ∀ h pl, s.event l = some (h, pl) → C (s.peers h) s.shuttingDown pl)
    (hs : step P s l = some t) (h : Nat) : I (t.peers h) := by
  obtain he | ⟨pl, he, hp⟩ := step_peer hs h
  · rw [he]
    exact hi h
  · exact keeps _ _ pl _ (hi h) (hc h pl he) hp

end HostTable
end SpriteKernel.Recov
