import Mathlib.Logic.Function.Basic
import SpriteKernel.Rpc.Server

/- The table of server processes: finding one for a packet and giving an entry to a process (rpcDaemon.c), the loop
   of a server process and the reclaiming of idle ones (rpcServer.c). Each definition is what is done under one lock,
   `serverMutex` or the server's mutex. -/
namespace SpriteKernel.Rpc

open List

/-- `rpcServerPtrPtr`, of which the first `rpcNumServers` entries are made. -/
structure ServerTable where
  servers : Nat → RpcServerState
  rpcNumServers : Nat

def ServerTable.set (t : ServerTable) (i : Nat) (srv : RpcServerState) : ServerTable :=
  { t with servers := Function.update t.servers i srv }

/-- The header of a buffer that `RpcBufferInit` prepares. -/
def rpcBufferInit (host : Host) (spriteID channel serverHint : Int) (hdr : RpcHdr) : RpcHdr :=
  { hdr with
    version := host.nativeVersion
    delay := host.myDelay
    clientID := spriteID
    channel := channel
    serverID := spriteID
    serverHint := serverHint
    numFrags := 0
    fragMask := 0
    paramSize := 0
    dataSize := 0 }

/-- `RpcInitServerState`, in memory that holds anything. -/
def rpcInitServerState (host : Host) (spriteID : Int) (memory : RpcServerState) (index : Nat) : RpcServerState :=
  { memory with
    state := srvNotReady
    ID := 0
    index := index
    clientID := -1
    channel := -1
    replyRpcHdr := rpcBufferInit host spriteID (-1) index memory.replyRpcHdr
    reply := { memory.reply with paramLength := 0, dataLength := 0 }
    request :=
      { memory.request with
        rpcHdr := rpcBufferInit host spriteID (-1) index memory.request.rpcHdr
        paramLength := maxParamSize
        dataLength := maxDataSize }
    actualParamSize := 0
    actualDataSize := 0 }

/-- `Rpc_CreateServer`, as far as the table goes. -/
def ServerTable.create (host : Host) (spriteID : Int) (t : ServerTable) (memory : RpcServerState) : ServerTable :=
  { t.set t.rpcNumServers (rpcInitServerState host spriteID memory t.rpcNumServers) with
    rpcNumServers := t.rpcNumServers + 1 }

/-- The order in which `RpcServerAlloc` looks at the servers, from the client's hint on. -/
def ServerTable.order (t : ServerTable) (h : RpcHdr) : List Nat :=
  let startIndex := if h.serverHint < 0 ∨ h.serverHint ≥ t.rpcNumServers then 0 else h.serverHint.toNat
  (List.range t.rpcNumServers).map (fun i => (startIndex + i) % t.rpcNumServers)

/-- A server that is bound to the packet's client and channel, and not stuck. -/
def RpcServerState.Matches (srv : RpcServerState) (h : RpcHdr) : Prop :=
  srv.state.stuck = false ∧ srv.clientID = h.clientID ∧ srv.channel = h.channel

instance (srv : RpcServerState) (h : RpcHdr) : Decidable (srv.Matches h) := inferInstanceAs (Decidable (_ ∧ _))

/-- A server that may be given to a new client. -/
def RpcServerState.Available (srv : RpcServerState) : Prop := srv.state.stuck = false ∧ srv.state.free = true

instance (srv : RpcServerState) : Decidable srv.Available := inferInstanceAs (Decidable (_ ∧ _))

/-- The server for a packet, and whether it is reassigned. -/
inductive Found where
  | bound (i : Nat)
  | reassigned (i : Nat)
  | none
  deriving DecidableEq

/-- The search of `RpcServerAlloc`: a server bound to the client comes before any free
    one, wherever it stands. -/
def ServerTable.search (t : ServerTable) (h : RpcHdr) : Found :=
  match (t.order h).find? (fun i => (t.servers i).Matches h) with
  | some i => .bound i
  | none =>
    match (t.order h).find? (fun i => (t.servers i).Available) with
    | some i => .reassigned i
    | none => .none

def RpcServerState.clearFree (srv : RpcServerState) : RpcServerState :=
  { srv with state := { srv.state with free := false } }

def RpcServerState.reassign (srv : RpcServerState) (h : RpcHdr) : RpcServerState :=
  { srv.clearFree with clientID := h.clientID, channel := h.channel }

def rpcServerAlloc (t : ServerTable) (h : RpcHdr) : Option (Nat × ServerTable) :=
  match t.search h with
  | .bound i => some (i, t.set i (t.servers i).clearFree)
  | .reassigned i => some (i, t.set i ((t.servers i).reassign h))
  | .none => none

/-- The entry that `RpcServerInstall` takes. -/
def ServerTable.notReady (t : ServerTable) : Option Nat :=
  (List.range t.rpcNumServers).find? (fun i => (t.servers i).state = srvNotReady)

def rpcServerInstall (t : ServerTable) : Option (Nat × ServerTable) :=
  t.notReady.map (fun i => (i, t.set i { t.servers i with state := srvFree }))

def rpcCrashCallBack (t : ServerTable) (clientID : Int) : ServerTable :=
  { t with
    servers := fun i =>
      let srv := t.servers i
      if i < t.rpcNumServers ∧ srv.state.busy ∧ srv.clientID = clientID then
        { srv with state := { srv.state with stuck := true } }
      else srv }

/-- What `RpcReclaimServers` does to a server, and whether it probes the client: `serversMaxed` makes it probe at
    once. -/
def RpcServerState.reclaim (maxServerAge : Nat) (serversMaxed : Bool) (srv : RpcServerState) : RpcServerState × Bool :=
  if srv.clientID ≥ 0 ∧ srv.state.waiting then
    if srv.state.noReply then ({ srv with state := { srvFree with noReply := true } }, false)
    else if srv.state.aging = false then
      ({ srv with state := { srv.state with aging := true }, age := 1 }, serversMaxed)
    else if srv.age + 1 ≥ maxServerAge then ({ srv with age := srv.age + 1, state := srvFree }, false)
    else ({ srv with age := srv.age + 1 }, true)
  else (srv, false)

/-- The top of the loop of `Rpc_Server`: the process is ready for input. -/
def RpcServerState.loopTop (noReply : Bool) (srv : RpcServerState) : RpcServerState :=
  { srv with
    state := { srv.state with
      busy := false, stuck := false, waiting := true, noReply := srv.state.noReply || noReply } }

/-- The process has seen that it is busy. -/
def RpcServerState.handOff (srv : RpcServerState) : RpcServerState :=
  { srv with state := { srv.state with noReply := false } }

/-! What can be found. -/

theorem mem_order {t : ServerTable} {h : RpcHdr} {i : Nat} (hi : i ∈ t.order h) : i < t.rpcNumServers := by
  obtain ⟨j, hj, rfl⟩ := mem_map.mp hi
  exact Nat.mod_lt _ (Nat.zero_lt_of_lt (mem_range.mp hj))

theorem search_cases (t : ServerTable) (h : RpcHdr) :
    (∃ i, t.search h = .bound i ∧ i < t.rpcNumServers ∧ (t.servers i).Matches h) ∨
    (∃ i, t.search h = .reassigned i ∧ i < t.rpcNumServers ∧ (t.servers i).Available) ∨ t.search h = .none := by
  rw [ServerTable.search]
  cases hbound : (t.order h).find? (fun i => (t.servers i).Matches h) with
  | some i =>
    exact .inl ⟨i, rfl, mem_order (mem_of_find?_eq_some hbound), by simpa using List.find?_some hbound⟩
  | none =>
    cases hfree : (t.order h).find? (fun i => (t.servers i).Available) with
    | some i =>
      exact .inr (.inl ⟨i, rfl, mem_order (mem_of_find?_eq_some hfree), by simpa using List.find?_some hfree⟩)
    | none => exact .inr (.inr rfl)

theorem notReady_some {t : ServerTable} {i : Nat} (h : t.notReady = some i) :
    i < t.rpcNumServers ∧ (t.servers i).state = srvNotReady := by
  exact ⟨mem_range.mp (mem_of_find?_eq_some h), by simpa using List.find?_some h⟩

end SpriteKernel.Rpc
