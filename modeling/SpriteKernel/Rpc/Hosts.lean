import SpriteKernel.Rpc.CallStep
import SpriteKernel.Rpc.ServerOwners

/- A server host and its clients. The server's steps are those of `OwnerSystem`, but that a packet is matched and
   given to `RpcServerDispatch` in one, as interrupts are off. A link brings a client's packets in the order they
   were sent in; it loses some, and brings one again before the next. What a server sends may arrive never, once or
   more often, in any order. -/
namespace SpriteKernel.Rpc
open Function
open Machine Transition

/-- A host as a client: its channels, each with the process that uses it, and `rpcID`. -/
structure ClientHost where
  calls : Nat → ClientCall
  rpcID : Nat

/-- The server host, its boot and routes; of each client its calls' configuration, its boot and its number of
    channels. -/
structure NetConfig where
  server : ServerConfig
  bootID : Nat
  route : Int → Option Nat
  client : Int → CallConfig
  clientBootID : Int → Nat
  rpcNumChannels : Int → Nat

def NetConfig.reply (cfg : NetConfig) : ReplyConfig where
  host := cfg.server.host
  self := ⟨cfg.server.spriteID, cfg.bootID⟩
  route := cfg.route

/-- `requests` lists the messages of the calls set up, `handed` the server processes as woken up for a request. -/
structure NetSystem where
  server : OwnerSystem
  clients : Int → ClientHost
  toServer : Int → List Packet
  toClient : Int → List Packet
  requests : List (RpcHdr × Message)
  handed : List RpcServerState

inductive NetLabel where
  | setup (c : Int) (ch : Nat) (serverID command : Int) (storage : RpcStorage)
  | elsewhere (c : Int)
  | go (c : Int) (ch : Nat)
  | timeout (c : Int) (ch : Nat)
  | free (c : Int) (ch : Nat)
  | clientReceive (c : Int) (k : Nat)
  | serverReceive (c : Int) (again held nack : Bool)
  | lose (c : Int)
  | host (l : OwnerLabel)
  | reply (pid : Nat) (error : Int) (storage : Message)
  | errorReply (pid : Nat) (error : Int)

/-- The channels of a client after `Rpc_Init`, in memory that holds anything. -/
def ClientHost.initial (host : Host) (spriteID : Int) (memory : Nat → RpcClientChannel) : ClientHost where
  calls := fun ch =>
    ⟨{ memory ch with
      index := ch
      state := chanFree
      serverID := -1
      requestRpcHdr := rpcBufferInit host spriteID ch (-1) (memory ch).requestRpcHdr
      reply := { (memory ch).reply with rpcHdr := rpcBufferInit host spriteID ch (-1) (memory ch).reply.rpcHdr } }, .idle⟩
  rpcID := 1

def NetSystem.initial (cfg : NetConfig) (servers : Nat → RpcServerState) (channels : Int → Nat → RpcClientChannel) :
    NetSystem where
  server := OwnerSystem.initial servers
  clients := fun c => ClientHost.initial (cfg.client c).host c (channels c)
  toServer := fun _ => []
  toClient := fun _ => []
  requests := []
  handed := []

def ClientHost.setCall (h : ClientHost) (ch : Nat) (call : ClientCall) : ClientHost :=
  { h with calls := update h.calls ch call }

def NetSystem.setClient (s : NetSystem) (c : Int) (h : ClientHost) : NetSystem :=
  { s with clients := update s.clients c h }

def NetSystem.toHost (s : NetSystem) (c : Int) (packets : List Packet) : NetSystem :=
  { s with toServer := update s.toServer c (s.toServer c ++ packets) }

/-- The server host sends packets, each to the client it names. -/
def NetSystem.send (s : NetSystem) (packets : List Packet) : NetSystem :=
  { s with toClient := fun c => s.toClient c ++ packets.filter (fun p => p.hdr.clientID = c) }

def NetSystem.setServer (s : NetSystem) (i : Nat) (srv : RpcServerState) : NetSystem :=
  { s with server := { s.server with table := s.server.table.set i srv } }

/-- `RpcChanAlloc` has given a channel, and `RpcSetup` makes a request of it. -/
def ClientHost.setup (self : Self) (serverID command : Int) (storage : RpcStorage) (ch : Nat) (h : ClientHost) :
    ClientHost :=
  { h.setCall ch ⟨rpcSetup self serverID command storage h.rpcID { (h.calls ch).chan with state := chanBusy }, .ready⟩
    with rpcID := uint32 (h.rpcID + 1) }

/-- `RpcChanClose` of a channel that is not busy: the acknowledgment it sends. -/
def closePackets (cfg : NetConfig) (c : Int) (ch : Nat) (p : Packet) : List Packet :=
  outputPackets (rpcOutput (cfg.client c).host (cfg.client c).route
    (closeAck ⟨c, cfg.clientBootID c⟩ (rpcBufferInit (cfg.client c).host c ch (-1) p.hdr) p.hdr) emptyMessage 0)

/-- `Rpc_Dispatch` at a client. -/
def NetSystem.clientReceive (cfg : NetConfig) (s : NetSystem) (c : Int) (p : Packet) : NetSystem :=
  let h := s.clients c
  if 0 ≤ p.hdr.channel ∧ p.hdr.channel < cfg.rpcNumChannels c then
    let ch := p.hdr.channel.toNat
    let call := h.calls ch
    if p.hdr.has Flag.close then
      if call.chan.state.busy then s else s.toHost c (closePackets cfg c ch p)
    else s.setClient c (h.setCall ch { call with chan := rpcClientDispatch call.chan p })
  else s

/-- The negative acknowledgment that `NegAckFunc` sends. -/
def nackPackets (cfg : NetConfig) (p : Packet) : List Packet :=
  if p.hdr.clientID = cfg.server.spriteID then []
  else
    outputPackets (rpcOutput cfg.server.host (cfg.route p.hdr.clientID)
      { rpcSrvInitHdr cfg.server.spriteID cfg.bootID
          (rpcBufferInit cfg.server.host cfg.server.spriteID (-1) (-1) p.hdr) p.hdr with
        serverHint := 0
        flags := Flag.nack ||| Flag.ack } emptyMessage 0)

/-- `Rpc_Dispatch` at the server host. A packet held for recovery is as one no server process was found for. -/
def NetSystem.serverReceive (cfg : NetConfig) (s : NetSystem) (p : Packet) (held nack : Bool) : NetSystem :=
  match (if held then none else rpcServerAlloc s.server.table p.hdr) with
  | some (i, table) =>
    let r := rpcServerDispatch (table.servers i) p
    let done := r.1.performAll cfg.reply r.2
    { s.setServer i done.1 with handed := if Action.wakeup ∈ r.2 then r.1 :: s.handed else s.handed }.send done.2
  | none => if nack then s.send (nackPackets cfg p) else s

/-- The steps of the server host that are its own. -/
def OwnerLabel.own : OwnerLabel → Bool
  | .alloc _ => false
  | .dispatch _ _ => false
  | _ => true

/-- What the server host sends in a step of its own. -/
def OwnerSystem.probes (cfg : NetConfig) (o : OwnerSystem) : OwnerLabel → List Packet
  | .reclaim i serversMaxed =>
    let r := (o.table.servers i).reclaim cfg.server.maxServerAge serversMaxed
    if r.2 then rpcProbe cfg.reply r.1 else []
  | _ => []

def NetSystem.step (cfg : NetConfig) (s : NetSystem) : NetLabel → Option NetSystem
  | .setup c ch serverID command storage =>
    let h := s.clients c
    if (h.calls ch).stage = .idle ∧ ch < cfg.rpcNumChannels c ∧
        (serverID = cfg.server.spriteID ∨ serverID = (cfg.client c).broadcastServerID) then
      let h := h.setup ⟨c, cfg.clientBootID c⟩ serverID command storage ch
      some { s.setClient c h with requests := ((h.calls ch).chan.requestRpcHdr, storage.request) :: s.requests }
    else none
  -- a call of another server takes an ID
  | .elsewhere c => some (s.setClient c { s.clients c with rpcID := uint32 ((s.clients c).rpcID + 1) })
  | .go c ch =>
    (((s.clients c).calls ch).go (cfg.client c)).map (fun r =>
      (s.setClient c ((s.clients c).setCall ch r.1)).toHost c r.2)
  | .timeout c ch =>
    let call := (s.clients c).calls ch
    some (s.setClient c ((s.clients c).setCall ch { call with chan := rpcTimeout call.chan }))
  | .free c ch =>
    let call := (s.clients c).calls ch
    match call.stage with
    | .done _ => some (s.setClient c ((s.clients c).setCall ch ⟨{ call.chan with state := chanFree }, .idle⟩))
    | _ => none
  | .clientReceive c k => (s.toClient c)[k]?.map (s.clientReceive cfg c)
  | .serverReceive c again held nack =>
    match s.toServer c with
    | [] => none
    | p :: rest =>
      let s := s.serverReceive cfg p held nack
      some (if again then s else { s with toServer := update s.toServer c rest })
  | .lose c =>
    match s.toServer c with
    | [] => none
    | _ :: rest => some { s with toServer := update s.toServer c rest }
  | .host l =>
    if l.own then
      (s.server.step cfg.server l).map (fun server => { s with server := server }.send (s.server.probes cfg l))
    else none
  | .reply pid error storage =>
    match s.server.procs pid with
    | .serving i =>
      let r := rpcReply cfg.reply (s.server.table.servers i) error storage
      some ((s.setServer i r.1).send r.2)
    | _ => none
  | .errorReply pid error =>
    match s.server.procs pid with
    | .serving i =>
      let r := rpcErrorReply cfg.reply (s.server.table.servers i) error
      some ((s.setServer i r.1).send r.2)
    | _ => none

/-! A small network. -/

/-- What memory holds before a channel is made in it. -/
def plainChannel : RpcClientChannel where
  index := 0
  state := {}
  serverID := 0
  fragsDelivered := 0
  fragsReceived := 0
  actualDataSize := 0
  actualParamSize := 0
  requestRpcHdr := ⟨0, 0, 0, 0, 0, 0, 0, 0, 0, 0, 0, 0, 0, 0, 0, 0⟩
  request := emptyMessage
  reply := ⟨⟨0, 0, 0, 0, 0, 0, 0, 0, 0, 0, 0, 0, 0, 0, 0, 0⟩, 0, fun _ => 0, 0, fun _ => 0⟩

/-- Server host 1, with packets that hold 1088 bytes of a message. -/
def smallNet : NetConfig where
  server := smallConfig
  bootID := 100
  route := fun _ => some 1152
  client := fun _ => ⟨⟨true, false, false, 0x0f0e0003, 0⟩, some 1152, 8, 5, false, false, 0⟩
  clientBootID := fun _ => 200
  rpcNumChannels := fun _ => 8

def smallStart : NetSystem := NetSystem.initial smallNet (fun _ => blankServer) (fun _ _ => plainChannel)

def emptyStorage : RpcStorage := ⟨emptyMessage, fun _ => 0, 0, fun _ => 0, 0⟩

/-- A request of two packets. -/
def storageOfTwo : RpcStorage := ⟨⟨fun _ => 0, 0, fun k => UInt8.ofNat k.toNat, 2000⟩, fun _ => 0, 0, fun _ => 0, 0⟩

/-- Two server processes are made, and wait. -/
def startServers : List NetLabel :=
  [.host (.create blankServer true), .host (.install 0), .host (.loopTop 0 false),
    .host (.create blankServer true), .host (.install 1), .host (.loopTop 1 false)]

end SpriteKernel.Rpc
