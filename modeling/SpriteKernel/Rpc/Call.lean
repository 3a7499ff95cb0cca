import SpriteKernel.Rpc.Client

/- A remote procedure call of a client (`RpcSetup`, rpcCall.c, and `RpcDoCall`, rpcClient.c). `RpcDoCall` holds the
   channel's mutex but while it sleeps or sends; a definition is what it does in between. A timeout may come at any
   time. -/
namespace SpriteKernel.Rpc
open Machine Bytes

/-- `Rpc_Storage`: the request, and the buffers for the reply. -/
structure RpcStorage where
  request : Message
  replyParam : Buffer
  replyParamSize : Nat
  replyData : Buffer
  replyDataSize : Nat

/-- What the kernel has of itself: `rpc_SpriteID` and `rpcBootID`. -/
structure Self where
  spriteID : Int
  bootID : Nat

def rpcEcho1 : Int := 1

/-- `RpcSetup`, with the ID it has taken from `rpcID`. -/
def rpcSetup (self : Self) (serverID command : Int) (storage : RpcStorage) (ID : Nat) (chan : RpcClientChannel) :
    RpcClientChannel :=
  { chan with
    requestRpcHdr := { chan.requestRpcHdr with
      flags := (if command = rpcEcho1 then Flag.echo else Flag.request) ||| Flag.server
      clientID := self.spriteID
      serverID := serverID
      bootID := self.bootID
      ID := ID
      command := command
      paramSize := storage.request.paramLength
      dataSize := storage.request.dataLength }
    request := storage.request
    reply :=
      { rpcHdr := chan.reply.rpcHdr
        paramLength := storage.replyParamSize
        param := storage.replyParam
        dataLength := storage.replyDataSize
        data := storage.replyData }
    actualDataSize := 0
    actualParamSize := 0
    fragsReceived := 0
    fragsDelivered := 0 }

/-- What `RpcDoCall` returns. An error a server returns is in `serverError`. -/
inductive RpcStatus where
  | success
  | outputError (e : OutputError)
  | nackError
  | nullError
  | serverError (command : Int)
  | internalError
  | timeout
  deriving DecidableEq

/-- The counters of `RpcDoCall`. -/
structure CallLocals where
  numTries : Nat := 0
  numAcks : Nat := 0
  lastFragMask : BitVec 32 := 0
  deriving DecidableEq

/-- The limits of `RpcConst`, and the switches `rpc_NoTimeouts` and `rpcChannelNegAcks`. -/
structure CallConfig where
  host : Host
  route : Option Nat
  maxTries : Nat
  maxAcks : Nat
  noTimeouts : Bool
  channelNegAcks : Bool
  broadcastServerID : Int

/-- The request is given to `RpcOutput`: the channel, what is sent and the status. -/
def RpcClientChannel.send (cfg : CallConfig) (chan : RpcClientChannel) :
    RpcClientChannel × List Packet × RpcStatus :=
  match rpcOutput cfg.host cfg.route chan.requestRpcHdr chan.request chan.fragsDelivered with
  | .ok (hdr, packets) => ({ chan with requestRpcHdr := hdr }, packets, .success)
  | .error e =>
    ({ chan with requestRpcHdr := { chan.requestRpcHdr with flags := chan.requestRpcHdr.flags ||| cfg.host.marks } }, [],
      .outputError e)

def RpcClientChannel.takeHint (chan : RpcClientChannel) : RpcClientChannel :=
  { chan with requestRpcHdr := { chan.requestRpcHdr with serverHint := chan.replyRpcHdr.serverHint } }

/-- `RpcDoCall` up to the first `RpcOutput`. -/
def RpcClientChannel.start (chan : RpcClientChannel) : RpcClientChannel :=
  { chan.takeHint with state := { chan.state with waiting := true } }

/-- The process goes to sleep with a timeout scheduled. -/
def RpcClientChannel.sleep (chan : RpcClientChannel) : RpcClientChannel :=
  { chan with state := { chan.state with timeout := true, waiting := true } }

def rpcTimeout (chan : RpcClientChannel) : RpcClientChannel :=
  { chan with state := { chan.state with timeout := false } }

/-- Out of the loop. -/
def RpcClientChannel.leave (chan : RpcClientChannel) : RpcClientChannel :=
  { chan with state := { chan.state with waiting := false } }

def RpcHdr.replyStatus (h : RpcHdr) : RpcStatus :=
  if h.has Flag.error then if h.command = 0 then .nullError else .serverError h.command else .success

/-- What the loop makes of its input: go on with the counters given, or return. -/
inductive Turn where
  | again (locals : CallLocals)
  | return (status : RpcStatus)
  deriving DecidableEq

/-- `RpcDoCall` has input, which is in the reply's buffers. -/
def RpcClientChannel.processInput (cfg : CallConfig) (locals : CallLocals) (chan : RpcClientChannel) : Turn :=
  let h := chan.replyRpcHdr
  let broadcast := chan.requestRpcHdr.serverID = cfg.broadcastServerID
  if h.ID ≠ chan.requestRpcHdr.ID then .again locals
  else if h.has Flag.nack then
    if broadcast then .again locals
    else if cfg.channelNegAcks then .return .nackError
    else .again { locals with numTries := 0 }
  else if h.has Flag.reply then .return h.replyStatus
  else if h.has Flag.ack then
    if locals.numAcks + 1 ≤ cfg.maxAcks then
      .again { locals with
        numAcks := locals.numAcks + 1
        numTries := if broadcast then locals.numTries else 0 }
    else .again { locals with numAcks := 0 }
  else .return .internalError

def RpcClientChannel.clearInput (chan : RpcClientChannel) : RpcClientChannel :=
  { chan with state := { chan.state with input := false } }

def RpcClientChannel.resend (chan : RpcClientChannel) : RpcClientChannel :=
  { chan with requestRpcHdr := { chan.requestRpcHdr with flags := chan.requestRpcHdr.flags ||| Flag.plsAck } }

/-- The request header made a partial acknowledgment. The sizes stay those of the request. -/
def RpcClientChannel.partialAck (chan : RpcClientChannel) : RpcClientChannel :=
  { chan with requestRpcHdr := { chan.requestRpcHdr with
      flags := Flag.server ||| Flag.ack ||| Flag.lastFrag
      fragMask := chan.fragsReceived } }

/-- What the loop does where there is no input: it gives up, or has a message to send. -/
inductive Retry where
  | giveUp
  | send (chan : RpcClientChannel) (locals : CallLocals)

/-- `RpcDoCall` has timed out, and has taken the hint. -/
def RpcClientChannel.processTimeout (cfg : CallConfig) (locals : CallLocals) (chan : RpcClientChannel) : Retry :=
  let broadcast := chan.requestRpcHdr.serverID = cfg.broadcastServerID
  if chan.state.fragmenting = false then
    let locals := { locals with numTries := locals.numTries + 1 }
    if locals.numTries < cfg.maxTries ∨ (cfg.noTimeouts ∧ ¬broadcast) then .send chan.resend locals else .giveUp
  else
    let locals :=
      if locals.lastFragMask < chan.fragsReceived then
        { locals with lastFragMask := chan.fragsReceived, numTries := 0 }
      else { locals with numTries := locals.numTries + 1 }
    if locals.numTries ≥ cfg.maxTries ∧ (¬cfg.noTimeouts ∨ broadcast) then .giveUp else .send chan.partialAck locals

/-- Set up, in `RpcOutput` first or again, asleep, or returned. `error` is the last output's status. -/
inductive CallStage where
  | idle
  | ready
  | sending (first : Bool) (error : RpcStatus) (locals : CallLocals)
  | asleep (error : RpcStatus) (locals : CallLocals)
  | done (status : RpcStatus)
  deriving DecidableEq

/-- A channel and the process that uses it. -/
structure ClientCall where
  chan : RpcClientChannel
  stage : CallStage

/-- From the wait to the next one, to `RpcOutput` or to the return. -/
def ClientCall.turn (cfg : CallConfig) (error : RpcStatus) (locals : CallLocals) (chan : RpcClientChannel) :
    ClientCall × List Packet :=
  if chan.state.input then
    let chan := chan.clearInput
    match chan.processInput cfg locals with
    | .again locals =>
      if error = .success then (⟨chan.sleep, .asleep error locals⟩, []) else (⟨chan.leave, .done error⟩, [])
    -- a reply without RPC_ERROR leaves the status as it is
    | .return status => (⟨chan.leave, .done (if status = .success then error else status)⟩, [])
  else
    match chan.takeHint.processTimeout cfg locals with
    | .giveUp => (⟨chan.takeHint.leave, .done .timeout⟩, [])
    | .send chan locals =>
      let (chan, packets, error) := chan.send cfg
      (⟨chan, .sending false error locals⟩, packets)

/-- `RpcDoCall` is called. -/
def ClientCall.begin (cfg : CallConfig) (chan : RpcClientChannel) : ClientCall × List Packet :=
  let (chan, packets, error) := chan.start.send cfg
  (⟨chan, .sending true error {}⟩, packets)

/-- `RpcOutput` has returned. Only an output in the loop ends it with an error. -/
def ClientCall.sent (cfg : CallConfig) (first : Bool) (error : RpcStatus) (locals : CallLocals)
    (chan : RpcClientChannel) : ClientCall × List Packet :=
  if first = false ∧ error ≠ .success then (⟨chan.leave, .done error⟩, [])
  else if chan.state.input then ClientCall.turn cfg error locals chan
  else (⟨chan.sleep, .asleep error locals⟩, [])

/-- What the process does next; `none` where it cannot go on. -/
def ClientCall.go (cfg : CallConfig) (call : ClientCall) : Option (ClientCall × List Packet) :=
  match call.stage with
  | .ready => some (ClientCall.begin cfg call.chan)
  | .sending first error locals => some (ClientCall.sent cfg first error locals call.chan)
  | .asleep error locals =>
    if call.chan.state.input ∨ call.chan.state.timeout = false then some (ClientCall.turn cfg error locals call.chan)
    else none
  | _ => none

/-- The acknowledgment that `RpcChanClose` sends for a request to close. -/
def closeAck (self : Self) (ackHdr h : RpcHdr) : RpcHdr :=
  { ackHdr with
    flags := Flag.ack ||| Flag.close ||| Flag.server
    clientID := self.spriteID
    serverID := h.serverID
    serverHint := h.serverHint
    command := h.command
    bootID := self.bootID
    ID := h.ID }

end SpriteKernel.Rpc
