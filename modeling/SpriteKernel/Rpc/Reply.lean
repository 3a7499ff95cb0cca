import SpriteKernel.Rpc.Call
import SpriteKernel.Rpc.ServerTable

/- What a server process sends (rpcServer.c): acknowledgments, probes, replies, and
   replies again. No mutex is given to `RpcOutput` here, so each is sent in the
   section it is decided in. -/
namespace SpriteKernel.Rpc
open Machine Bytes

/-- What the messages of a server depend on; `route` gives the route to a client. -/
structure ReplyConfig where
  host : Host
  self : Self
  route : Int → Option Nat

def emptyMessage : Message where
  param := fun _ => 0
  paramLength := 0
  data := fun _ => 0
  dataLength := 0

/-- The header of an acknowledgment, which `RpcBufferInit` and `RpcSrvInitHdr` fill in. -/
def RpcServerState.ackRpcHdr (cfg : ReplyConfig) (srv : RpcServerState) (flags fragMask : BitVec 32) : RpcHdr :=
  { rpcSrvInitHdr cfg.self.spriteID cfg.self.bootID
      (rpcBufferInit cfg.host cfg.self.spriteID (-1) srv.index srv.requestRpcHdr) srv.requestRpcHdr with
    flags := flags
    fragMask := fragMask }

/-- The packets of an output; there are none where it fails. -/
def outputPackets : Except OutputError (RpcHdr × List Packet) → List Packet
  | .ok (_, packets) => packets
  | .error _ => []

/-- `RpcAck`: the client is told which fragments there are. -/
def rpcAck (cfg : ReplyConfig) (srv : RpcServerState) (flags : BitVec 32) : List Packet :=
  outputPackets (rpcOutput cfg.host (cfg.route srv.requestRpcHdr.clientID)
    (srv.ackRpcHdr cfg (flags ||| Flag.ack) srv.fragsReceived) emptyMessage 0)

/-- `RpcProbe`: the client is asked whether the connection may be closed. -/
def rpcProbe (cfg : ReplyConfig) (srv : RpcServerState) : List Packet :=
  outputPackets (rpcOutput cfg.host (cfg.route srv.requestRpcHdr.clientID)
    (srv.ackRpcHdr cfg (Flag.ack ||| Flag.close) 0) emptyMessage 0)

/-- The reply is given to `RpcOutput`, which leaves its marks in the header. -/
def RpcServerState.output (cfg : ReplyConfig) (srv : RpcServerState) (dontSendMask : BitVec 32) :
    RpcServerState × List Packet :=
  match rpcOutput cfg.host (cfg.route srv.replyRpcHdr.clientID) srv.replyRpcHdr srv.reply dontSendMask with
  | .ok (hdr, packets) => ({ srv with replyRpcHdr := hdr }, packets)
  | .error _ =>
    ({ srv with replyRpcHdr := { srv.replyRpcHdr with flags := srv.replyRpcHdr.flags ||| cfg.host.marks } }, [])

/-- `RpcResend`. A reply to another command, which the service procedure forgot to
    replace, is not sent. -/
def rpcResend (cfg : ReplyConfig) (srv : RpcServerState) : RpcServerState × List Packet :=
  if srv.replyRpcHdr.has Flag.error = false ∧ srv.replyRpcHdr.command ≠ srv.requestRpcHdr.command then (srv, [])
  else srv.output cfg srv.fragsDelivered

/-- The header of a reply; an error goes in the place of the command. -/
def RpcServerState.replyHdr (cfg : ReplyConfig) (srv : RpcServerState) (error : Int) (paramSize dataSize : Nat) : RpcHdr :=
  let hdr := rpcSrvInitHdr cfg.self.spriteID cfg.self.bootID srv.replyRpcHdr srv.requestRpcHdr
  { hdr with
    flags := Flag.reply ||| (if error ≠ 0 then Flag.error else 0)
    command := if error ≠ 0 then error else hdr.command
    paramSize := paramSize
    dataSize := dataSize }

def rpcReply (cfg : ReplyConfig) (srv : RpcServerState) (error : Int) (storage : Message) :
    RpcServerState × List Packet :=
  { srv with
    replyRpcHdr := srv.replyHdr cfg error storage.paramLength storage.dataLength
    reply := storage }.output cfg 0

/-- `Rpc_ErrorReply`, of an error that is not `SUCCESS`. -/
def rpcErrorReply (cfg : ReplyConfig) (srv : RpcServerState) (error : Int) : RpcServerState × List Packet :=
  rpcReply cfg srv error { srv.reply with paramLength := 0, dataLength := 0 }

/-- What the dispatcher has decided to do is done. -/
def RpcServerState.perform (cfg : ReplyConfig) (srv : RpcServerState) : Action → RpcServerState × List Packet
  | .ack flags => (srv, rpcAck cfg srv flags)
  | .resend => rpcResend cfg srv
  | .wakeup => (srv, [])

def RpcServerState.performAll (cfg : ReplyConfig) (srv : RpcServerState) : List Action → RpcServerState × List Packet
  | [] => (srv, [])
  | a :: as =>
    let first := srv.perform cfg a
    let rest := first.1.performAll cfg as
    (rest.1, first.2 ++ rest.2)

/-- A server process is given a packet: what it is then, and what is sent. -/
def RpcServerState.input (cfg : ReplyConfig) (srv : RpcServerState) (p : Packet) : RpcServerState × List Packet :=
  let dispatched := rpcServerDispatch srv p
  dispatched.1.performAll cfg dispatched.2

end SpriteKernel.Rpc
