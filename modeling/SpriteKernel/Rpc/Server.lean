import SpriteKernel.Rpc.Output

/- The state of a server process, and what a packet does to it (`RpcServerDispatch`, rpcServer.c). The packets the
   dispatcher sends are named by `Action`; `rpcAck` and `rpcResend` are what `RpcAck` and `RpcResend` make of them. -/
namespace SpriteKernel.Rpc
open Machine Bytes

/-- The bits of the state word; `SRV_NOTREADY` is the word with none set. -/
structure SrvState where
  free : Bool := false
  busy : Bool := false
  waiting : Bool := false
  aging : Bool := false
  fragment : Bool := false
  noReply : Bool := false
  stuck : Bool := false
  deriving DecidableEq

def srvNotReady : SrvState := {}
def srvFree : SrvState := { free := true }
def srvBusy : SrvState := { busy := true }
def srvWaiting : SrvState := { waiting := true }
def srvFragment : SrvState := { fragment := true }

/-- `RpcServerState`, less the timer and the call-back that frees a reply. -/
structure RpcServerState where
  index : Int
  ID : Nat
  state : SrvState
  age : Nat
  clientID : Int
  channel : Int
  fragsDelivered : BitVec 32
  fragsReceived : BitVec 32
  request : Buffers
  replyRpcHdr : RpcHdr
  reply : Message
  actualDataSize : Int
  actualParamSize : Int

/-- The header of the request, as the last packet copied in left it. -/
def RpcServerState.requestRpcHdr (srv : RpcServerState) : RpcHdr := srv.request.rpcHdr

inductive Action where
  | ack (flags : BitVec 32)
  | resend
  | wakeup
  deriving DecidableEq

/-- Copy a packet in and note the actual sizes of the areas. -/
def RpcServerState.takeIn (srv : RpcServerState) (p : Packet) : RpcServerState :=
  { srv with
    request := rpcScatter p srv.request
    actualParamSize := max srv.actualParamSize (int32 (p.hdr.paramSize + p.hdr.paramOffset))
    actualDataSize := max srv.actualDataSize (int32 (p.hdr.dataSize + p.hdr.dataOffset)) }

/-- The first packet of a new request, for a server that is not busy. -/
def RpcServerState.accept (srv : RpcServerState) (p : Packet) : RpcServerState × List Action :=
  let srv := RpcServerState.takeIn
    { srv with ID := p.hdr.ID, actualDataSize := 0, actualParamSize := 0, fragsDelivered := 0 } p
  if p.hdr.numFrags = 0 then
    ({ srv with fragsReceived := 0, state := srvBusy },
      (if p.hdr.has Flag.plsAck then [.ack 0] else []) ++ [.wakeup])
  else
    ({ srv with fragsReceived := p.hdr.fragMask, state := srvFragment },
      if p.hdr.has Flag.plsAck then [.ack Flag.lastFrag] else [])

def RpcServerState.newRequest (srv : RpcServerState) (p : Packet) : RpcServerState × List Action :=
  let fragsReceived := if srv.state.fragment then 0 else srv.fragsReceived
  let srv := { srv with
    state := { srv.state with waiting := false, fragment := false }, fragsReceived := fragsReceived }
  if srv.state.busy then ({ srv with state := { srv.state with stuck := true } }, [])
  else srv.accept p

/-- One more fragment of the request that is being put together. -/
def RpcServerState.addFragment (srv : RpcServerState) (p : Packet) : RpcServerState × List Action :=
  if p.hdr.fragMask = 0 ∨ p.hdr.numFrags = 0 then (srv, [])
  else if srv.fragsReceived &&& p.hdr.fragMask ≠ 0 then (srv, [.ack Flag.lastFrag])
  else
    let srv := srv.takeIn p
    let srv := { srv with fragsReceived := srv.fragsReceived ||| p.hdr.fragMask }
    if rpcCompleteMask[p.hdr.numFrags]? = some srv.fragsReceived then ({ srv with state := srvBusy }, [.wakeup])
    else (srv, if p.hdr.has Flag.lastFrag then [.ack Flag.lastFrag] else [])

def RpcServerState.currentRequest (srv : RpcServerState) (p : Packet) : RpcServerState × List Action :=
  if srv.state.noReply then ({ srv with state := { srv.state with free := true } }, [])
  else if p.hdr.has Flag.ack then
    if p.hdr.has Flag.close then ({ srv with state := srvFree }, [])
    else if p.hdr.has Flag.lastFrag then ({ srv with fragsDelivered := p.hdr.fragMask }, [.resend])
    else (srv, [])
  else if srv.state = srvFree then (srv, [])
  else if srv.state = srvFragment then srv.addFragment p
  else if srv.state = srvBusy then (srv, [.ack 0])
  else if srv.state = srvWaiting then (srv, [.resend])
  -- the default case clears the ID of the reply and not the server's
  else ({ srv with replyRpcHdr := { srv.replyRpcHdr with ID := 0 }, state := srvFree }, [])

def rpcServerDispatch (srv : RpcServerState) (p : Packet) : RpcServerState × List Action :=
  let srv := { srv with state := { srv.state with aging := false }, age := 0 }
  if p.hdr.ID ≠ srv.ID then srv.newRequest p else srv.currentRequest p

/-- The header `RpcSrvInitHdr` makes for a server's message, on top of `hdr`. -/
def rpcSrvInitHdr (spriteID : Int) (bootID : Nat) (hdr requestHdr : RpcHdr) : RpcHdr :=
  { hdr with
    serverID := spriteID
    clientID := requestHdr.clientID
    channel := requestHdr.channel
    bootID := bootID
    ID := requestHdr.ID
    numFrags := 0
    fragMask := 0
    command := requestHdr.command
    paramSize := 0
    dataSize := 0 }

end SpriteKernel.Rpc
