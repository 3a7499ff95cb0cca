import SpriteKernel.Rpc.Output

/- A client's channel, and what a packet does to it (`RpcClientDispatch`, rpcClient.c).
   A request of the server to close the connection is answered by `RpcChanClose` and
   leaves what is here as it was. -/
namespace SpriteKernel.Rpc
open Machine

/-- The bits of a channel's state word. -/
structure ChanState where
  free : Bool := false
  busy : Bool := false
  waiting : Bool := false
  input : Bool := false
  timeout : Bool := false
  fragmenting : Bool := false
  deriving DecidableEq

def chanFree : ChanState := { free := true }
def chanBusy : ChanState := { busy := true }

/-- Less the timer and the buffers of fragments and explicit acknowledgments. The reply's header is in its buffers. -/
structure RpcClientChannel where
  index : Int
  state : ChanState
  serverID : Int
  fragsDelivered : BitVec 32
  fragsReceived : BitVec 32
  actualDataSize : Int
  actualParamSize : Int
  requestRpcHdr : RpcHdr
  request : Message
  reply : Buffers

def RpcClientChannel.replyRpcHdr (chan : RpcClientChannel) : RpcHdr := chan.reply.rpcHdr

def RpcClientChannel.noteSizes (chan : RpcClientChannel) (p : Packet) : RpcClientChannel :=
  { chan with
    actualParamSize := max chan.actualParamSize (int32 (p.hdr.paramSize + p.hdr.paramOffset))
    actualDataSize := max chan.actualDataSize (int32 (p.hdr.dataSize + p.hdr.dataOffset)) }

/-- The process is told that there is input, and no more is accepted. -/
def RpcClientChannel.giveInput (chan : RpcClientChannel) : RpcClientChannel :=
  { chan with state := { chan.state with waiting := false, input := true, timeout := false } }

def RpcClientChannel.takeIn (chan : RpcClientChannel) (p : Packet) : RpcClientChannel :=
  let chan := chan.noteSizes p
  if p.hdr.numFrags ≠ 0 then
    if chan.state.fragmenting = false then
      { chan with
        reply := rpcScatter p chan.reply
        fragsReceived := p.hdr.fragMask
        state := { chan.state with fragmenting := true } }
    else if chan.fragsReceived &&& p.hdr.fragMask ≠ 0 then chan
    else
      let chan := { chan with
        reply := rpcScatter p chan.reply
        fragsReceived := chan.fragsReceived ||| p.hdr.fragMask }
      if rpcCompleteMask[p.hdr.numFrags]? = some chan.fragsReceived then
        { chan with state := { chan.state with fragmenting := false } }.giveInput
      else chan
  else { chan with reply := rpcScatter p chan.reply }.giveInput

def rpcClientDispatch (chan : RpcClientChannel) (p : Packet) : RpcClientChannel :=
  if p.hdr.has Flag.close then chan
  else if p.hdr.ID ≠ chan.requestRpcHdr.ID then chan
  -- a partial acknowledgment that says something new is kept from the process
  else if p.hdr.fragMask ≠ 0 ∧ p.hdr.has Flag.ack ∧ chan.fragsDelivered ≠ p.hdr.fragMask then
    { chan with fragsDelivered := p.hdr.fragMask }
  else if chan.state.waiting = false then chan
  else chan.takeIn p

end SpriteKernel.Rpc
