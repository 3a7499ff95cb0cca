import SpriteKernel.Rpc.Packet
import SpriteKernel.Lib.Pieces

/- Sending a message (`RpcOutput`, rpcOutput.c). One that does not fit a packet of
   the route is cut into fragments; those in `dontSendMask` are not sent. -/
namespace SpriteKernel.Rpc
open Machine Bytes

/-- An `RpcBufferSet` that a message is sent from. -/
structure Message where
  param : Buffer
  paramLength : Nat
  data : Buffer
  dataLength : Nat

/-- The switches `RpcOutput` marks packets with, their version, and `rpcMyDelay`. -/
structure Host where
  serviceEnabled : Bool
  transparent : Bool
  serverDriven : Bool
  nativeVersion : Nat
  myDelay : Nat

def Host.marks (host : Host) : BitVec 32 :=
  (if host.serviceEnabled then 0 else Flag.notActive) ||| (if host.transparent then Flag.fast else 0) |||
    (if host.serverDriven then Flag.serverRecov else 0)

inductive OutputError where
  | internalError
  | paramsTooBig
  | dataTooBig
  deriving DecidableEq

structure Cut where
  paramSize : Nat
  dataSize : Nat
  paramOffset : Nat
  dataOffset : Nat
  deriving DecidableEq

/-- The loop that computes the fragments, each filled up to `payload` with what remains, parameters first. -/
def cutMessage (payload : Nat) : Nat → Nat → Nat → Nat → Nat → List Cut
  | 0, _, _, _, _ => []
  | fuel + 1, paramSize, dataSize, paramOffset, dataOffset =>
    if dataSize > 0 ∨ paramSize > 0 then
      let plen := if paramSize ≠ 0 then min payload paramSize else 0
      let dlen := if dataSize ≠ 0 then min (payload - plen) dataSize else 0
      ⟨plen, dlen, paramOffset, dataOffset⟩ ::
        cutMessage payload fuel (paramSize - plen) (dataSize - dlen) (paramOffset + plen) (dataOffset + dlen)
    else []

/-- The bit that marks the `i`th fragment. -/
def fragID (i : Nat) : BitVec 32 := 1#32 <<< i

/-- The header of fragment `i` of `nfrags`. `RPC_LASTFRAG` is lost when the message's flags are copied over it. -/
def fragmentHdr (host : Host) (hdr : RpcHdr) (nfrags i : Nat) (c : Cut) : RpcHdr where
  version := host.nativeVersion
  flags := hdr.flags
  clientID := hdr.clientID
  serverID := hdr.serverID
  channel := hdr.channel
  serverHint := hdr.serverHint
  bootID := hdr.bootID
  ID := hdr.ID
  delay := host.myDelay
  numFrags := nfrags
  fragMask := fragID i
  command := hdr.command
  paramSize := c.paramSize
  dataSize := c.dataSize
  paramOffset := c.paramOffset
  dataOffset := c.dataOffset

def fragmentPacket (host : Host) (hdr : RpcHdr) (msg : Message) (nfrags i : Nat) (c : Cut) : Packet where
  hdr := fragmentHdr host hdr nfrags i c
  body := bytesFrom msg.param c.paramOffset c.paramSize ++ bytesFrom msg.data c.dataOffset c.dataSize

/-- Which of `nfrags` fragments are sent: those not in the mask, or the last when none is left or a probe knows
    nothing yet. -/
def sendFragMask (hdr : RpcHdr) (dontSendMask : BitVec 32) (nfrags : Nat) : BitVec 32 :=
  if rpcCompleteMask[nfrags]? = some dontSendMask ∨ hdr.has Flag.plsAck ∧ dontSendMask = 0 then fragID (nfrags - 1)
  else ~~~dontSendMask

/-- The fragments from the `i`th on that are sent. -/
def sendFragments (host : Host) (hdr : RpcHdr) (msg : Message) (nfrags : Nat) (mask : BitVec 32) :
    Nat → List Cut → List Packet
  | _, [] => []
  | i, c :: cs =>
    if fragID i &&& mask ≠ 0 then
      fragmentPacket host hdr msg nfrags i c :: sendFragments host hdr msg nfrags mask (i + 1) cs
    else sendFragments host hdr msg nfrags mask (i + 1) cs

/-- The header as an unfragmented message is sent with it. -/
def wholeHdr (host : Host) (hdr : RpcHdr) : RpcHdr :=
  { hdr with
    numFrags := 0
    paramOffset := 0
    dataOffset := 0
    version := host.nativeVersion
    fragMask := if hdr.flags &&& Flag.typeMask = Flag.ack then hdr.fragMask else 0 }

/-- The header as it is left, and the packets handed to the network. `route` is the largest packet of a route. -/
def rpcOutput (host : Host) (route : Option Nat) (hdr : RpcHdr) (msg : Message) (dontSendMask : BitVec 32) :
    Except OutputError (RpcHdr × List Packet) :=
  let hdr := { hdr with flags := hdr.flags ||| host.marks }
  match route with
  | none => .error .internalError
  | some maxPacket =>
    let payload := maxPacket - sizeofRpcHdr
    if uint32 (hdr.paramSize + hdr.dataSize) > payload then
      if hdr.paramSize > (maxParamSize : Int) then .error .paramsTooBig
      else if hdr.dataSize > (maxDataSize : Int) then .error .dataTooBig
      else
        let cuts := cutMessage payload (hdr.paramSize + hdr.dataSize).toNat hdr.paramSize.toNat hdr.dataSize.toNat 0 0
        .ok (hdr, sendFragments host hdr msg cuts.length (sendFragMask hdr dontSendMask cuts.length) 0 cuts)
    else
      let hdr := wholeHdr host hdr
      .ok (hdr, [⟨hdr, bytesFrom msg.param 0 msg.paramLength ++ bytesFrom msg.data 0 msg.dataLength⟩])

end SpriteKernel.Rpc
