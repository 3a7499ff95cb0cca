import SpriteKernel.Lib.Machine
import SpriteKernel.Lib.Bytes

/- RPC packets (rpcPacket.h) and the copying of one into the buffers of the
   channel or the server process it is for (`RpcScatter`, rpcDispatch.c). -/
namespace SpriteKernel.Rpc
open Machine Bytes

/-! The bits of the flags word. -/

def Flag.plsAck : BitVec 32 := 0x000001
def Flag.lastFrag : BitVec 32 := 0x000002
def Flag.close : BitVec 32 := 0x000004
def Flag.error : BitVec 32 := 0x000008
def Flag.server : BitVec 32 := 0x000010
def Flag.notActive : BitVec 32 := 0x000040
def Flag.fast : BitVec 32 := 0x000080
def Flag.serverRecov : BitVec 32 := 0x010000
def Flag.typeMask : BitVec 32 := 0x00ff00
def Flag.request : BitVec 32 := 0x000100
def Flag.ack : BitVec 32 := 0x000200
def Flag.reply : BitVec 32 := 0x000400
def Flag.echo : BitVec 32 := 0x000800
def Flag.nack : BitVec 32 := 0x001000

/-! Limits on fragmenting. -/

def maxNumFrags : Nat := 16
def maxFragSize : Nat := 1024
def maxDataSize : Nat := maxNumFrags * maxFragSize
def maxParamSize : Nat := 1 * maxFragSize
def maxSize : Nat := maxDataSize + maxParamSize

def sizeofRpcHdr : Nat := 64

/-- `rpcCompleteMask`, by the number of fragments. -/
def rpcCompleteMask : List (BitVec 32) :=
  [0x0000, 0x0001, 0x0003, 0x0007, 0x000F, 0x001F, 0x003F, 0x007F, 0x00FF, 0x01FF, 0x03FF, 0x07FF, 0x0FFF,
    0x1FFF, 0x3FFF, 0x7FFF, 0xFFFF]

structure RpcHdr where
  version : Nat
  flags : BitVec 32
  clientID : Int
  serverID : Int
  channel : Int
  serverHint : Int
  bootID : Nat
  ID : Nat
  delay : Nat
  numFrags : Nat
  fragMask : BitVec 32
  command : Int
  paramSize : Int
  dataSize : Int
  paramOffset : Int
  dataOffset : Int
  deriving DecidableEq

/-- Whether some bit of `f` is set in the flags. -/
def RpcHdr.has (h : RpcHdr) (f : BitVec 32) : Bool := h.flags &&& f != 0

/-- A packet: the header, and the parameter and data areas that follow it. -/
structure Packet where
  hdr : RpcHdr
  body : List UInt8
  deriving DecidableEq

/-- An `RpcBufferSet` that a message is copied to. -/
structure Buffers where
  rpcHdr : RpcHdr
  paramLength : Int
  param : Buffer
  dataLength : Int
  data : Buffer

/-- How much `RpcScatter` copies of an area, given the length of its destination. -/
def scatterLength (length offset destLength : Int) : Int :=
  if int32 (length + offset) > destLength then
    if offset < destLength then int32 (destLength - offset) else 0
  else length

/-- `bcopy` to an offset of a buffer. -/
def bcopy (src : List UInt8) (offset length : Int) (dst : Buffer) : Buffer :=
  setBytes offset (src.take length.toNat) dst

def rpcScatter (p : Packet) (b : Buffers) : Buffers where
  rpcHdr := p.hdr
  paramLength := b.paramLength
  param :=
    if p.hdr.paramSize ≠ 0 then
      bcopy p.body p.hdr.paramOffset (scatterLength p.hdr.paramSize p.hdr.paramOffset b.paramLength) b.param
    else b.param
  dataLength := b.dataLength
  data :=
    -- the data area starts where the parameter area ends
    if p.hdr.dataSize ≠ 0 then
      bcopy (p.body.drop p.hdr.paramSize.toNat) p.hdr.dataOffset
        (scatterLength p.hdr.dataSize p.hdr.dataOffset b.dataLength) b.data
    else b.data

theorem scatterLength_of_fits {length offset destLength : Int} (h0 : 0 ≤ length) (h1 : 0 ≤ offset)
    (h2 : length + offset ≤ destLength) (h3 : destLength < 2147483648) :
    scatterLength length offset destLength = length := by
  rw [scatterLength, int32_of_fits (by omega) (by omega), if_neg (by omega)]

end SpriteKernel.Rpc
