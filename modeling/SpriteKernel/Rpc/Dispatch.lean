import SpriteKernel.Rpc.Server
import SpriteKernel.Rpc.Client

/- The input path (`Rpc_Dispatch`, rpcDispatch.c, and `RpcByteSwapInComing`,
   rpcByteSwap.c): what it reads and writes for a packet as it sits in the network's
   buffer, and which server process or channel the packet is given to. -/
namespace SpriteKernel.Rpc
open Machine Bytes

/-- An `RpcHdr` as it lies in memory. -/
def RpcHdr.read (b : Buffer) : RpcHdr where
  version := word b 0
  flags := BitVec.ofNat 32 (word b 4)
  clientID := int b 8
  serverID := int b 12
  channel := int b 16
  serverHint := int b 20
  bootID := word b 24
  ID := word b 28
  delay := word b 32
  numFrags := word b 36
  fragMask := BitVec.ofNat 32 (word b 40)
  command := int b 44
  paramSize := int b 48
  dataSize := int b 52
  paramOffset := int b 56
  dataOffset := int b 60

/-- The objects the input path reads and writes, with their sizes: bytes, or the
    elements of a table. -/
inductive Region where
  | packet (length : Int)
  | rpcHdr
  | param (length : Int)
  | data (length : Int)
  | rpcCompleteMask
  | rpcDelay
  | rpcChannelPtrPtr (rpcNumChannels : Nat)
  deriving DecidableEq

def netNumSpriteHosts : Nat := 200

def Region.size : Region → Int
  | .packet length => length
  | .rpcHdr => sizeofRpcHdr
  | .param length => length
  | .data length => length
  | .rpcCompleteMask => 17
  | .rpcDelay => netNumSpriteHosts
  | .rpcChannelPtrPtr rpcNumChannels => rpcNumChannels

/-- `length` bytes or elements are accessed from `offset` on; none if `length` is not positive, as in `bcopy`. -/
structure Access where
  region : Region
  offset : Int
  length : Int
  deriving DecidableEq

def Access.Inside (a : Access) : Prop :=
  0 < a.length → 0 ≤ a.offset ∧ a.offset + a.length ≤ a.region.size

instance (a : Access) : Decidable a.Inside := inferInstanceAs (Decidable (_ → _))

/-- The word with its bytes in the other order. -/
def byteSwap (v : Nat) : Nat :=
  v % 256 * 16777216 + v / 256 % 256 * 65536 + v / 65536 % 256 * 256 + v / 16777216 % 256

/-- `RpcByteSwapBuffer`, from offset `i` on. -/
def rpcByteSwapBuffer (i : Int) : Nat → Buffer → Buffer
  | 0, b => b
  | numInts + 1, b => rpcByteSwapBuffer (i + 4) numInts (setWord i (byteSwap (word b i)) b)

/-- `RpcByteSwapInComing`: what it touches, and the packet with its header and
    parameters swapped. -/
def rpcByteSwapInComing (packetLength : Int) (b : Buffer) : List Access × Option Buffer :=
  let b := rpcByteSwapBuffer 0 (sizeofRpcHdr / 4) b
  let paramSize := (RpcHdr.read b).paramSize
  -- sizeof makes the sum, and so the comparison, unsigned
  if uint32 packetLength < uint32 (sizeofRpcHdr + paramSize) then
    ([⟨.packet packetLength, 0, sizeofRpcHdr⟩], none)
  else if uint32 paramSize % 4 ≠ 0 then ([⟨.packet packetLength, 0, sizeofRpcHdr⟩], none)
  else
    let numInts := uint32 paramSize / 4
    ([⟨.packet packetLength, 0, sizeofRpcHdr⟩, ⟨.packet packetLength, sizeofRpcHdr, 4 * numInts⟩],
      some (rpcByteSwapBuffer sizeofRpcHdr numInts b))

/-- What copying one area touches. -/
def areaAccesses (packetLength start size offset : Int) (dst : Region) : List Access :=
  if size ≠ 0 then
    [⟨.packet packetLength, start, scatterLength size offset dst.size⟩,
      ⟨dst, offset, scatterLength size offset dst.size⟩]
  else []

/-- What `RpcScatter` touches. -/
def scatterAccesses (packetLength : Int) (h : RpcHdr) (b : Buffers) : List Access :=
  [⟨.packet packetLength, 0, sizeofRpcHdr⟩, ⟨.rpcHdr, 0, sizeofRpcHdr⟩] ++
    areaAccesses packetLength sizeofRpcHdr h.paramSize h.paramOffset (.param b.paramLength) ++
    areaAccesses packetLength (sizeofRpcHdr + h.paramSize) h.dataSize h.dataOffset (.data b.dataLength)

/-- One more fragment for a server that puts a request together. -/
def RpcServerState.AddsFragment (srv : RpcServerState) (h : RpcHdr) : Prop :=
  h.ID = srv.ID ∧ srv.state.noReply = false ∧ h.has Flag.ack = false ∧
    { srv.state with aging := false } = srvFragment ∧ h.fragMask ≠ 0 ∧ h.numFrags ≠ 0 ∧
    srv.fragsReceived &&& h.fragMask = 0

instance (srv : RpcServerState) (h : RpcHdr) : Decidable (srv.AddsFragment h) :=
  inferInstanceAs (Decidable (_ ∧ _))

/-- The packets that `RpcServerDispatch` copies in. -/
def RpcServerState.Copies (srv : RpcServerState) (h : RpcHdr) : Prop :=
  h.ID ≠ srv.ID ∧ srv.state.busy = false ∨ srv.AddsFragment h

instance (srv : RpcServerState) (h : RpcHdr) : Decidable (srv.Copies h) :=
  inferInstanceAs (Decidable (_ ∨ _))

/-- What `RpcServerDispatch` touches of the packet, the server's buffers and the table
    of masks. -/
def RpcServerState.accesses (srv : RpcServerState) (packetLength : Int) (h : RpcHdr) : List Access :=
  (if srv.Copies h then scatterAccesses packetLength h srv.request else []) ++
    (if srv.AddsFragment h then [⟨.rpcCompleteMask, h.numFrags, 1⟩] else [])

/-- A partial acknowledgment that is kept from the process. -/
def RpcClientChannel.Filters (chan : RpcClientChannel) (h : RpcHdr) : Prop :=
  h.fragMask ≠ 0 ∧ h.has Flag.ack ∧ chan.fragsDelivered ≠ h.fragMask

instance (chan : RpcClientChannel) (h : RpcHdr) : Decidable (chan.Filters h) :=
  inferInstanceAs (Decidable (_ ∧ _))

/-- The packets that `RpcClientDispatch` copies in. -/
def RpcClientChannel.Copies (chan : RpcClientChannel) (h : RpcHdr) : Prop :=
  h.has Flag.close = false ∧ h.ID = chan.requestRpcHdr.ID ∧
    ¬chan.Filters h ∧ chan.state.waiting = true ∧
    ¬(h.numFrags ≠ 0 ∧ chan.state.fragmenting = true ∧ chan.fragsReceived &&& h.fragMask ≠ 0)

instance (chan : RpcClientChannel) (h : RpcHdr) : Decidable (chan.Copies h) :=
  inferInstanceAs (Decidable (_ ∧ _))

/-- One more fragment for a channel that puts a reply together. -/
def RpcClientChannel.AddsFragment (chan : RpcClientChannel) (h : RpcHdr) : Prop :=
  chan.Copies h ∧ h.numFrags ≠ 0 ∧ chan.state.fragmenting = true

instance (chan : RpcClientChannel) (h : RpcHdr) : Decidable (chan.AddsFragment h) :=
  inferInstanceAs (Decidable (_ ∧ _))

/-- What `RpcClientDispatch` touches of the packet, the channel's buffers and the
    table of masks. -/
def RpcClientChannel.accesses (chan : RpcClientChannel) (packetLength : Int) (h : RpcHdr) : List Access :=
  (if chan.Copies h then scatterAccesses packetLength h chan.reply else []) ++
    (if chan.AddsFragment h then [⟨.rpcCompleteMask, h.numFrags, 1⟩] else [])

/-- The lengths of a set of buffers are `int`s and not negative. -/
structure Buffers.Sized (b : Buffers) : Prop where
  param_nonneg : 0 ≤ b.paramLength
  param_lt : b.paramLength < 2147483648
  data_nonneg : 0 ≤ b.dataLength
  data_lt : b.dataLength < 2147483648

/-- The switches, the interface's limits, the transport header's host, and the protocol state packets are matched to. -/
structure Input where
  nativeVersion : Nat
  swappedVersion : Nat
  broadcastServerID : Int
  spriteID : Int
  errorSync : Bool
  minBytes : Int
  maxBytes : Int
  hdrToID : Int
  hdrToID_lt : hdrToID < netNumSpriteHosts
  holdForRecovery : Int → Int → Bool
  serverAlloc : RpcHdr → Option RpcServerState
  sized_request : ∀ h srv, serverAlloc h = some srv → srv.request.Sized
  channels : List RpcClientChannel
  sized_reply : ∀ chan ∈ channels, chan.reply.Sized

/-- The tests on the length of a packet in the native order. -/
def Input.LengthOk (sys : Input) (packetLength : Int) (h : RpcHdr) : Prop :=
  let expectedLength := int32 (sizeofRpcHdr + h.paramSize + h.dataSize)
  expectedLength ≤ packetLength ∧
    ¬(packetLength > expectedLength ∧ packetLength > sys.minBytes ∧ packetLength > sys.maxBytes)

instance (sys : Input) (packetLength : Int) (h : RpcHdr) : Decidable (sys.LengthOk packetLength h) :=
  inferInstanceAs (Decidable (_ ∧ _))

/-- `ValidateClient`: the header with the client filled in. -/
def Input.validateClient (sys : Input) (h : RpcHdr) : Option RpcHdr :=
  if 0 < h.clientID ∧ h.clientID < netNumSpriteHosts then some h
  else if h.clientID = 0 then
    if sys.hdrToID < 0 then none else some { h with clientID := sys.hdrToID }
  else none

/-- A message to a server process. -/
def Input.toServer (sys : Input) (packetLength : Int) (h : RpcHdr) : List Access :=
  if sys.spriteID = 0 ∨ sys.errorSync then []
  else if h.serverID ≠ sys.broadcastServerID ∧ h.serverID ≠ sys.spriteID then []
  else
    match sys.validateClient h with
    | none => []
    | some h =>
      ⟨.rpcDelay, h.clientID, 1⟩ ::
        (if sys.holdForRecovery h.clientID h.command then []
        else match sys.serverAlloc h with
          | none => []
          | some srv => srv.accesses packetLength h)

def Input.toClient (sys : Input) (packetLength : Int) (h : RpcHdr) : List Access :=
  if h.channel < 0 ∨ h.channel ≥ sys.channels.length then []
  else
    (if h.serverID < netNumSpriteHosts ∧ h.serverID > 0 then [⟨.rpcDelay, h.serverID, 1⟩] else []) ++
      ⟨.rpcChannelPtrPtr sys.channels.length, h.channel, 1⟩ ::
        (match sys.channels[h.channel.toNat]? with
        | none => []
        | some chan => chan.accesses packetLength h)

def Input.dispatchNative (sys : Input) (packetLength : Int) (b : Buffer) : List Access :=
  let h := RpcHdr.read b
  if ¬sys.LengthOk packetLength h then []
  else if h.has Flag.server then sys.toServer packetLength h
  else sys.toClient packetLength h

/-- A packet in the other order. -/
def Input.dispatchSwapped (sys : Input) (packetLength : Int) (b : Buffer) : List Access :=
  (rpcByteSwapInComing packetLength b).1 ++
    (rpcByteSwapInComing packetLength b).2.elim [] (sys.dispatchNative packetLength)

/-- What `Rpc_Dispatch` touches, in order. -/
def Input.rpcDispatch (sys : Input) (packetLength : Int) (b : Buffer) : List Access :=
  if uint32 packetLength < sizeofRpcHdr then []
  else
    ⟨.packet packetLength, 0, sizeofRpcHdr⟩ ::
      (if (RpcHdr.read b).version = sys.swappedVersion then sys.dispatchSwapped packetLength b
      else if (RpcHdr.read b).version ≠ sys.nativeVersion then []
      else sys.dispatchNative packetLength b)

end SpriteKernel.Rpc
