import SpriteKernel.Lib.Transition
import SpriteKernel.Rpc.CallStep
import SpriteKernel.Rpc.ServerStep

/- One RPC between a client's channel and a server process, over a network that loses, delays, repeats and reorders
   packets: `fragsDelivered` of either side against `fragsReceived` of the other. The client's `RPC_ACK` packets go
   the way of the request, so a request of several fragments makes several, each with a fragment's number in place of
   the mask; the steps that send such are not `Careful`. -/
namespace SpriteKernel.Rpc
open Machine Transition

/-- Whether every bit of one mask is set in the other. -/
def MaskLe (a b : BitVec 32) : Prop := ∀ i, a.getLsbD i = true → b.getLsbD i = true

/-- Where a server process is in its loop. -/
inductive ServerProc where
  | waiting
  | serving
  | replied
  deriving DecidableEq

/-- A packet that was sent stays in the network, to arrive never, once or more often. -/
structure PairSystem where
  call : ClientCall
  srv : RpcServerState
  proc : ServerProc
  toServer : List Packet
  toClient : List Packet

structure PairConfig where
  client : CallConfig
  server : ReplyConfig
  maxServerAge : Nat

inductive PairLabel where
  | go
  | timeout
  | clientReceive (k : Nat)
  | serverReceive (k : Nat)
  | handOff
  | reply (error : Int) (storage : Message)
  | errorReply (error : Int)
  | loopTop (noReply : Bool)
  | reclaim (serversMaxed : Bool)

/-- The server process has changed and sent packets. -/
def PairSystem.serve (s : PairSystem) (srv : RpcServerState) (proc : ServerProc) (packets : List Packet) : PairSystem :=
  { s with srv := srv, proc := proc, toClient := s.toClient ++ packets }

def PairSystem.step (cfg : PairConfig) (s : PairSystem) : PairLabel → Option PairSystem
  | .go => (s.call.go cfg.client).map (fun r => { s with call := r.1, toServer := s.toServer ++ r.2 })
  | .timeout => some { s with call := { s.call with chan := rpcTimeout s.call.chan } }
  | .clientReceive k =>
    s.toClient[k]?.map (fun p => { s with call := { s.call with chan := rpcClientDispatch s.call.chan p } })
  -- `RpcServerAlloc` finds the server process bound to the channel
  | .serverReceive k =>
    s.toServer[k]?.map (fun p =>
      s.serve (s.srv.clearFree.input cfg.server p).1 s.proc (s.srv.clearFree.input cfg.server p).2)
  | .handOff =>
    if s.proc = .waiting ∧ s.srv.state.busy then some (s.serve s.srv.handOff .serving []) else none
  | .reply error storage =>
    if s.proc = .serving then
      let r := rpcReply cfg.server s.srv error storage
      some (s.serve r.1 .replied r.2)
    else none
  | .errorReply error =>
    if s.proc = .serving then
      let r := rpcErrorReply cfg.server s.srv error
      some (s.serve r.1 .replied r.2)
    else none
  | .loopTop noReply =>
    if s.proc = .waiting then none else some (s.serve (s.srv.loopTop noReply) .waiting [])
  | .reclaim serversMaxed =>
    let r := s.srv.reclaim cfg.maxServerAge serversMaxed
    some (s.serve r.1 s.proc (if r.2 then rpcProbe cfg.server r.1 else []))

def PairSystem.initial (self : Self) (serverID command : Int) (storage : RpcStorage) (ID : Nat)
    (chan : RpcClientChannel) (srv : RpcServerState) : PairSystem where
  call := ⟨rpcSetup self serverID command storage ID chan, .ready⟩
  srv := srv
  proc := .waiting
  toServer := []
  toClient := []

structure RpcHdr.IsReply (h : RpcHdr) : Prop where
  reply : h.has Flag.reply = true
  ack : h.has Flag.ack = false
  nack : h.has Flag.nack = false

/-- The server process knows nothing of the ID; for that of a reply `RpcServerDispatch` may make it 0. -/
structure RpcServerState.Unaware (srv : RpcServerState) (ID : Nat) : Prop where
  own : srv.ID ≠ ID
  request : srv.requestRpcHdr.ID ≠ ID
  reply : srv.replyRpcHdr.ID ≠ ID
  zero : ID = 0 → srv.replyRpcHdr.IsReply

/-- What goes out with a partial acknowledgment is one packet, or each is numbered as a fragment of the reply in
    hand. -/
def RpcClientChannel.AckCareful (cfg : CallConfig) (chan : RpcClientChannel) : Prop :=
  ∀ maxPacket, cfg.route = some maxPacket →
    uint32 (chan.requestRpcHdr.paramSize + chan.requestRpcHdr.dataSize) ≤ maxPacket - sizeofRpcHdr ∨
    ∀ j < (cutsOf (maxPacket - sizeofRpcHdr) chan.requestRpcHdr).length,
      fragID j &&& sendFragMask (marked cfg.host chan.partialAck.requestRpcHdr) chan.fragsDelivered
        (cutsOf (maxPacket - sizeofRpcHdr) chan.requestRpcHdr).length ≠ 0 → MaskLe (fragID j) chan.fragsReceived

/-- The step sends no partial acknowledgment that claims more than was received. -/
def PairSystem.Careful (cfg : PairConfig) (s : PairSystem) : PairLabel → Prop
  | .go =>
    (∃ error locals, s.call.stage = .asleep error locals) → s.call.chan.state.input = false →
      s.call.chan.state.fragmenting = true → s.call.chan.AckCareful cfg.client
  | _ => True

/-- What either side takes for delivered the other has; the server's is about the RPC once it has its ID. -/
structure AcksTruthful (ID : Nat) (s : PairSystem) : Prop where
  client : ∀ i, s.call.chan.fragsDelivered.getLsbD i = true → s.srv.ID = ID ∧ s.srv.fragsReceived.getLsbD i = true
  server : s.srv.ID = ID → MaskLe s.srv.fragsDelivered s.call.chan.fragsReceived

theorem MaskLe.refl (a : BitVec 32) : MaskLe a a := fun _ h => h

theorem MaskLe.zero (a : BitVec 32) : MaskLe 0 a := fun i h => by
  have hzero : (0 : BitVec 32).getLsbD i = false := BitVec.getLsbD_zero
  rw [hzero] at h
  cases h

theorem MaskLe.trans {a b c : BitVec 32} (h : MaskLe a b) (h' : MaskLe b c) : MaskLe a c := fun i hi => h' i (h i hi)

theorem MaskLe.or (a b : BitVec 32) : MaskLe a (a ||| b) := fun i hi => by
  rw [BitVec.getLsbD_or, hi, Bool.true_or]

theorem MaskLe.ne_zero {a b : BitVec 32} (h : MaskLe a b) (ha : a ≠ 0) : b ≠ 0 := by
  rintro rfl
  apply ha
  apply BitVec.eq_of_getLsbD_eq
  intro i hi
  have hzero : (0 : BitVec 32).getLsbD i = false := BitVec.getLsbD_zero
  rw [hzero, ← Bool.not_eq_true]
  intro hbit
  have hb := h i hbit
  rw [hzero] at hb
  cases hb

end SpriteKernel.Rpc
