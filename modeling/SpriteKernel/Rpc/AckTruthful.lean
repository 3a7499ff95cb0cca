import SpriteKernel.Rpc.PartialAck
import SpriteKernel.Rpc.ServerOwners

/- Partial acknowledgments tell the truth, in every run of careful steps. -/
namespace SpriteKernel.Rpc

open List Flag
open Machine Transition

section flags
variable {h h' : RpcHdr} {host : Host}

theorem SameMessage.isReply (hs : SameMessage host h h') (hr : h.IsReply) : h'.IsReply where
  reply := by rw [hs.has (by decide), hr.reply]
  ack := by rw [hs.has (by decide), hr.ack]
  nack := by rw [hs.has (by decide), hr.nack]

end flags

/-! What the server process sends. -/

/-- An answer to the RPC of that ID: an acknowledgment of fragments that are there, or a packet of the reply. -/
def Answers (ID : Nat) (srv : RpcServerState) (p : Packet) : Prop :=
  p.hdr.ID = ID → srv.ID = ID ∧
    (p.hdr.has Flag.ack = true ∧ p.hdr.numFrags = 0 ∧ MaskLe p.hdr.fragMask srv.fragsReceived ∨
      p.hdr.IsReply ∧ (p.hdr.numFrags ≠ 0 → p.hdr.fragMask ≠ 0))

/-- What the server process has of the RPC: a header with its ID is there only when it
    has taken the ID. -/
structure SlotOk (ID : Nat) (srv : RpcServerState) : Prop where
  request : srv.requestRpcHdr.ID = ID → srv.ID = ID
  reply : srv.replyRpcHdr.ID = ID → srv.ID = ID ∧ srv.replyRpcHdr.IsReply
  zero : ID = 0 → srv.replyRpcHdr.IsReply

section server
variable {ID : Nat} {cfg : ReplyConfig} {srv : RpcServerState}

/-- The routes take packets of the size that sixteen of them hold any message. -/
def ReplyConfig.RouteOk (cfg : ReplyConfig) : Prop :=
  ∀ clientID maxPacket, cfg.route clientID = some maxPacket → maxSize / maxNumFrags ≤ maxPacket - sizeofRpcHdr

theorem ack_answers (flags : BitVec 32) {mask : BitVec 32} {route : Option Nat} (hslot : SlotOk ID srv)
    (hmask : MaskLe mask srv.fragsReceived) {p : Packet}
    (hp : p ∈ outputPackets (rpcOutput cfg.host route (srv.ackRpcHdr cfg (flags ||| Flag.ack) mask) emptyMessage 0)) :
    Answers ID srv p := by
  rw [ack_whole hp]
  intro hID
  refine ⟨hslot.request hID, .inl ⟨?_, rfl, ?_⟩⟩
  · have hflags : (wholePacket cfg.host (marked cfg.host (srv.ackRpcHdr cfg (flags ||| Flag.ack) mask)) emptyMessage).hdr.has
        Flag.ack = (srv.ackRpcHdr cfg (flags ||| Flag.ack) mask).has Flag.ack :=
      has_of_flags rfl (marks_and cfg.host (by decide))
    rw [hflags]
    show (flags ||| Flag.ack) &&& Flag.ack != 0
    have hor : (flags ||| Flag.ack) &&& Flag.ack = Flag.ack := by
      apply BitVec.eq_of_getLsbD_eq
      intro i hi
      rw [BitVec.getLsbD_and, BitVec.getLsbD_or]
      cases flags.getLsbD i <;> cases Flag.ack.getLsbD i <;> rfl
    rw [hor]
    decide
  · show MaskLe (if _ = Flag.ack then mask else 0) srv.fragsReceived
    split
    · exact hmask
    · exact MaskLe.zero _

theorem output_answers (hroute : cfg.RouteOk) (hslot : SlotOk ID srv) {mask : BitVec 32} {p : Packet}
    (hp : p ∈ (srv.output cfg mask).2) : Answers ID srv p := by
  rw [RpcServerState.output] at hp
  cases hout : rpcOutput cfg.host (cfg.route srv.replyRpcHdr.clientID) srv.replyRpcHdr srv.reply mask with
  | error e =>
    rw [hout] at hp
    exact absurd hp not_mem_nil
  | ok r =>
    rw [hout] at hp
    have hsame := (emitted_same hout).2 p hp
    intro hID
    obtain ⟨hown, hreply⟩ := hslot.reply (hsame.ID ▸ hID)
    refine ⟨hown, .inr ⟨hsame.isReply hreply, fun hnum => ?_⟩⟩
    obtain ⟨maxPacket, hmax, ⟨-, -, hpkts⟩ | ⟨-, hparam, hdata, -, hall⟩⟩ := emitted hout
    · rw [hpkts] at hp
      rw [mem_singleton.1 hp] at hnum
      exact absurd rfl hnum
    · obtain ⟨j, hj, rfl, -⟩ := hall p hp
      have hlen := length_cutsOf_le (hroute _ maxPacket hmax) hparam hdata
      intro hzero
      have hbit : (fragID j).getLsbD j = false := by
        rw [show fragID j = 0 from hzero]
        exact BitVec.getLsbD_zero
      rw [fragID_getLsbD (by omega), decide_eq_true rfl] at hbit
      nomatch hbit

theorem output_srv (cfg : ReplyConfig) (srv : RpcServerState) (mask : BitVec 32) :
    ∃ hdr, (srv.output cfg mask).1 = { srv with replyRpcHdr := hdr } ∧ SameMessage cfg.host srv.replyRpcHdr hdr := by
  rw [RpcServerState.output]
  cases hout : rpcOutput cfg.host (cfg.route srv.replyRpcHdr.clientID) srv.replyRpcHdr srv.reply mask with
  | error e => exact ⟨_, rfl, rfl, rfl, rfl, rfl, rfl, rfl, rfl, rfl⟩
  | ok r => exact ⟨r.1, rfl, (emitted_same hout).1⟩

theorem SlotOk.marked (hslot : SlotOk ID srv) {hdr : RpcHdr} (hs : SameMessage cfg.host srv.replyRpcHdr hdr) :
    SlotOk ID { srv with replyRpcHdr := hdr } where
  request := hslot.request
  reply := fun hID => by
    obtain ⟨hown, hreply⟩ := hslot.reply (hs.ID ▸ hID)
    exact ⟨hown, hs.isReply hreply⟩
  zero := fun h0 => hs.isReply (hslot.zero h0)

theorem perform_answers (hroute : cfg.RouteOk) : ∀ (actions : List Action) {srv : RpcServerState}, SlotOk ID srv →
    (∃ hdr, (srv.performAll cfg actions).1 = { srv with replyRpcHdr := hdr }) ∧
    SlotOk ID (srv.performAll cfg actions).1 ∧ ∀ p ∈ (srv.performAll cfg actions).2, Answers ID srv p
  | [], srv, hslot => ⟨⟨srv.replyRpcHdr, rfl⟩, hslot, fun _ hp => absurd hp not_mem_nil⟩
  | a :: as, srv, hslot => by
    have hfirst : (∃ hdr, (srv.perform cfg a).1 = { srv with replyRpcHdr := hdr }) ∧ SlotOk ID (srv.perform cfg a).1 ∧
        ∀ p ∈ (srv.perform cfg a).2, Answers ID srv p := by
      cases a with
      | ack flags => exact ⟨⟨srv.replyRpcHdr, rfl⟩, hslot, fun p hp => ack_answers flags hslot (MaskLe.refl _) hp⟩
      | wakeup => exact ⟨⟨srv.replyRpcHdr, rfl⟩, hslot, fun _ hp => absurd hp not_mem_nil⟩
      | resend =>
        show (∃ hdr, (rpcResend cfg srv).1 = { srv with replyRpcHdr := hdr }) ∧ SlotOk ID (rpcResend cfg srv).1 ∧
          ∀ p ∈ (rpcResend cfg srv).2, Answers ID srv p
        rw [rpcResend]
        split
        · exact ⟨⟨srv.replyRpcHdr, rfl⟩, hslot, fun _ hp => absurd hp not_mem_nil⟩
        · obtain ⟨hdr, heq, hs⟩ := output_srv cfg srv srv.fragsDelivered
          exact ⟨⟨hdr, heq⟩, heq ▸ hslot.marked hs, fun p hp => output_answers hroute hslot hp⟩
    obtain ⟨⟨hdr, heq⟩, hslot', hpackets⟩ := hfirst
    obtain ⟨⟨hdr', heq'⟩, hslot'', hpackets'⟩ := perform_answers hroute as hslot'
    rw [RpcServerState.performAll]
    refine ⟨⟨hdr', ?_⟩, hslot'', fun p hp => ?_⟩
    · show ((srv.perform cfg a).1.performAll cfg as).1 = _
      rw [heq', heq]
    · rcases mem_append.1 hp with hp | hp
      · exact hpackets p hp
      · have hans := hpackets' p hp
        rw [heq] at hans
        exact hans

theorem probe_answers (hslot : SlotOk ID srv) {p : Packet} (hp : p ∈ rpcProbe cfg srv) : Answers ID srv p :=
  ack_answers Flag.close hslot (MaskLe.zero _) hp

theorem reply_answers (hroute : cfg.RouteOk) (hslot : SlotOk ID srv) (error : Int) (storage : Message) :
    (∃ hdr, (rpcReply cfg srv error storage).1 = { srv with replyRpcHdr := hdr, reply := storage }) ∧
    SlotOk ID (rpcReply cfg srv error storage).1 ∧ ∀ p ∈ (rpcReply cfg srv error storage).2, Answers ID srv p := by
  have hreply : (srv.replyHdr cfg error storage.paramLength storage.dataLength).IsReply := by
    have hflags : (srv.replyHdr cfg error storage.paramLength storage.dataLength).flags =
        Flag.reply ||| (if error ≠ 0 then Flag.error else 0) := rfl
    constructor
    case reply =>
      rw [RpcHdr.has, hflags]
      split <;> decide
    case ack =>
      rw [RpcHdr.has, hflags]
      split <;> decide
    case nack =>
      rw [RpcHdr.has, hflags]
      split <;> decide
  have hslot' : SlotOk ID { srv with
      replyRpcHdr := srv.replyHdr cfg error storage.paramLength storage.dataLength, reply := storage } :=
    ⟨hslot.request, fun hID => ⟨hslot.request hID, hreply⟩, fun _ => hreply⟩
  obtain ⟨hdr, heq, hs⟩ := output_srv cfg { srv with
    replyRpcHdr := srv.replyHdr cfg error storage.paramLength storage.dataLength, reply := storage } 0
  refine ⟨⟨hdr, heq⟩, ?_, fun p hp => output_answers hroute hslot' hp⟩
  rw [rpcReply, heq]
  exact hslot'.marked hs

end server

/-! The invariant. -/

/-- While the client waits no input is pending; a reply is put together only after a fragment, and then is there. -/
structure CallOk (ID : Nat) (call : ClientCall) : Prop where
  own : call.chan.requestRpcHdr.ID = ID
  ready : call.stage = .ready → call.chan.state.input = false ∧ call.chan.fragsReceived = 0
  running : ∀ error locals, call.stage.Running error locals → call.chan.state.waiting = !call.chan.state.input
  resting : (∀ error locals, ¬ call.stage.Running error locals) → call.chan.state.waiting = false
  collecting : call.chan.state.waiting = true → call.chan.state.fragmenting = false → call.chan.fragsReceived = 0
  fragmenting : call.chan.state.fragmenting = true → call.chan.fragsReceived ≠ 0
  whole : call.chan.state.input = true → call.chan.state.fragmenting = false → call.chan.fragsReceived ≠ 0 →
    call.chan.replyRpcHdr.ID = ID ∧ call.chan.replyRpcHdr.IsReply
  acked : call.chan.requestRpcHdr.has Flag.ack = true → call.chan.fragsReceived ≠ 0

structure PairInv (ID : Nat) (s : PairSystem) : Prop where
  call : CallOk ID s.call
  slot : SlotOk ID s.srv
  known : s.call.chan.fragsReceived ≠ 0 → s.srv.ID = ID
  truthful : AcksTruthful ID s
  toServer : ∀ p ∈ s.toServer, p.hdr.ID = ID ∧
    (p.hdr.has Flag.ack = true → s.srv.ID = ID ∧ MaskLe p.hdr.fragMask s.call.chan.fragsReceived)
  toClient : ∀ p ∈ s.toClient, Answers ID s.srv p

section client
variable {ID : Nat} {cfg : CallConfig}

/-- The request is sent: what becomes of the channel and what goes out. -/
theorem send_cases (cfg : CallConfig) (chan : RpcClientChannel) :
    (∃ hdr, (chan.send cfg).1 = { chan with requestRpcHdr := hdr } ∧ SameMessage cfg.host chan.requestRpcHdr hdr) ∧
    ∀ p ∈ (chan.send cfg).2.1, SameMessage cfg.host chan.requestRpcHdr p.hdr ∧
      (MaskLe p.hdr.fragMask chan.requestRpcHdr.fragMask ∨
        ∃ maxPacket, cfg.route = some maxPacket ∧
          maxPacket - sizeofRpcHdr < uint32 (chan.requestRpcHdr.paramSize + chan.requestRpcHdr.dataSize) ∧
          ∃ j < (cutsOf (maxPacket - sizeofRpcHdr) chan.requestRpcHdr).length, p.hdr.fragMask = fragID j ∧
            fragID j &&& sendFragMask (marked cfg.host chan.requestRpcHdr) chan.fragsDelivered
              (cutsOf (maxPacket - sizeofRpcHdr) chan.requestRpcHdr).length ≠ 0) := by
  rw [RpcClientChannel.send]
  cases hout : rpcOutput cfg.host cfg.route chan.requestRpcHdr chan.request chan.fragsDelivered with
  | error e => exact ⟨⟨_, rfl, rfl, rfl, rfl, rfl, rfl, rfl, rfl, rfl⟩, fun _ hp => absurd hp not_mem_nil⟩
  | ok r =>
    refine ⟨⟨r.1, rfl, (emitted_same hout).1⟩, fun p hp => ⟨(emitted_same hout).2 p hp, ?_⟩⟩
    obtain ⟨maxPacket, hmax, ⟨-, -, hpkts⟩ | ⟨hbig, -, -, -, hall⟩⟩ := emitted hout
    · left
      have hp' : p ∈ r.2 := hp
      rw [hpkts] at hp'
      rw [mem_singleton.1 hp']
      show MaskLe (if _ = Flag.ack then chan.requestRpcHdr.fragMask else 0) _
      split
      · exact MaskLe.refl _
      · exact MaskLe.zero _
    · obtain ⟨j, hj, rfl, hsent⟩ := hall p hp
      exact .inr ⟨maxPacket, hmax, hbig, j, hj, rfl, hsent⟩

/-- The bits of the state word that the process sets, and the flags of its request. -/
theorem send_chan (cfg : CallConfig) (chan : RpcClientChannel) :
    (chan.send cfg).1.state = chan.state ∧ ∀ f, markBits &&& f = 0 →
      (chan.send cfg).1.requestRpcHdr.has f = chan.requestRpcHdr.has f := by
  obtain ⟨⟨hdr, heq, hs⟩, -⟩ := send_cases cfg chan
  rw [heq]
  exact ⟨rfl, fun f hf => hs.has hf⟩

theorem not_running_ready {call : ClientCall} (h : call.stage = .ready) (error : RpcStatus) (locals : CallLocals) :
    ¬ call.stage.Running error locals := by
  rw [h]
  rintro (⟨first, hno⟩ | hno)
  · nomatch hno
  · nomatch hno

theorem not_running_done {stage : CallStage} {status : RpcStatus} (h : stage = .done status) (error : RpcStatus)
    (locals : CallLocals) : ¬ stage.Running error locals := by
  rw [h]
  rintro (⟨first, hno⟩ | hno)
  · nomatch hno
  · nomatch hno

/-- A process in the loop sends, or sleeps, with no input pending and the channel waiting. -/
theorem callOk_running {call call' : ClientCall} (h : CallOk ID call) (hl : Leaves call.chan call'.chan)
    (hstage : ∃ error locals, call'.stage.Running error locals) (hinput : call'.chan.state.input = false)
    (hwaiting : call'.chan.state.waiting = true)
    (hcollecting : call.chan.state.fragmenting = false → call.chan.fragsReceived = 0)
    (hacked : call'.chan.requestRpcHdr.has Flag.ack = true → call.chan.fragsReceived ≠ 0) : CallOk ID call' where
  own := hl.ID.trans h.own
  ready := fun hr => by
    obtain ⟨error, locals, hrun⟩ := hstage
    exact absurd hrun (not_running_ready hr error locals)
  running := fun _ _ _ => by rw [hinput, hwaiting]; rfl
  resting := fun hno => by
    obtain ⟨error, locals, hrun⟩ := hstage
    exact absurd hrun (hno error locals)
  collecting := fun _ hf => by
    rw [hl.fragsReceived]
    exact hcollecting (hl.fragmenting ▸ hf)
  fragmenting := fun hf => by
    rw [hl.fragsReceived]
    exact h.fragmenting (hl.fragmenting ▸ hf)
  whole := fun hi => absurd hi (by rw [hinput]; exact Bool.false_ne_true)
  acked := fun ha => by
    rw [hl.fragsReceived]
    exact hacked ha

theorem callOk_done {call call' : ClientCall} (h : CallOk ID call) (hl : Leaves call.chan call'.chan)
    {status : RpcStatus} (hstage : call'.stage = .done status) (hwaiting : call'.chan.state.waiting = false)
    (hinput : call'.chan.state.input = true → call.chan.state.input = true)
    (hacked : call'.chan.requestRpcHdr.has Flag.ack = call.chan.requestRpcHdr.has Flag.ack) : CallOk ID call' where
  own := hl.ID.trans h.own
  ready := fun hr => nomatch hr.symm.trans hstage
  running := fun error locals hrun => absurd hrun (not_running_done hstage error locals)
  resting := fun _ => hwaiting
  collecting := fun hw => absurd hw (by rw [hwaiting]; exact Bool.false_ne_true)
  fragmenting := fun hf => by
    rw [hl.fragsReceived]
    exact h.fragmenting (hl.fragmenting ▸ hf)
  whole := fun hi hf hr => by
    rw [RpcClientChannel.replyRpcHdr, hl.reply]
    exact h.whole (hinput hi) (hl.fragmenting ▸ hf) (hl.fragsReceived ▸ hr)
  acked := fun ha => by
    rw [hl.fragsReceived]
    exact h.acked (hacked ▸ ha)

theorem CallOk.waits {call : ClientCall} (h : CallOk ID call) {error : RpcStatus} {locals : CallLocals}
    (hrun : call.stage.Running error locals) (hinput : call.chan.state.input = false) :
    call.chan.state.waiting = true := by
  rw [h.running error locals hrun, hinput]
  rfl

theorem CallOk.again_zero {call : ClientCall} (h : CallOk ID call) {locals locals' : CallLocals}
    (hinput : call.chan.state.input = true) (hidle : call.chan.state.fragmenting = false)
    (hagain : call.chan.clearInput.processInput cfg locals = .again locals') : call.chan.fragsReceived = 0 := by
  by_contra hne
  obtain ⟨hID, hreply⟩ := h.whole hinput hidle hne
  have hown : call.chan.clearInput.replyRpcHdr.ID = call.chan.clearInput.requestRpcHdr.ID := hID.trans h.own.symm
  have hnack : ¬ call.chan.clearInput.replyRpcHdr.has nack = true := by
    show ¬ call.chan.replyRpcHdr.has nack = true
    rw [hreply.nack]
    exact Bool.false_ne_true
  have hrep : call.chan.clearInput.replyRpcHdr.has Flag.reply = true := hreply.reply
  rw [RpcClientChannel.processInput, if_neg (not_not_intro hown), if_neg hnack, if_pos hrep] at hagain
  nomatch hagain

theorem callOk_went {call call' : ClientCall} {packets : List Packet} (h : CallOk ID call)
    (hw : Went cfg call call' packets) : CallOk ID call' := by
  have hl := went_leaves hw
  cases hw with
  | began hstage hchan hstage' =>
    obtain ⟨hinput, hzero⟩ := h.ready hstage
    obtain ⟨hstate, hflags⟩ := send_chan cfg call.chan.start
    obtain ⟨error, hstage'⟩ := hstage'
    refine callOk_running h hl ⟨error, {}, .inl ⟨true, hstage'⟩⟩ ?_ ?_ (fun _ => hzero) (fun ha => h.acked ?_)
    · rw [hchan, hstate]
      exact hinput
    · rw [hchan, hstate]
      rfl
    · rw [hchan, hflags Flag.ack (by decide)] at ha
      exact ha
  | slept error locals hstage hinput hchan hstage' =>
    refine callOk_running h hl ⟨error, locals, .inr hstage'⟩ ?_ ?_ (h.collecting (h.waits hstage hinput)) (fun ha => h.acked ?_)
    · rw [hchan]
      exact hinput
    · rw [hchan]
      rfl
    · rw [hchan] at ha
      exact ha
  | again error locals locals' hstage hinput hagain hchan hstage' =>
    refine callOk_running h hl ⟨error, locals', .inr hstage'⟩ ?_ ?_ (fun hf => h.again_zero hinput hf hagain) (fun ha => h.acked ?_)
    · rw [hchan]
      rfl
    · rw [hchan]
      rfl
    · rw [hchan] at ha
      exact ha
  | returned error locals status hstage hinput hreturn hchan hstage' =>
    refine callOk_done h hl hstage' ?_ (fun _ => hinput) ?_
    · rw [hchan]
      rfl
    · rw [hchan]
      rfl
  | failed error locals status hstage hstatus hchan hstage' =>
    simp only [mem_cons, not_mem_nil, or_false] at hchan
    rcases hchan with hchan | hchan | hchan
    · exact callOk_done h hl hstage' (by rw [hchan]; rfl) (fun hi => by rw [hchan] at hi; exact hi) (by rw [hchan]; rfl)
    · exact callOk_done h hl hstage' (by rw [hchan]; rfl) (fun hi => by rw [hchan] at hi; nomatch hi)
        (by rw [hchan]; rfl)
    · exact callOk_done h hl hstage' (by rw [hchan]; rfl) (fun hi => by rw [hchan] at hi; exact hi) (by rw [hchan]; rfl)
  | resent error locals hstage hinput hidle hchan hstage' =>
    have hwaits := h.waits (.inr hstage) hinput
    obtain ⟨hstate, hflags⟩ := send_chan cfg call.chan.takeHint.resend
    obtain ⟨error', locals', hstage'⟩ := hstage'
    refine callOk_running h hl ⟨error', locals', .inl ⟨false, hstage'⟩⟩ ?_ ?_ (h.collecting hwaits) (fun ha => h.acked ?_)
    · rw [hchan, hstate]
      exact hinput
    · rw [hchan, hstate]
      exact hwaits
    · rw [hchan, hflags Flag.ack (by decide), has_resend] at ha
      exact ha
  | acked error locals hstage hinput hfragmenting hchan hstage' =>
    have hwaits := h.waits (.inr hstage) hinput
    obtain ⟨hstate, -⟩ := send_chan cfg call.chan.takeHint.partialAck
    obtain ⟨error', locals', hstage'⟩ := hstage'
    refine callOk_running h hl ⟨error', locals', .inl ⟨false, hstage'⟩⟩ ?_ ?_ (h.collecting hwaits)
      (fun _ => h.fragmenting hfragmenting)
    · rw [hchan, hstate]
      exact hinput
    · rw [hchan, hstate]
      exact hwaits

theorem went_packets {call call' : ClientCall} {packets : List Packet} (h : CallOk ID call)
    (hcare : (∃ error locals, call.stage = .asleep error locals) → call.chan.state.input = false →
      call.chan.state.fragmenting = true → call.chan.AckCareful cfg)
    (hw : Went cfg call call' packets) : ∀ p ∈ packets, p.hdr.ID = ID ∧
      (p.hdr.has Flag.ack = true → call.chan.fragsReceived ≠ 0 ∧ MaskLe p.hdr.fragMask call.chan.fragsReceived) := by
  intro p hp
  cases hw with
  | began hstage hchan hstage' hpackets =>
    rw [hpackets] at hp
    obtain ⟨hs, -⟩ := (send_cases cfg call.chan.start).2 p hp
    refine ⟨hs.ID.trans h.own, fun ha => ?_⟩
    have hack : call.chan.requestRpcHdr.has Flag.ack = true := by
      rw [hs.has (by decide)] at ha
      exact ha
    exact absurd (h.ready hstage).2 (h.acked hack)
  | slept _ _ _ _ _ _ hpackets => exact absurd (hpackets ▸ hp) not_mem_nil
  | again _ _ _ _ _ _ _ _ hpackets => exact absurd (hpackets ▸ hp) not_mem_nil
  | returned _ _ _ _ _ _ _ _ hpackets => exact absurd (hpackets ▸ hp) not_mem_nil
  | failed _ _ _ _ _ _ _ hpackets => exact absurd (hpackets ▸ hp) not_mem_nil
  | resent error locals hstage hinput hidle hchan hstage' hpackets =>
    rw [hpackets] at hp
    obtain ⟨hs, -⟩ := (send_cases cfg call.chan.takeHint.resend).2 p hp
    refine ⟨hs.ID.trans h.own, fun ha => ?_⟩
    have hack : call.chan.requestRpcHdr.has Flag.ack = true := by
      rw [hs.has (by decide), has_resend] at ha
      exact ha
    exact absurd (h.collecting (h.waits (.inr hstage) hinput) hidle) (h.acked hack)
  | acked error locals hstage hinput hfragmenting hchan hstage' hpackets =>
    rw [hpackets] at hp
    obtain ⟨hs, hmask⟩ := (send_cases cfg call.chan.takeHint.partialAck).2 p hp
    refine ⟨hs.ID.trans h.own, fun _ => ⟨h.fragmenting hfragmenting, ?_⟩⟩
    rcases hmask with hmask | ⟨maxPacket, hmax, hbig, j, hj, hj', hsent⟩
    · exact hmask
    · rcases hcare ⟨error, locals, hstage⟩ hinput hfragmenting maxPacket hmax with hfits | hcare
      · exact absurd hbig (not_lt.2 hfits)
      · rw [hj']
        exact hcare j hj hsent

/-- A packet arrives: the client stays in order, its mask only grows, and the server has what it takes for delivered. -/
theorem callOk_arrived {call : ClientCall} {srv : RpcServerState} (h : CallOk ID call) {p : Packet}
    (hans : Answers ID srv p)
    (hdelivered : ∀ i, call.chan.fragsDelivered.getLsbD i = true → srv.ID = ID ∧ srv.fragsReceived.getLsbD i = true) :
    CallOk ID { call with chan := rpcClientDispatch call.chan p } ∧
    MaskLe call.chan.fragsReceived (rpcClientDispatch call.chan p).fragsReceived ∧
    ((rpcClientDispatch call.chan p).fragsReceived ≠ call.chan.fragsReceived → srv.ID = ID) ∧
    ∀ i, (rpcClientDispatch call.chan p).fragsDelivered.getLsbD i = true →
      srv.ID = ID ∧ srv.fragsReceived.getLsbD i = true := by
  have hreply : p.hdr.ID = call.chan.requestRpcHdr.ID → p.hdr.numFrags ≠ 0 →
      srv.ID = ID ∧ p.hdr.IsReply ∧ p.hdr.fragMask ≠ 0 := by
    intro hID hnum
    obtain ⟨hown, ⟨-, hzero, -⟩ | ⟨hr, hmask⟩⟩ := hans (hID.trans h.own)
    · exact absurd hzero hnum
    · exact ⟨hown, hr, hmask hnum⟩
  -- a channel that waits is in the loop
  have hrun : call.chan.state.waiting = true → ∃ error locals, call.stage.Running error locals := by
    intro hw
    by_contra hno
    push Not at hno
    rw [h.resting hno] at hw
    cases hw
  have hnoinput : call.chan.state.waiting = true → call.chan.state.input = false := by
    intro hw
    obtain ⟨error, locals, hr⟩ := hrun hw
    have heq := h.running error locals hr
    rw [hw] at heq
    simpa using heq.symm
  have hnotready : call.chan.state.waiting = true → call.stage ≠ .ready := by
    intro hw hready
    obtain ⟨error, locals, hr⟩ := hrun hw
    exact not_running_ready hready error locals hr
  cases arrived call.chan p with
  | ignored hchan =>
    rw [hchan]
    exact ⟨h, MaskLe.refl _, fun hne => absurd rfl hne, hdelivered⟩
  | partialAck hID hmask hack hchan =>
    rw [hchan]
    refine ⟨⟨h.own, h.ready, h.running, h.resting, h.collecting, h.fragmenting, h.whole, h.acked⟩, MaskLe.refl _,
      fun hne => absurd rfl hne, fun i hi => ?_⟩
    obtain ⟨hown, ⟨-, -, hle⟩ | ⟨hr, -⟩⟩ := hans (hID.trans h.own)
    · exact ⟨hown, hle i hi⟩
    · rw [hr.ack] at hack
      cases hack
  | first hID hwaiting hnum hidle hchan =>
    rw [hchan]
    obtain ⟨hown, hr, hne⟩ := hreply hID hnum
    have hzero := h.collecting hwaiting hidle
    refine ⟨⟨h.own, fun hs => absurd hs (hnotready hwaiting), h.running, h.resting, fun _ hf => (by cases hf), fun _ => hne,
      fun hi => ?_, fun _ => hne⟩, ?_, fun _ => hown, hdelivered⟩
    · exact absurd (show call.chan.state.input = true from hi) (by rw [hnoinput hwaiting]; exact Bool.false_ne_true)
    · rw [hzero]
      exact MaskLe.zero _
  | repeated hID hwaiting hnum hfragmenting hold hchan =>
    rw [hchan]
    exact ⟨⟨h.own, h.ready, h.running, h.resting, h.collecting, h.fragmenting, h.whole, h.acked⟩, MaskLe.refl _,
      fun hne => absurd rfl hne, hdelivered⟩
  | more hID hwaiting hnum hfragmenting hnew hpart hchan =>
    rw [hchan]
    obtain ⟨hown, hr, hne⟩ := hreply hID hnum
    have hle := MaskLe.or call.chan.fragsReceived p.hdr.fragMask
    have hne' := hle.ne_zero (h.fragmenting hfragmenting)
    refine ⟨⟨h.own, fun hs => absurd hs (hnotready hwaiting), h.running, h.resting,
      fun _ hf => absurd hf (by show ¬ call.chan.state.fragmenting = false; rw [hfragmenting]; decide), fun _ => hne',
      fun hi => ?_, fun _ => hne'⟩, hle, fun _ => hown, hdelivered⟩
    exact absurd (show call.chan.state.input = true from hi) (by rw [hnoinput hwaiting]; exact Bool.false_ne_true)
  | last hID hwaiting hnum hfragmenting hnew hfull hchan =>
    rw [hchan]
    obtain ⟨hown, hr, hne⟩ := hreply hID hnum
    have hle := MaskLe.or call.chan.fragsReceived p.hdr.fragMask
    have hne' := hle.ne_zero (h.fragmenting hfragmenting)
    refine ⟨⟨h.own, fun hs => absurd hs (hnotready hwaiting), fun _ _ _ => rfl, fun _ => rfl, fun hw => (by cases hw),
      fun hf => (by cases hf), fun _ _ _ => ⟨hID.trans h.own, hr⟩, fun _ => hne'⟩, hle, fun _ => hown, hdelivered⟩
  | whole hID hwaiting hnum hchan =>
    rw [hchan]
    refine ⟨⟨h.own, fun hs => absurd hs (hnotready hwaiting), fun _ _ _ => rfl, fun _ => rfl, fun hw => (by cases hw),
      h.fragmenting, fun _ hf hne => absurd (h.collecting hwaiting hf) hne, h.acked⟩, MaskLe.refl _,
      fun hne => absurd rfl hne, hdelivered⟩

end client

/-! The steps. -/

section steps
variable {ID : Nat} {cfg : PairConfig} {s : PairSystem}

theorem pairInv_serve (h : PairInv ID s) {srv : RpcServerState} {proc : ServerProc} {packets : List Packet}
    (hID : s.srv.ID = ID → srv.ID = ID) (hreceived : s.srv.ID = ID → MaskLe s.srv.fragsReceived srv.fragsReceived)
    (hdelivered : srv.ID = ID → MaskLe srv.fragsDelivered s.call.chan.fragsReceived) (hslot : SlotOk ID srv)
    (hpackets : ∀ p ∈ packets, Answers ID srv p) : PairInv ID (s.serve srv proc packets) where
  call := h.call
  slot := hslot
  known := fun hne => hID (h.known hne)
  truthful :=
    { client := fun i hi => by
        obtain ⟨hown, hbit⟩ := h.truthful.client i hi
        exact ⟨hID hown, hreceived hown i hbit⟩
      server := hdelivered }
  toServer := fun p hp => by
    obtain ⟨hown, hack⟩ := h.toServer p hp
    exact ⟨hown, fun ha => ⟨hID (hack ha).1, (hack ha).2⟩⟩
  toClient := fun p hp => by
    rcases mem_append.1 hp with hp | hp
    · intro hpID
      obtain ⟨hown, hans⟩ := h.toClient p hp hpID
      refine ⟨hID hown, hans.imp ?_ id⟩
      rintro ⟨ha, hnum, hmask⟩
      exact ⟨ha, hnum, hmask.trans (hreceived hown)⟩
    · exact hpackets p hp

/-- A change of the state word and the age is no change of what is known. -/
theorem pairInv_state (h : PairInv ID s) {srv : RpcServerState} {proc : ServerProc} {packets : List Packet}
    (hsrv : ∃ state age, srv = { s.srv with state := state, age := age }) (hpackets : ∀ p ∈ packets, Answers ID srv p) :
    PairInv ID (s.serve srv proc packets) := by
  obtain ⟨state, age, rfl⟩ := hsrv
  exact pairInv_serve h id (fun _ => MaskLe.refl _) h.truthful.server ⟨h.slot.request, h.slot.reply, h.slot.zero⟩ hpackets

theorem pairInv_receive (hroute : cfg.server.RouteOk) (h : PairInv ID s) {p : Packet} (hp : p ∈ s.toServer) :
    PairInv ID (s.serve (s.srv.clearFree.input cfg.server p).1 s.proc (s.srv.clearFree.input cfg.server p).2) := by
  obtain ⟨hpID, hack⟩ := h.toServer p hp
  have hd := dispatched s.srv.clearFree p
  have hr := dispatched_replies s.srv.clearFree p
  rw [RpcServerState.input]
  generalize rpcServerDispatch s.srv.clearFree p = r at hd hr
  -- what the dispatcher leaves
  have hstep : (s.srv.ID = ID → r.1.ID = ID) ∧ (s.srv.ID = ID → MaskLe s.srv.fragsReceived r.1.fragsReceived) ∧
      (r.1.requestRpcHdr.ID = ID → r.1.ID = ID) := by
    have hkeeps : s.srv.clearFree.Keeps r.1 → r.1.ID = s.srv.ID ∧ (r.1.requestRpcHdr.ID = ID → r.1.ID = ID) := by
      intro hk
      refine ⟨hk.ID, fun hreq => ?_⟩
      rw [hk.ID]
      apply h.slot.request
      rw [RpcServerState.requestRpcHdr, hk.request] at hreq
      exact hreq
    have hother : p.hdr.ID ≠ s.srv.clearFree.ID → ¬ s.srv.ID = ID := fun hne heq => hne (hpID.trans heq.symm)
    cases hd with
    | stuck hne _ _ hk =>
      exact ⟨fun heq => absurd heq (hother hne), fun heq => absurd heq (hother hne), (hkeeps hk).2⟩
    | whole hne _ _ _ _ _ ht =>
      exact ⟨fun heq => absurd heq (hother hne), fun heq => absurd heq (hother hne), fun _ => ht.ID.trans hpID⟩
    | first hne _ _ _ _ _ ht =>
      exact ⟨fun heq => absurd heq (hother hne), fun heq => absurd heq (hother hne), fun _ => ht.ID.trans hpID⟩
    | more _ _ _ _ _ _ _ hfrags _ ht =>
      exact ⟨fun _ => ht.ID.trans hpID, fun _ => by rw [hfrags]; exact MaskLe.or _ _, fun _ => ht.ID.trans hpID⟩
    | discard _ _ _ hk hfrags =>
      exact ⟨fun heq => (hkeeps hk).1.trans heq, fun _ => by rw [hfrags]; exact MaskLe.refl _, (hkeeps hk).2⟩
    | closed _ _ _ _ _ hk hfrags =>
      exact ⟨fun heq => (hkeeps hk).1.trans heq, fun _ => by rw [hfrags]; exact MaskLe.refl _, (hkeeps hk).2⟩
    | acked _ _ _ _ _ hk hfrags =>
      exact ⟨fun heq => (hkeeps hk).1.trans heq, fun _ => by rw [hfrags]; exact MaskLe.refl _, (hkeeps hk).2⟩
    | again _ _ _ _ _ hk hfrags =>
      exact ⟨fun heq => (hkeeps hk).1.trans heq, fun _ => by rw [hfrags]; exact MaskLe.refl _, (hkeeps hk).2⟩
    | reset _ _ _ _ hk hfrags =>
      exact ⟨fun heq => (hkeeps hk).1.trans heq, fun _ => by rw [hfrags]; exact MaskLe.refl _, (hkeeps hk).2⟩
  obtain ⟨hID, hreceived, hrequest⟩ := hstep
  -- the server has the ID only from a packet that has it, or had it before
  have hslot : SlotOk ID r.1 := by
    refine ⟨hrequest, fun hrep => ?_, fun h0 => ?_⟩
    · rcases hr.replyRpcHdr with heq | ⟨hsame, heq⟩
      · rw [heq] at hrep ⊢
        obtain ⟨hown, hreply⟩ := h.slot.reply hrep
        exact ⟨hID hown, hreply⟩
      · rw [heq] at hrep ⊢
        have hzero := h.slot.zero hrep.symm
        exact ⟨hID (hsame.symm.trans hpID), ⟨hzero.reply, hzero.ack, hzero.nack⟩⟩
    · rcases hr.replyRpcHdr with heq | ⟨-, heq⟩
      · rw [heq]
        exact h.slot.zero h0
      · rw [heq]
        have hzero := h.slot.zero h0
        exact ⟨hzero.reply, hzero.ack, hzero.nack⟩
  have hdelivered : r.1.ID = ID → MaskLe r.1.fragsDelivered s.call.chan.fragsReceived := by
    intro hown
    rcases hr.delivered with heq | ⟨-, heq⟩ | ⟨hsame, hpack, heq⟩
    · rw [heq]
      by_cases hbefore : s.srv.ID = ID
      · exact h.truthful.server hbefore
      · have hne : p.hdr.ID ≠ s.srv.clearFree.ID := fun heq' => hbefore (heq'.symm.trans hpID)
        cases hd with
        | stuck _ _ _ hk => exact absurd (hk.ID.symm.trans hown) hbefore
        | whole _ _ _ _ hzero =>
          rw [← heq, hzero]
          exact MaskLe.zero _
        | first _ _ _ _ hzero =>
          rw [← heq, hzero]
          exact MaskLe.zero _
        | discard hsame => exact absurd hsame hne
        | closed hsame => exact absurd hsame hne
        | acked hsame => exact absurd hsame hne
        | again hsame => exact absurd hsame hne
        | more hsame => exact absurd hsame hne
        | reset hsame => exact absurd hsame hne
    · rw [heq]
      exact MaskLe.zero _
    · rw [heq]
      exact (hack hpack).2
  obtain ⟨⟨hdr, heq⟩, hslot', hpackets⟩ := perform_answers hroute r.2 hslot
  rw [heq] at hslot' ⊢
  exact pairInv_serve h hID hreceived hdelivered hslot' hpackets

theorem pairInv_of_step (hroute : cfg.server.RouteOk) (h : PairInv ID s) {l : PairLabel} {s' : PairSystem}
    (hcare : s.Careful cfg l) (hs : s.step cfg l = some s') : PairInv ID s' := by
  cases l with
  | go =>
    obtain ⟨r, hr, rfl⟩ := Option.map_eq_some_iff.1 hs
    have hw := went hr
    have hl := went_leaves hw
    have hpackets := went_packets h.call hcare hw
    exact {
      call := callOk_went h.call hw
      slot := h.slot
      known := fun hne => h.known (by rwa [← hl.fragsReceived])
      truthful :=
        { client := fun i hi => h.truthful.client i (by rwa [← hl.fragsDelivered])
          server := fun hID => by
            rw [hl.fragsReceived]
            exact h.truthful.server hID }
      toServer := fun p hp => by
        rw [hl.fragsReceived]
        rcases mem_append.1 hp with hp | hp
        · exact h.toServer p hp
        · obtain ⟨hown, hack⟩ := hpackets p hp
          exact ⟨hown, fun ha => ⟨h.known (hack ha).1, (hack ha).2⟩⟩
      toClient := h.toClient }
  | timeout =>
    cases hs
    exact { h with
      call := ⟨h.call.own, h.call.ready, h.call.running, h.call.resting, h.call.collecting, h.call.fragmenting,
        h.call.whole, h.call.acked⟩
      truthful := ⟨h.truthful.client, h.truthful.server⟩ }
  | clientReceive k =>
    obtain ⟨p, hp, rfl⟩ := Option.map_eq_some_iff.1 hs
    have hans := h.toClient p (mem_of_getElem? hp)
    obtain ⟨hcall, hle, hnew, hclient⟩ := callOk_arrived h.call hans h.truthful.client
    exact {
      call := hcall
      slot := h.slot
      known := fun hne => by
        by_cases heq : (rpcClientDispatch s.call.chan p).fragsReceived = s.call.chan.fragsReceived
        · exact h.known (by rwa [← heq])
        · exact hnew heq
      truthful := ⟨hclient, fun hID => (h.truthful.server hID).trans hle⟩
      toServer := fun q hq => by
        obtain ⟨hown, hack⟩ := h.toServer q hq
        exact ⟨hown, fun ha => ⟨(hack ha).1, (hack ha).2.trans hle⟩⟩
      toClient := h.toClient }
  | serverReceive k =>
    obtain ⟨p, hp, rfl⟩ := Option.map_eq_some_iff.1 hs
    exact pairInv_receive hroute h (mem_of_getElem? hp)
  | handOff =>
    rw [PairSystem.step] at hs
    split at hs
    · cases hs
      exact pairInv_state h ⟨_, _, rfl⟩ (fun _ hp => absurd hp not_mem_nil)
    · nomatch hs
  | reply error storage =>
    rw [PairSystem.step] at hs
    split at hs
    · cases hs
      obtain ⟨⟨hdr, heq⟩, hslot, hpackets⟩ := reply_answers hroute h.slot error storage
      rw [heq] at hslot ⊢
      exact pairInv_serve h id (fun _ => MaskLe.refl _) h.truthful.server hslot hpackets
    · nomatch hs
  | errorReply error =>
    rw [PairSystem.step] at hs
    split at hs
    · cases hs
      obtain ⟨⟨hdr, heq⟩, hslot, hpackets⟩ :=
        reply_answers hroute h.slot error { s.srv.reply with paramLength := 0, dataLength := 0 }
      rw [rpcErrorReply, heq] at *
      exact pairInv_serve h id (fun _ => MaskLe.refl _) h.truthful.server hslot hpackets
    · nomatch hs
  | loopTop noReply =>
    rw [PairSystem.step] at hs
    split at hs
    · nomatch hs
    · cases hs
      exact pairInv_state h ⟨_, _, rfl⟩ (fun _ hp => absurd hp not_mem_nil)
  | reclaim serversMaxed =>
    cases hs
    have hsrv : ∃ state age, (s.srv.reclaim cfg.maxServerAge serversMaxed).1 = { s.srv with state := state, age := age } := by
      rw [RpcServerState.reclaim]
      split
      · split
        · exact ⟨_, _, rfl⟩
        split
        · exact ⟨_, _, rfl⟩
        split
        · exact ⟨_, _, rfl⟩
        · exact ⟨_, _, rfl⟩
      · exact ⟨_, _, rfl⟩
    obtain ⟨state, age, heq⟩ := hsrv
    refine pairInv_state h ⟨state, age, heq⟩ (fun p hp => ?_)
    split at hp
    · have hslot : SlotOk ID (s.srv.reclaim cfg.maxServerAge serversMaxed).1 := by
        rw [heq]
        exact ⟨h.slot.request, h.slot.reply, h.slot.zero⟩
      exact probe_answers hslot hp
    · exact absurd hp not_mem_nil

theorem initial_pairInv {self : Self} {serverID command : Int} {storage : RpcStorage} {chan : RpcClientChannel}
    {srv : RpcServerState} (hchan : chan.state = chanBusy) (hsrv : srv.Unaware ID) :
    PairInv ID (PairSystem.initial self serverID command storage ID chan srv) where
  call :=
    { own := rfl
      ready := fun _ => ⟨by show chan.state.input = false; rw [hchan]; rfl, rfl⟩
      running := fun error locals hrun => absurd hrun (not_running_ready rfl error locals)
      resting := fun _ => by show chan.state.waiting = false; rw [hchan]; rfl
      collecting := fun _ _ => rfl
      fragmenting := fun hf => by
        replace hf : chan.state.fragmenting = true := hf
        rw [hchan] at hf
        nomatch hf
      whole := fun _ _ hne => absurd rfl hne
      acked := fun ha => by
        replace ha : (((if command = rpcEcho1 then Flag.echo else Flag.request) ||| Flag.server) &&& Flag.ack != 0) = true := ha
        split at ha <;> exact absurd ha (by decide) }
  slot := ⟨fun hreq => absurd hreq hsrv.request, fun hrep => absurd hrep hsrv.reply, hsrv.zero⟩
  known := fun hne => absurd rfl hne
  truthful :=
    { client := fun i hi => by
        have hzero : (0 : BitVec 32).getLsbD i = false := BitVec.getLsbD_zero
        exact absurd (hzero.symm.trans hi) Bool.false_ne_true
      server := fun hown => absurd hown hsrv.own }
  toServer := fun _ hp => absurd hp not_mem_nil
  toClient := fun _ hp => absurd hp not_mem_nil

end steps

def plainHost : Host := ⟨true, false, false, 3, 0⟩

/-- The channel of a client as `RpcChanAlloc` leaves it. -/
def allocatedChannel : RpcClientChannel where
  index := 0
  state := chanBusy
  serverID := 7
  fragsDelivered := 0
  fragsReceived := 0
  actualDataSize := 0
  actualParamSize := 0
  requestRpcHdr := ⟨3, 0, 5, 7, 0, 0, 0, 0, 0, 0, 0, 0, 0, 0, 0, 0⟩
  request := emptyMessage
  reply := ⟨⟨3, 0, 0, 0, 0, 0, 0, 0, 0, 0, 0, 0, 0, 0, 0, 0⟩, 0, fun _ => 0, 0, fun _ => 0⟩

/-- Hosts 5 and 7, a network whose packets hold 1088 bytes of a message, and a call with
    2000 bytes of data. -/
def hostsFiveAndSeven : PairConfig :=
  ⟨⟨plainHost, some 1152, 3, 3, false, false, 0⟩, ⟨plainHost, ⟨7, 100⟩, fun _ => some 1152⟩, 3⟩

def storageOf2000 : RpcStorage := ⟨⟨fun _ => 0, 0, fun _ => 1, 2000⟩, fun _ => 0, 0, fun _ => 0, 4096⟩

def callOf2000 : PairSystem :=
  PairSystem.initial ⟨5, 100⟩ 7 9 storageOf2000 31 allocatedChannel { blankServer with state := srvWaiting }

theorem routes_five_and_seven : hostsFiveAndSeven.server.RouteOk := fun _ maxPacket hmax => by
  obtain rfl : 1152 = maxPacket := Option.some.inj hmax
  decide

end SpriteKernel.Rpc
