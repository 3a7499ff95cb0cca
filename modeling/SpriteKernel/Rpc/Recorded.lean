import SpriteKernel.Rpc.Gathered
import SpriteKernel.Rpc.HostStep

/- What the clients send. In every run a channel in use has one of the requests that
   were set up, and what comes to the server host is an acknowledgment or a packet of
   such a request (`Recorded`, `recorded_of_step`). -/
namespace SpriteKernel.Rpc

open Function List Flag
open Machine Transition

/-- The bytes of a message that a packet of the route to the server host takes. -/
def NetConfig.payload (cfg : NetConfig) (c : Int) : Nat := (cfg.client c).route.getD 0 - sizeofRpcHdr

/-- The packets of the client's route are of the size that sixteen of them hold any message. -/
def NetConfig.RouteOk (cfg : NetConfig) (c : Int) : Prop :=
  ∀ maxPacket ∈ (cfg.client c).route, maxSize / maxNumFrags ≤ maxPacket - sizeofRpcHdr

instance (cfg : NetConfig) (c : Int) : Decidable (cfg.RouteOk c) :=
  inferInstanceAs (Decidable (∀ maxPacket ∈ (cfg.client c).route, _))

/-- The sizes are lawful, or the message does not fit a packet: only then `RpcOutput` looks at them. -/
def NetConfig.SizesSeen (cfg : NetConfig) (c : Int) (msg : Message) : Prop :=
  msg.paramLength ≤ maxParamSize ∧ msg.dataLength ≤ maxDataSize ∨
    cfg.payload c < uint32 (msg.paramLength + msg.dataLength)

instance (cfg : NetConfig) (c : Int) (msg : Message) : Decidable (cfg.SizesSeen c msg) :=
  inferInstanceAs (Decidable (_ ∨ _))

structure SentFor (cfg : NetConfig) (r : RpcHdr × Message) (p : Packet) : Prop where
  header : HeaderOf r.1 p.hdr
  packet : cfg.SizesSeen r.1.clientID r.2 → cfg.RouteOk r.1.clientID →
    WellSized r.1 r.2 ∧ PacketOf (cfg.payload r.1.clientID) r.1 r.2 p

/-- The channel has the request, or has made a partial acknowledgment of it. -/
structure HasRequest (r : RpcHdr × Message) (chan : RpcClientChannel) : Prop where
  request : chan.request = r.2
  paramSize : chan.requestRpcHdr.paramSize = r.1.paramSize
  dataSize : chan.requestRpcHdr.dataSize = r.1.dataSize
  ID : chan.requestRpcHdr.ID = r.1.ID
  header : HeaderOf r.1 chan.requestRpcHdr ∨ chan.requestRpcHdr.has Flag.ack = true

structure CallRecorded (requests : List (RpcHdr × Message)) (c : Int) (ch : Nat) (call : ClientCall) : Prop where
  channel : call.chan.requestRpcHdr.channel = ch
  request : call.stage ≠ .idle →
    ∃ r ∈ requests, r.1.clientID = c ∧ r.1.channel = ch ∧ HasRequest r call.chan

/-- The request is of a channel of the client, of a type that is one, and of the sizes of
    its message. -/
structure RequestOk (r : RpcHdr × Message) : Prop where
  channel : ∃ ch : Nat, r.1.channel = ch
  type : r.1.flags &&& Flag.typeMask = Flag.request ∨ r.1.flags &&& Flag.typeMask = Flag.echo
  paramLength : r.2.paramLength = r.1.paramSize
  dataLength : r.2.dataLength = r.1.dataSize

structure Recorded (cfg : NetConfig) (s : NetSystem) : Prop where
  calls : ∀ c ch, CallRecorded s.requests c ch ((s.clients c).calls ch)
  toServer : ∀ c, ∀ p ∈ s.toServer c,
    p.hdr.has Flag.ack = true ∨ ∃ r ∈ s.requests, r.1.clientID = c ∧ SentFor cfg r p
  requests : ∀ r ∈ s.requests, RequestOk r

section channel
variable {r : RpcHdr × Message} {chan chan' : RpcClientChannel} {cfg : CallConfig} {host : Host}

theorem RequestOk.wellSized (h : RequestOk r) (hparam : r.2.paramLength ≤ maxParamSize)
    (hdata : r.2.dataLength ≤ maxDataSize) : WellSized r.1 r.2 where
  param_nonneg := by rw [← h.paramLength]; exact Int.natCast_nonneg _
  param_le := by rw [← h.paramLength]; exact Int.ofNat_le.2 hparam
  data_nonneg := by rw [← h.dataLength]; exact Int.natCast_nonneg _
  data_le := by rw [← h.dataLength]; exact Int.ofNat_le.2 hdata
  paramLength := h.paramLength
  dataLength := h.dataLength

section
variable (h : HasRequest r chan)
include h

theorem HasRequest.same (hrequest : chan'.request = chan.request)
    (hhdr : chan'.requestRpcHdr = chan.requestRpcHdr) : HasRequest r chan' where
  request := hrequest.trans h.request
  paramSize := by rw [hhdr]; exact h.paramSize
  dataSize := by rw [hhdr]; exact h.dataSize
  ID := by rw [hhdr]; exact h.ID
  header := by rw [hhdr]; exact h.header

theorem HasRequest.takeHint : HasRequest r chan.takeHint :=
  ⟨h.request, h.paramSize, h.dataSize, h.ID,
    h.header.imp (fun hh => ⟨hh.clientID, hh.channel, hh.ID, hh.command, hh.type⟩) id⟩

theorem HasRequest.resend : HasRequest r chan.resend := by
  refine ⟨h.request, h.paramSize, h.dataSize, h.ID, h.header.imp (fun hh => ?_) (fun ha => ?_)⟩
  · refine ⟨hh.clientID, hh.channel, hh.ID, hh.command, ?_⟩
    have hor : (chan.requestRpcHdr.flags ||| Flag.plsAck) &&& Flag.typeMask =
        chan.requestRpcHdr.flags &&& Flag.typeMask ||| Flag.plsAck &&& Flag.typeMask := BitVec.and_or_distrib_right
    show (chan.requestRpcHdr.flags ||| Flag.plsAck) &&& Flag.typeMask = _
    rw [hor, ← hh.type]
    exact BitVec.or_zero
  · rw [has_resend]
    exact ha

theorem HasRequest.partialAck : HasRequest r chan.partialAck :=
  ⟨h.request, h.paramSize, h.dataSize, h.ID,
    .inr (show ((Flag.server ||| Flag.ack ||| Flag.lastFrag) &&& Flag.ack != 0) = true by decide)⟩

end

theorem output_sizes {route : Option Nat} {hdr out : RpcHdr} {msg : Message} {mask : BitVec 32}
    {pkts : List Packet} (h : rpcOutput host route hdr msg mask = .ok (out, pkts)) :
    out.paramSize = hdr.paramSize ∧ out.dataSize = hdr.dataSize := by
  obtain ⟨_, -, ⟨-, rfl, -⟩ | ⟨-, -, -, rfl, -⟩⟩ := emitted h
  · exact ⟨rfl, rfl⟩
  · exact ⟨rfl, rfl⟩

theorem HasRequest.sameMessage {hdr : RpcHdr} (h : HasRequest r chan)
    (hs : SameMessage host chan.requestRpcHdr hdr) (hparam : hdr.paramSize = chan.requestRpcHdr.paramSize)
    (hdata : hdr.dataSize = chan.requestRpcHdr.dataSize) : HasRequest r { chan with requestRpcHdr := hdr } :=
  ⟨h.request, hparam.trans h.paramSize, hdata.trans h.dataSize, hs.ID.trans h.ID,
    h.header.imp (fun hh => hh.trans hs.headerOf) (fun ha => (hs.has (by decide)).trans ha)⟩

theorem HasRequest.send (h : HasRequest r chan) : HasRequest r (chan.send cfg).1 := by
  rw [RpcClientChannel.send]
  cases hout : rpcOutput cfg.host cfg.route chan.requestRpcHdr chan.request chan.fragsDelivered with
  | error e => exact h.sameMessage ⟨rfl, rfl, rfl, rfl, rfl, rfl, rfl, rfl⟩ rfl rfl
  | ok out =>
    obtain ⟨hparam, hdata⟩ := output_sizes hout
    exact h.sameMessage (emitted_same hout).1 hparam hdata

theorem send_channel (cfg : CallConfig) (chan : RpcClientChannel) :
    (chan.send cfg).1.requestRpcHdr.channel = chan.requestRpcHdr.channel := by
  rw [RpcClientChannel.send]
  cases hout : rpcOutput cfg.host cfg.route chan.requestRpcHdr chan.request chan.fragsDelivered with
  | error e => rfl
  | ok out => exact (emitted_same hout).1.channel

/-- **What is sent of a request are its packets, or acknowledgments.** -/
theorem HasRequest.packets {net : NetConfig} (hok : RequestOk r) (h : HasRequest r chan) {p : Packet}
    (hp : p ∈ (chan.send (net.client r.1.clientID)).2.1) : p.hdr.has Flag.ack = true ∨ SentFor net r p := by
  rw [RpcClientChannel.send] at hp
  cases hout : rpcOutput (net.client r.1.clientID).host (net.client r.1.clientID).route chan.requestRpcHdr chan.request
      chan.fragsDelivered with
  | error e =>
    rw [hout] at hp
    exact absurd hp not_mem_nil
  | ok out =>
    rw [hout] at hp
    have hsame := (emitted_same hout).2 p hp
    rcases h.header with hheader | hack
    · refine .inr ⟨hheader.trans hsame.headerOf, fun hsize hroute => ?_⟩
      obtain ⟨maxPacket, hmax, hcases⟩ := emitted hout
      have hpayload : net.payload r.1.clientID = maxPacket - sizeofRpcHdr := by
        rw [NetConfig.payload, hmax, Option.getD_some]
      -- where it is cut, `RpcOutput` has seen to the sizes
      have hwell : r.2.paramLength ≤ maxParamSize ∧ r.2.dataLength ≤ maxDataSize := by
        rcases hcases with ⟨hsmall, -⟩ | ⟨-, hparam, hdata, -⟩
        · rcases hsize with hsizes | hbig
          · exact hsizes
          · rw [hok.paramLength, hok.dataLength, ← h.paramSize, ← h.dataSize, hpayload] at hbig
            exact absurd hbig (not_lt.2 hsmall)
        · rw [h.paramSize, ← hok.paramLength] at hparam
          rw [h.dataSize, ← hok.dataLength] at hdata
          exact ⟨Int.ofNat_le.1 hparam, Int.ofNat_le.1 hdata⟩
      have hwell' := hok.wellSized hwell.1 hwell.2
      have hroute' := hroute maxPacket hmax
      rw [hmax, h.request] at hout
      rw [hpayload]
      exact ⟨hwell', packetOf_emitted hwell' hroute' hheader h.paramSize h.dataSize hout p hp⟩
    · exact .inl ((hsame.has (by decide)).trans hack)

end channel

section call
variable {requests : List (RpcHdr × Message)} {c : Int} {ch : Nat} {call call' : ClientCall}

theorem CallRecorded.went {net : NetConfig} {packets : List Packet} (hok : ∀ r ∈ requests, RequestOk r)
    (h : CallRecorded requests c ch call) (hw : Went (net.client c) call call' packets) : CallRecorded requests c ch call' ∧
    ∀ p ∈ packets, p.hdr.has Flag.ack = true ∨ ∃ r ∈ requests, r.1.clientID = c ∧ r.1.channel = ch ∧
      r.1.ID = call.chan.requestRpcHdr.ID ∧ SentFor net r p := by
  have hrunning : ∀ {error locals}, call.stage.Running error locals → call.stage ≠ .idle := by
    rintro error locals (⟨first, hs⟩ | hs) <;> rw [hs] <;> exact fun hno => nomatch hno
  have hnone : ∀ {p : Packet}, p ∈ packets → packets = [] → False := fun hp he => absurd (he ▸ hp) not_mem_nil
  -- the request is kept, and sent in one of three ways
  have hkept : ∀ {chan : RpcClientChannel}, call.stage ≠ .idle → call'.chan = chan →
      chan.requestRpcHdr.channel = call.chan.requestRpcHdr.channel →
      (∀ r, HasRequest r call.chan → HasRequest r chan) → CallRecorded requests c ch call' := by
    rintro chan hstage hchan hchannel hhas
    obtain ⟨r, hr, hc, hch, hreq⟩ := h.request hstage
    rw [← hchan] at hchannel hhas
    exact ⟨hchannel.trans h.channel, fun _ => ⟨r, hr, hc, hch, hhas r hreq⟩⟩
  have hsent : ∀ {chan : RpcClientChannel}, call.stage ≠ .idle →
      (∀ r, HasRequest r call.chan → HasRequest r chan) → packets = (chan.send (net.client c)).2.1 →
      ∀ p ∈ packets, p.hdr.has Flag.ack = true ∨ ∃ r ∈ requests, r.1.clientID = c ∧ r.1.channel = ch ∧
        r.1.ID = call.chan.requestRpcHdr.ID ∧ SentFor net r p := by
    rintro chan hstage hhas rfl p hp
    obtain ⟨r, hr, hc, hch, hreq⟩ := h.request hstage
    rw [← hc] at hp
    exact ((hhas r hreq).packets (hok r hr) hp).imp id (fun hs => ⟨r, hr, hc, hch, hreq.ID.symm, hs⟩)
  cases hw with
  | began hstage hchan hstage' hpackets =>
    have hidle : call.stage ≠ .idle := by rw [hstage]; exact fun hno => nomatch hno
    have hhas : ∀ r, HasRequest r call.chan → HasRequest r call.chan.start := fun r hr => hr.takeHint.same rfl rfl
    exact ⟨hkept hidle hchan (send_channel _ _) (fun r hr => (hhas r hr).send), hsent hidle hhas hpackets⟩
  | slept error locals hstage hinput hchan hstage' hpackets =>
    exact ⟨hkept (hrunning hstage) hchan rfl (fun r hr => hr.same rfl rfl), fun p hp => (hnone hp hpackets).elim⟩
  | again error locals locals' hstage hinput hagain hchan hstage' hpackets =>
    exact ⟨hkept (hrunning hstage) hchan rfl (fun r hr => hr.same rfl rfl), fun p hp => (hnone hp hpackets).elim⟩
  | returned error locals status hstage hinput hreturn hchan hstage' hpackets =>
    exact ⟨hkept (hrunning hstage) hchan rfl (fun r hr => hr.same rfl rfl), fun p hp => (hnone hp hpackets).elim⟩
  | failed error locals status hstage hstatus hchan hstage' hpackets =>
    refine ⟨?_, fun p hp => (hnone hp hpackets).elim⟩
    simp only [mem_cons, not_mem_nil, or_false] at hchan
    rcases hchan with hchan | hchan | hchan
    · exact hkept (hrunning hstage) hchan rfl (fun r hr => hr.same rfl rfl)
    · exact hkept (hrunning hstage) hchan rfl (fun r hr => hr.same rfl rfl)
    · exact hkept (hrunning hstage) hchan rfl (fun r hr => hr.takeHint.same rfl rfl)
  | resent error locals hstage hinput hidle hchan hstage' hpackets =>
    have hrun : call.stage ≠ .idle := hrunning (.inr hstage)
    have hhas : ∀ r, HasRequest r call.chan → HasRequest r call.chan.takeHint.resend := fun r hr => hr.takeHint.resend
    exact ⟨hkept hrun hchan (send_channel _ _) (fun r hr => (hhas r hr).send), hsent hrun hhas hpackets⟩
  | acked error locals hstage hinput hfragmenting hchan hstage' hpackets =>
    have hrun : call.stage ≠ .idle := hrunning (.inr hstage)
    have hhas : ∀ r, HasRequest r call.chan → HasRequest r call.chan.takeHint.partialAck :=
      fun r hr => hr.takeHint.partialAck
    exact ⟨hkept hrun hchan (send_channel _ _) (fun r hr => (hhas r hr).send), hsent hrun hhas hpackets⟩

theorem dispatch_request (chan : RpcClientChannel) (p : Packet) :
    (rpcClientDispatch chan p).request = chan.request ∧
      (rpcClientDispatch chan p).requestRpcHdr = chan.requestRpcHdr := by
  cases arrived chan p with
  | ignored h => rw [h]; exact ⟨rfl, rfl⟩
  | partialAck _ _ _ h => rw [h]; exact ⟨rfl, rfl⟩
  | first _ _ _ _ h => rw [h]; exact ⟨rfl, rfl⟩
  | repeated _ _ _ _ _ h => rw [h]; exact ⟨rfl, rfl⟩
  | more _ _ _ _ _ _ h => rw [h]; exact ⟨rfl, rfl⟩
  | last _ _ _ _ _ _ h => rw [h]; exact ⟨rfl, rfl⟩
  | whole _ _ _ h => rw [h]; exact ⟨rfl, rfl⟩

theorem CallRecorded.same (h : CallRecorded requests c ch call) (hrequest : call'.chan.request = call.chan.request)
    (hhdr : call'.chan.requestRpcHdr = call.chan.requestRpcHdr) (hstage : call'.stage ≠ .idle → call.stage ≠ .idle) :
    CallRecorded requests c ch call' where
  channel := by rw [hhdr]; exact h.channel
  request := fun hs => by
    obtain ⟨r, hr, hc, hch, hreq⟩ := h.request (hstage hs)
    exact ⟨r, hr, hc, hch, hreq.same hrequest hhdr⟩

theorem CallRecorded.mono {more : List (RpcHdr × Message)} (h : CallRecorded requests c ch call)
    (hsub : ∀ r ∈ requests, r ∈ more) : CallRecorded more c ch call where
  channel := h.channel
  request := fun hs => by
    obtain ⟨r, hr, hrest⟩ := h.request hs
    exact ⟨r, hsub r hr, hrest⟩

end call

section steps
variable {cfg : NetConfig} {s s' : NetSystem} {c : Int} {ch : Nat}

theorem clients_self (s : NetSystem) (c : Int) (h : ClientHost) : (s.setClient c h).clients c = h :=
  update_self _ _ _

theorem clients_other (s : NetSystem) {c d : Int} (h : ClientHost) (hd : d ≠ c) :
    (s.setClient c h).clients d = s.clients d :=
  update_of_ne hd _ _

theorem calls_self (h : ClientHost) (ch : Nat) (call : ClientCall) : (h.setCall ch call).calls ch = call :=
  update_self _ _ _

theorem calls_other (h : ClientHost) {ch i : Nat} (call : ClientCall) (hi : i ≠ ch) :
    (h.setCall ch call).calls i = h.calls i :=
  update_of_ne hi _ _

theorem setup_calls (s : NetSystem) (cfg : NetConfig) (c : Int) (serverID command : Int) (storage : RpcStorage) (ch : Nat) :
    ((s.clients c).setup ⟨c, cfg.clientBootID c⟩ serverID command storage ch).calls ch =
      ⟨rpcSetup ⟨c, cfg.clientBootID c⟩ serverID command storage (s.clients c).rpcID
        { ((s.clients c).calls ch).chan with state := chanBusy }, .ready⟩ := calls_self _ _ _

theorem calls_recorded {requests : List (RpcHdr × Message)} {h h' : Int → ClientHost} (c : Int) (ch : Nat)
    (hall : ∀ d i, CallRecorded requests d i ((h d).calls i)) (hother : ∀ d ≠ c, h' d = h d)
    (hothers : ∀ i ≠ ch, (h' c).calls i = (h c).calls i) (hself : CallRecorded requests c ch ((h' c).calls ch)) :
    ∀ d i, CallRecorded requests d i ((h' d).calls i) := by
  intro d i
  by_cases hd : d = c
  · rw [hd]
    by_cases hi : i = ch
    · rw [hi]
      exact hself
    · rw [hothers i hi]
      exact hall c i
  · rw [hother d hd]
    exact hall d i

section
variable (h : Recorded cfg s)
include h

theorem recorded_setCall {call : ClientCall}
    (hcall : CallRecorded s.requests c ch call) : Recorded cfg (s.setClient c ((s.clients c).setCall ch call)) where
  calls := by
    refine calls_recorded c ch h.calls (fun d hd => clients_other s _ hd) (fun i hi => ?_) ?_
    · rw [clients_self, calls_other _ _ hi]
    · rw [clients_self, calls_self]
      exact hcall
  toServer := h.toServer
  requests := h.requests

theorem recorded_toHost {packets : List Packet}
    (hpackets : ∀ p ∈ packets, p.hdr.has Flag.ack = true ∨ ∃ r ∈ s.requests, r.1.clientID = c ∧ SentFor cfg r p) :
    Recorded cfg (s.toHost c packets) where
  calls := h.calls
  toServer := fun d p hp => by
    obtain ⟨rfl, hp⟩ | ⟨-, hp⟩ := update_cases (P := (p ∈ ·)) hp
    · exact (mem_append.1 hp).elim (h.toServer d p) (hpackets p)
    · exact h.toServer d p hp
  requests := h.requests

theorem recorded_tail {p : Packet} {rest : List Packet} (hq : s.toServer c = p :: rest) :
    Recorded cfg { s with toServer := update s.toServer c rest } where
  calls := h.calls
  toServer := fun d q hin => by
    obtain ⟨rfl, hself⟩ | ⟨-, hold⟩ := update_cases (P := (q ∈ ·)) hin
    · exact h.toServer d q (hq ▸ mem_cons_of_mem p hself)
    · exact h.toServer d q hold
  requests := h.requests

theorem recorded_server {server : OwnerSystem} {toClient : Int → List Packet}
    {handed : List RpcServerState} :
    Recorded cfg { s with server := server, toClient := toClient, handed := handed } :=
  ⟨h.calls, h.toServer, h.requests⟩

end

theorem serverReceive_eq (cfg : NetConfig) (s : NetSystem) (p : Packet) (held nack : Bool) :
    ∃ server toClient handed, s.serverReceive cfg p held nack =
      { s with server := server, toClient := toClient, handed := handed } := by
  rw [NetSystem.serverReceive]
  split
  · exact ⟨_, _, _, rfl⟩
  · split
    · exact ⟨_, _, _, rfl⟩
    · exact ⟨_, _, _, rfl⟩

theorem closePackets_ack {p q : Packet} (hq : q ∈ closePackets cfg c ch p) : q.hdr.has Flag.ack = true := by
  obtain ⟨out, pkts, hout, hq⟩ := mem_outputPackets hq
  rw [((emitted_same hout).2 q hq).has (by decide)]
  show ((Flag.ack ||| Flag.close ||| Flag.server) &&& Flag.ack != 0) = true
  decide

theorem setup_requestOk (self : Self) (serverID command : Int) (storage : RpcStorage) (ID : Nat) {chan : RpcClientChannel}
    (hch : chan.requestRpcHdr.channel = ch) :
    RequestOk ((rpcSetup self serverID command storage ID chan).requestRpcHdr, storage.request) where
  channel := ⟨ch, hch⟩
  type := by
    show ((if command = rpcEcho1 then Flag.echo else Flag.request) ||| Flag.server) &&& Flag.typeMask = Flag.request ∨
      ((if command = rpcEcho1 then Flag.echo else Flag.request) ||| Flag.server) &&& Flag.typeMask = Flag.echo
    split
    · exact .inr (by decide)
    · exact .inl (by decide)
  paramLength := rfl
  dataLength := rfl

/-- **The requests are recorded, whatever happens.** -/
theorem recorded_of_step (h : Recorded cfg s) {l : NetLabel} (hs : s.step cfg l = some s') : Recorded cfg s' := by
  cases l with
  | setup c ch serverID command storage =>
    rw [NetSystem.step] at hs
    split at hs
    · cases hs
      have hch : ((s.clients c).calls ch).chan.requestRpcHdr.channel = ch := (h.calls c ch).channel
      rw [setup_calls]
      refine ⟨?_, fun d p hp => (h.toServer d p hp).imp id (fun ⟨r, hr, hrest⟩ => ⟨r, mem_cons_of_mem _ hr, hrest⟩), ?_⟩
      · refine calls_recorded c ch (fun d i => (h.calls d i).mono (fun r hr => mem_cons_of_mem _ hr))
          (fun d hd => clients_other s _ hd) (fun i hi => ?_) ?_
        · rw [clients_self]
          exact calls_other _ _ hi
        · rw [clients_self, setup_calls]
          exact ⟨hch, fun _ => ⟨_, mem_cons_self, rfl, hch, rfl, rfl, rfl, rfl, .inl ⟨rfl, rfl, rfl, rfl, rfl⟩⟩⟩
      · intro r hr
        rcases mem_cons.1 hr with rfl | hr
        · exact setup_requestOk _ _ _ _ _ hch
        · exact h.requests r hr
    · nomatch hs
  | elsewhere c =>
    cases hs
    refine ⟨?_, h.toServer, h.requests⟩
    refine calls_recorded c 0 h.calls (fun d hd => clients_other s _ hd) (fun i _ => ?_) ?_
    · rw [clients_self]
    · rw [clients_self]
      exact h.calls c 0
  | go c ch =>
    obtain ⟨r, hr, rfl⟩ := Option.map_eq_some_iff.1 hs
    obtain ⟨hcall, hpackets⟩ := CallRecorded.went h.requests (h.calls c ch) (went hr)
    refine recorded_toHost (recorded_setCall h hcall) (fun p hp => (hpackets p hp).imp id ?_)
    rintro ⟨r, hr, hc, -, -, hsent⟩
    exact ⟨r, hr, hc, hsent⟩
  | timeout c ch =>
    cases hs
    exact recorded_setCall h ((h.calls c ch).same rfl rfl id)
  | free c ch =>
    rw [NetSystem.step] at hs
    split at hs
    · cases hs
      exact recorded_setCall h ((h.calls c ch).same rfl rfl (fun hno => absurd rfl hno))
    · nomatch hs
  | clientReceive c k =>
    obtain ⟨p, hp, rfl⟩ := Option.map_eq_some_iff.1 hs
    rw [NetSystem.clientReceive]
    dsimp only
    split
    · split
      · split
        · exact h
        · exact recorded_toHost h (fun q hq => .inl (closePackets_ack hq))
      · obtain ⟨hrequest, hhdr⟩ := dispatch_request ((s.clients c).calls p.hdr.channel.toNat).chan p
        exact recorded_setCall h ((h.calls c _).same hrequest hhdr id)
    · exact h
  | serverReceive c again held nack =>
    rw [NetSystem.step] at hs
    split at hs
    · nomatch hs
    · rename_i p rest hq
      cases hs
      obtain ⟨server, toClient, handed, heq⟩ := serverReceive_eq cfg s p held nack
      rw [heq]
      split
      · exact recorded_server h
      · exact recorded_tail (recorded_server h) hq
  | lose c =>
    rw [NetSystem.step] at hs
    split at hs
    · nomatch hs
    · rename_i p rest hq
      cases hs
      exact recorded_tail h hq
  | host l =>
    rw [NetSystem.step] at hs
    split at hs
    · obtain ⟨server, -, rfl⟩ := Option.map_eq_some_iff.1 hs
      exact recorded_server h
    · nomatch hs
  | reply pid error storage =>
    rw [NetSystem.step] at hs
    split at hs
    · cases hs
      exact recorded_server h
    · nomatch hs
  | errorReply pid error =>
    rw [NetSystem.step] at hs
    split at hs
    · cases hs
      exact recorded_server h
    · nomatch hs

theorem initial_recorded (cfg : NetConfig) (servers : Nat → RpcServerState) (channels : Int → Nat → RpcClientChannel) :
    Recorded cfg (NetSystem.initial cfg servers channels) where
  calls := fun _ _ => ⟨rfl, fun hno => absurd rfl hno⟩
  toServer := fun _ _ hp => absurd hp not_mem_nil
  requests := fun _ hr => absurd hr not_mem_nil

theorem recorded_of_run {C : NetSystem → NetLabel → Prop} {servers : Nat → RpcServerState} {channels : Int → Nat → RpcClientChannel}
    (hrun : Run (NetSystem.step cfg) C (NetSystem.initial cfg servers channels) s) : Recorded cfg s :=
  hrun.invariant (fun _ _ _ hi _ hs => recorded_of_step hi hs) (initial_recorded cfg servers channels)

end steps
end SpriteKernel.Rpc
