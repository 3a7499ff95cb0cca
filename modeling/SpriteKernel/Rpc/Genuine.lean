import SpriteKernel.Rpc.Recorded

/- A service procedure runs on a whole request of a client, and on nothing else.

   The type of a packet is looked at only where its ID is the server's. An
   acknowledgment that `RpcServerAlloc` brings to another server process is taken for a
   request there. -/
namespace SpriteKernel.Rpc

open List
open Machine Transition

/-- The server process has been handed a request that a client sent, with its bytes. -/
structure Genuine (requests : List (RpcHdr × Message)) (srv : RpcServerState) : Prop where
  type : srv.requestRpcHdr.flags &&& Flag.typeMask = Flag.request ∨ srv.requestRpcHdr.flags &&& Flag.typeMask = Flag.echo
  request : ∃ r ∈ requests, HeaderOf r.1 srv.requestRpcHdr ∧
    Restored r.1 r.2 srv.request srv.actualParamSize srv.actualDataSize

/-- What is promised, of every server process that was made busy. -/
def RequestsGenuine (s : NetSystem) : Prop := ∀ srv ∈ s.handed, Genuine s.requests srv

/-- An acknowledgment goes to a server process that has its ID, or that is busy. -/
def NetSystem.AckSteered (s : NetSystem) (c : Int) (held : Bool) : Prop :=
  ∀ p ∈ (s.toServer c).head?, held = false → p.hdr.has Flag.ack = true →
    ∀ f ∈ rpcServerAlloc s.server.table p.hdr,
      (s.server.table.servers f.1).ID = p.hdr.ID ∨ (s.server.table.servers f.1).state.busy = true

instance (s : NetSystem) (c : Int) (held : Bool) : Decidable (s.AckSteered c held) :=
  inferInstanceAs (Decidable (∀ p ∈ (s.toServer c).head?, _))

/-- The request has a new ID, and sizes lawful or looked at by `RpcOutput`; the route takes packets of the size these
    are for. -/
def NetSystem.SetupCareful (cfg : NetConfig) (s : NetSystem) (c : Int) (ch : Nat) (storage : RpcStorage) : Prop :=
  (∀ r ∈ s.requests, r.1.clientID = c → r.1.channel = ch → r.1.ID ≠ (s.clients c).rpcID) ∧
    cfg.SizesSeen c storage.request ∧ cfg.RouteOk c

instance (cfg : NetConfig) (s : NetSystem) (c : Int) (ch : Nat) (storage : RpcStorage) :
    Decidable (s.SetupCareful cfg c ch storage) :=
  inferInstanceAs (Decidable (_ ∧ _))

/-- The steps that are careful of what may come to a server process as a request. -/
def NetSystem.GenuineCareful (cfg : NetConfig) (s : NetSystem) : NetLabel → Prop
  | .setup c ch _ _ storage => s.SetupCareful cfg c ch storage
  | .serverReceive c _ held _ => s.AckSteered c held
  | _ => True

/-- The server process has its own buffers, and assembles fragments of the request of its client, channel and ID. -/
structure SlotGenuine (cfg : NetConfig) (requests : List (RpcHdr × Message)) (srv : RpcServerState) : Prop where
  paramLength : srv.request.paramLength = (maxParamSize : Nat)
  dataLength : srv.request.dataLength = (maxDataSize : Nat)
  gathered : srv.Reassembling → srv.state.free = false ∧ ∃ r ∈ requests, r.1.clientID = srv.clientID ∧
    r.1.channel = srv.channel ∧ r.1.ID = srv.ID ∧
    Gathered (cfg.payload r.1.clientID) r.1 r.2 srv.fragsReceived srv.request srv.actualParamSize srv.actualDataSize

/-- The requests are of sizes that are seen to, and no two have the same client, channel
    and ID. -/
structure Distinct (cfg : NetConfig) (requests : List (RpcHdr × Message)) : Prop where
  sized : ∀ r ∈ requests, cfg.SizesSeen r.1.clientID r.2 ∧ cfg.RouteOk r.1.clientID
  unique : ∀ r ∈ requests, ∀ r' ∈ requests, r.1.clientID = r'.1.clientID → r.1.channel = r'.1.channel →
    r.1.ID = r'.1.ID → r = r'

structure GenuineInv (cfg : NetConfig) (s : NetSystem) : Prop where
  distinct : Distinct cfg s.requests
  slots : ∀ i < s.server.table.rpcNumServers, SlotGenuine cfg s.requests (s.server.table.servers i)
  handed : RequestsGenuine s

section slot
variable {cfg : NetConfig} {requests : List (RpcHdr × Message)} {srv srv' : RpcServerState} {p : Packet}

theorem SlotGenuine.rests (h : SlotGenuine cfg requests srv) (hrests : Rests srv srv') :
    SlotGenuine cfg requests srv' where
  paramLength := by rw [hrests.keeps.request]; exact h.paramLength
  dataLength := by rw [hrests.keeps.request]; exact h.dataLength
  gathered := fun hr => by
    obtain ⟨hre, hfree⟩ := hrests.reassembling hr
    rw [hfree, hrests.keeps.clientID, hrests.keeps.channel, hrests.keeps.ID, hrests.keeps.request, hrests.fragsReceived,
      hrests.keeps.actualParamSize, hrests.keeps.actualDataSize]
    exact h.gathered hre

variable {r : RpcHdr × Message} {payload : Nat}

section
variable (h : SlotGenuine cfg requests srv)
include h

theorem SlotGenuine.room (hsize : WellSized r.1 r.2) :
    RoomFor r.1 srv.request where
  paramFits := by rw [h.paramLength]; exact hsize.param_le
  dataFits := by rw [h.dataLength]; exact hsize.data_le
  paramInt := by rw [h.paramLength]; decide
  dataInt := by rw [h.dataLength]; decide

/-- A server process that `RpcServerAlloc` has found. -/
theorem SlotGenuine.cleared : SlotGenuine cfg requests srv.clearFree where
  paramLength := h.paramLength
  dataLength := h.dataLength
  gathered := fun hr => ⟨rfl, (h.gathered hr).2⟩

theorem SlotGenuine.reassigned (hfree : srv.state.free = true) (hdr : RpcHdr) :
    SlotGenuine cfg requests (srv.reassign hdr) where
  paramLength := h.paramLength
  dataLength := h.dataLength
  gathered := fun hr => by
    -- one that is free puts nothing together
    have hno := (h.gathered hr).1
    rw [hfree] at hno
    nomatch hno

theorem SlotGenuine.keeps (hkeeps : srv.Keeps srv')
    (hno : ¬ srv'.Reassembling) : SlotGenuine cfg requests srv' where
  paramLength := by rw [hkeeps.request]; exact h.paramLength
  dataLength := by rw [hkeeps.request]; exact h.dataLength
  gathered := fun hr => absurd hr hno

end

theorem genuine_header (hr : RequestOk r) (hsent : HeaderOf r.1 p.hdr)
    (hrequest : srv'.request = rpcScatter p srv.request) : HeaderOf r.1 srv'.requestRpcHdr ∧
      (srv'.requestRpcHdr.flags &&& Flag.typeMask = Flag.request ∨
        srv'.requestRpcHdr.flags &&& Flag.typeMask = Flag.echo) := by
  have hhdr : srv'.requestRpcHdr = p.hdr := by
    rw [RpcServerState.requestRpcHdr, hrequest]
    rfl
  rw [hhdr, hsent.type]
  exact ⟨hsent, hr.type⟩

theorem fragment_of_packetOf (hpacket : PacketOf payload r.1 r.2 p)
    (hnum : p.hdr.numFrags ≠ 0) : Cuttable payload r.1 ∧ ∃ j, Fragment payload r.1 j p := by
  rcases hpacket.shape with hwhole | hfragment
  · exact absurd hwhole.numFrags hnum
  · exact hfragment

theorem whole_of_packetOf (hpacket : PacketOf payload r.1 r.2 p) (hnum : p.hdr.numFrags = 0) : Whole r.1 p := by
  rcases hpacket.shape with hwhole | ⟨-, j, hj⟩
  · exact hwhole
  · have hlt := hj.lt
    rw [← hj.numFrags, hnum] at hlt
    omega

/-- **A packet, for the server process that it is given to.** -/
theorem slot_dispatch (hdistinct : Distinct cfg requests) (hrequests : ∀ r ∈ requests, RequestOk r)
    (h : SlotGenuine cfg requests srv) (hclient : srv.clientID = p.hdr.clientID) (hchannel : srv.channel = p.hdr.channel)
    (hsent : p.hdr.has Flag.ack = true ∨ ∃ r ∈ requests, SentFor cfg r p)
    (hcare : p.hdr.has Flag.ack = true → srv.ID = p.hdr.ID ∨ srv.state.busy = true) :
    SlotGenuine cfg requests (rpcServerDispatch srv p).1 ∧
      (Action.wakeup ∈ (rpcServerDispatch srv p).2 → Genuine requests (rpcServerDispatch srv p).1) := by
  -- a packet that is taken for a request is of one
  have hrequest : p.hdr.has Flag.ack = false → ∃ r ∈ requests, RequestOk r ∧ WellSized r.1 r.2 ∧
      HeaderOf r.1 p.hdr ∧ PacketOf (cfg.payload r.1.clientID) r.1 r.2 p := by
    intro hack
    rcases hsent with hyes | ⟨r, hr, hs⟩
    · rw [hack] at hyes
      cases hyes
    · obtain ⟨hsizes, hroute⟩ := hdistinct.sized r hr
      obtain ⟨hsize, hpacket⟩ := hs.packet hsizes hroute
      exact ⟨r, hr, hrequests r hr, hsize, hs.header, hpacket⟩
  have hnew : p.hdr.ID ≠ srv.ID → srv.state.busy = false → p.hdr.has Flag.ack = false := by
    intro hID hbusy
    by_contra hack
    rcases hcare (by simpa using hack) with heq | hyes
    · exact hID heq.symm
    · rw [hbusy] at hyes
      cases hyes
  have hquiet := not_woken srv p
  have hlengths : (rpcServerDispatch srv p).1.request = rpcScatter p srv.request →
      (rpcServerDispatch srv p).1.request.paramLength = (maxParamSize : Nat) ∧
        (rpcServerDispatch srv p).1.request.dataLength = (maxDataSize : Nat) := by
    intro heq
    rw [heq]
    exact ⟨h.paramLength, h.dataLength⟩
  have hd := dispatched srv p
  have hwoken := @woken srv p
  generalize rpcServerDispatch srv p = out at hd hquiet hlengths hwoken ⊢
  cases hd with
  | stuck hID hbusy hstate hkeeps =>
    exact ⟨h.keeps hkeeps (not_reassembling_of_unfragmented (by rw [hstate])),
      fun hw => absurd hw (hquiet (.inl (by rw [hstate]; rfl)))⟩
  | whole hID hbusy hnum hstate hdelivered hfrags htakes =>
    obtain ⟨r, hr, hok, hsize, hheader, hpacket⟩ := hrequest (hnew hID hbusy)
    obtain ⟨hpl, hdl⟩ := hlengths htakes.request
    obtain ⟨hhdr, htype⟩ := genuine_header hok hheader htakes.request
    refine ⟨⟨hpl, hdl, fun hre => absurd hre (not_reassembling_of_busy (by rw [hstate]; rfl))⟩,
      fun _ => ⟨htype, r, hr, hhdr, ?_⟩⟩
    rw [htakes.request, htakes.actualParamSize, htakes.actualDataSize]
    exact (whole_of_packetOf hpacket hnum).restored hpacket.part (h.room hsize)
  | first hID hbusy hnum hstate hdelivered hfrags htakes =>
    obtain ⟨r, hr, hok, hsize, hheader, hpacket⟩ := hrequest (hnew hID hbusy)
    obtain ⟨hpl, hdl⟩ := hlengths htakes.request
    obtain ⟨hcut, j, hj⟩ := fragment_of_packetOf hpacket hnum
    refine ⟨⟨hpl, hdl, fun _ => ⟨by rw [hstate]; rfl, r, hr, ?_, ?_, ?_, ?_⟩⟩, fun hw => absurd hw (hquiet (.inr (congrArg SrvState.busy hstate)))⟩
    · rw [htakes.clientID, hclient, hheader.clientID]
    · rw [htakes.channel, hchannel, hheader.channel]
    · rw [htakes.ID, hheader.ID]
    · rw [hfrags, htakes.request, htakes.actualParamSize, htakes.actualDataSize]
      exact gathered_first hcut hj hpacket.part (h.room hsize)
  | discard hID hno hstate hkeeps hfrags =>
    exact ⟨h.keeps hkeeps (not_reassembling_of_noReply (by rw [hstate]; exact hno)),
      fun hw => absurd hw (hquiet (.inl (by rw [hstate]; rfl)))⟩
  | closed hID hno hack hclose hstate hkeeps hfrags =>
    exact ⟨h.keeps hkeeps (not_reassembling_of_unfragmented (by rw [hstate]; rfl)),
      fun hw => absurd hw (hquiet (.inr (congrArg SrvState.busy hstate)))⟩
  | acked hID hno hack hclose hstate hkeeps hfrags =>
    exact ⟨h.rests (rests_of_reset hkeeps hfrags hstate), fun hw => absurd hw (hquiet (.inl (by rw [hstate]; rfl)))⟩
  | again hID hno hack hknown hstate hkeeps hfrags =>
    exact ⟨h.rests (rests_of_reset hkeeps hfrags hstate), fun hw => absurd hw (hquiet (.inl (by rw [hstate]; rfl)))⟩
  | more hID hno hack hfragment hmask hnum hnew' hfrags hstate htakes =>
    obtain ⟨r, hr, hok, hsize, hheader, hpacket⟩ := hrequest hack
    obtain ⟨hpl, hdl⟩ := hlengths htakes.request
    obtain ⟨hcut, j, hj⟩ := fragment_of_packetOf hpacket hnum
    have hre : srv.Reassembling := by
      have hfree : srv.state.free = false := congrArg SrvState.free hfragment
      rw [RpcServerState.Reassembling, ← hfragment, SrvState.reset, hfree]
    obtain ⟨-, r', hr', hc', hch', hID', hg⟩ := h.gathered hre
    -- the fragment is of the request that is being put together
    have hsame : r' = r := by
      apply hdistinct.unique r' hr' r hr
      · rw [hc', hclient, hheader.clientID]
      · rw [hch', hchannel, hheader.channel]
      · rw [hID', ← hID, hheader.ID]
    rw [hsame] at hg
    have hmore := hg.more hcut hj hpacket.part
    obtain ⟨hhdr, htype⟩ := genuine_header hok hheader htakes.request
    rw [← hfrags, ← htakes.request, ← htakes.actualParamSize, ← htakes.actualDataSize] at hmore
    refine ⟨⟨hpl, hdl, fun hre' => ?_⟩, fun hw => ⟨htype, r, hr, hhdr, ?_⟩⟩
    · refine ⟨?_, r, hr, ?_, ?_, ?_, hmore⟩
      · rw [hstate]
        split <;> rfl
      · rw [htakes.clientID, hclient, hheader.clientID]
      · rw [htakes.channel, hchannel, hheader.channel]
      · rw [htakes.ID, hheader.ID]
    · apply hmore.restored hcut
      rw [← hj.numFrags]
      by_contra hpart
      have hbusy := (hwoken hw).2
      rw [hstate, if_neg hpart] at hbusy
      exact absurd hbusy (by decide)
  | reset hID hno hack hstate hkeeps hfrags =>
    exact ⟨h.keeps hkeeps (not_reassembling_of_unfragmented (by rw [hstate]; rfl)),
      fun hw => absurd hw (hquiet (.inr (congrArg SrvState.busy hstate)))⟩

end slot

section steps
variable {cfg : NetConfig} {s s' : NetSystem}

variable {srv : RpcServerState} {requests more : List (RpcHdr × Message)}

theorem SlotGenuine.mono (h : SlotGenuine cfg requests srv) (hsub : ∀ r ∈ requests, r ∈ more) : SlotGenuine cfg more srv where
  paramLength := h.paramLength
  dataLength := h.dataLength
  gathered := fun hr => by
    obtain ⟨hfree, r, hin, hrest⟩ := h.gathered hr
    exact ⟨hfree, r, hsub r hin, hrest⟩

theorem Genuine.mono (h : Genuine requests srv) (hsub : ∀ r ∈ requests, r ∈ more) : Genuine more srv where
  type := h.type
  request := by
    obtain ⟨r, hr, hrest⟩ := h.request
    exact ⟨r, hsub r hr, hrest⟩

theorem slotGenuine_init (host : Host) (spriteID : Int) (memory : RpcServerState) (index : Nat)
    (requests : List (RpcHdr × Message)) : SlotGenuine cfg requests (rpcInitServerState host spriteID memory index) :=
  ⟨rfl, rfl, fun hr => absurd hr (not_reassembling_of_unfragmented rfl)⟩

theorem GenuineInv.same (h : GenuineInv cfg s) (htable : s'.server.table = s.server.table)
    (hrequests : s'.requests = s.requests) (hhanded : s'.handed = s.handed) : GenuineInv cfg s' where
  distinct := by rw [hrequests]; exact h.distinct
  slots := by rw [htable, hrequests]; exact h.slots
  handed := by rw [RequestsGenuine, hrequests, hhanded]; exact h.handed

theorem genuineInv_set (h : GenuineInv cfg s) {i : Nat} (handed : List RpcServerState)
    (hslot : i < s.server.table.rpcNumServers → SlotGenuine cfg s.requests srv)
    (htable : s'.server.table = s.server.table.set i srv) (hrequests : s'.requests = s.requests)
    (hhanded : s'.handed = handed ++ s.handed) (hnew : ∀ srv ∈ handed, Genuine s.requests srv) : GenuineInv cfg s' where
  distinct := by rw [hrequests]; exact h.distinct
  slots := by
    rw [htable, hrequests]
    intro j hj
    by_cases hji : j = i
    · rw [hji, servers_self]
      exact hslot (hji ▸ hj)
    · rw [servers_other _ _ hji]
      exact h.slots j hj
  handed := by
    rw [RequestsGenuine, hrequests, hhanded]
    intro srv hsrv
    exact (mem_append.1 hsrv).elim (hnew srv) (h.handed srv)

theorem genuineInv_receive (hrec : Recorded cfg s) (h : GenuineInv cfg s) {c : Int} {p : Packet} {held : Bool} (nack : Bool)
    (hp : p ∈ s.toServer c) (hhead : p ∈ (s.toServer c).head?) (hcare : s.AckSteered c held) :
    GenuineInv cfg (s.serverReceive cfg p held nack) := by
  rw [NetSystem.serverReceive]
  split
  · rename_i i table hf
    by_cases hheld : held = true
    · rw [if_pos hheld] at hf
      cases hf
    rw [if_neg hheld] at hf
    obtain ⟨hlt, htable, hcases⟩ := found hf
    -- the server process as it was found is bound to the packet's client
    have hfound : SlotGenuine cfg s.requests (table.servers i) ∧ (table.servers i).clientID = p.hdr.clientID ∧
        (table.servers i).channel = p.hdr.channel ∧ (table.servers i).ID = (s.server.table.servers i).ID ∧
        (table.servers i).state.busy = (s.server.table.servers i).state.busy := by
      rcases hcases with ⟨-, hmatches, heq⟩ | ⟨-, havailable, heq⟩
      · rw [heq]
        exact ⟨(h.slots i hlt).cleared, hmatches.2.1, hmatches.2.2, rfl, rfl⟩
      · rw [heq]
        exact ⟨(h.slots i hlt).reassigned havailable.2 p.hdr, rfl, rfl, rfl, rfl⟩
    obtain ⟨hslot, hclient, hchannel, hID, hbusy⟩ := hfound
    have hsent : p.hdr.has Flag.ack = true ∨ ∃ r ∈ s.requests, SentFor cfg r p :=
      (hrec.toServer c p hp).imp id (Exists.imp fun _ hr => ⟨hr.1, hr.2.2⟩)
    obtain ⟨hslot', hgenuine⟩ := slot_dispatch h.distinct hrec.requests hslot hclient hchannel hsent (fun hack => by
      rw [hID, hbusy]
      exact hcare p hhead (by simpa using hheld) hack (i, table) hf)
    have hdone := hslot'.rests (perform_rests cfg.reply (rpcServerDispatch (table.servers i) p).2 _)
    refine genuineInv_set h (i := i) (if Action.wakeup ∈ (rpcServerDispatch (table.servers i) p).2 then
        [(rpcServerDispatch (table.servers i) p).1] else []) (fun _ => hdone) rfl rfl ?_ ?_
    · show (if _ then _ else _) = _
      split <;> rfl
    · intro srv hsrv
      split at hsrv
      · rename_i hw
        rw [mem_singleton.1 hsrv]
        exact hgenuine hw
      · exact absurd hsrv not_mem_nil
  · split
    · exact h.same rfl rfl rfl
    · exact h

theorem distinct_setup (h : Distinct cfg s.requests) {c : Int} {ch : Nat} {storage : RpcStorage} {r : RpcHdr × Message}
    (hcare : s.SetupCareful cfg c ch storage) (hclient : r.1.clientID = c) (hchannel : r.1.channel = ch)
    (hID : r.1.ID = (s.clients c).rpcID) (hmsg : r.2 = storage.request) : Distinct cfg (r :: s.requests) := by
  obtain ⟨hfresh, hsizes, hroute⟩ := hcare
  constructor
  case sized =>
    intro q hq
    rcases mem_cons.1 hq with rfl | hq
    · rw [hclient, hmsg]
      exact ⟨hsizes, hroute⟩
    · exact h.sized q hq
  case unique =>
    intro q hq q' hq' hc hch hid
    rcases mem_cons.1 hq with heq | hin
    · rcases mem_cons.1 hq' with heq' | hin'
      · exact heq.trans heq'.symm
      · rw [heq] at hc hch hid
        exact absurd (hid.symm.trans hID) (hfresh q' hin' (hc.symm.trans hclient) (hch.symm.trans hchannel))
    · rcases mem_cons.1 hq' with heq' | hin'
      · rw [heq'] at hc hch hid
        exact absurd (hid.trans hID) (hfresh q hin (hc.trans hclient) (hch.trans hchannel))
      · exact h.unique q hin q' hin' hc hch hid

theorem genuineInv_of_step (hrec : Recorded cfg s) (h : GenuineInv cfg s) {l : NetLabel}
    (hcare : s.GenuineCareful cfg l) (hs : s.step cfg l = some s') : GenuineInv cfg s' := by
  cases l with
  | setup c ch serverID command storage =>
    rw [NetSystem.step] at hs
    split at hs
    · cases hs
      have hch : ((s.clients c).calls ch).chan.requestRpcHdr.channel = ch := (hrec.calls c ch).channel
      rw [setup_calls]
      exact {
        distinct := distinct_setup h.distinct hcare rfl hch rfl rfl
        slots := fun i hi => (h.slots i hi).mono (fun r hr => mem_cons_of_mem _ hr)
        handed := fun srv hsrv => (h.handed srv hsrv).mono (fun r hr => mem_cons_of_mem _ hr) }
    · cases hs
  | elsewhere c =>
    cases hs
    exact h.same rfl rfl rfl
  | go c ch =>
    obtain ⟨r, -, rfl⟩ := Option.map_eq_some_iff.1 hs
    exact h.same rfl rfl rfl
  | timeout c ch =>
    cases hs
    exact h.same rfl rfl rfl
  | free c ch =>
    rw [NetSystem.step] at hs
    split at hs
    · cases hs
      exact h.same rfl rfl rfl
    · cases hs
  | clientReceive c k =>
    obtain ⟨p, -, rfl⟩ := Option.map_eq_some_iff.1 hs
    rw [NetSystem.clientReceive]
    dsimp only
    split
    · split
      · split
        · exact h
        · exact h.same rfl rfl rfl
      · exact h.same rfl rfl rfl
    · exact h
  | serverReceive c again held nack =>
    rw [NetSystem.step] at hs
    split at hs
    · cases hs
    · rename_i p rest hq
      cases hs
      have hinv := genuineInv_receive hrec h nack (by rw [hq]; exact mem_cons_self)
        (by rw [hq]; exact rfl) hcare
      split
      · exact hinv
      · exact hinv.same rfl rfl rfl
  | lose c =>
    rw [NetSystem.step] at hs
    split at hs
    · cases hs
    · cases hs
      exact h.same rfl rfl rfl
  | host l =>
    rw [NetSystem.step] at hs
    split at hs
    · rename_i hown
      obtain ⟨server, hstep, rfl⟩ := Option.map_eq_some_iff.1 hs
      rcases own_step hown hstep with ⟨memory, htable⟩ | ⟨hnum, hrests⟩
      · refine ⟨h.distinct, fun i hi => ?_, h.handed⟩
        show SlotGenuine cfg s.requests (server.table.servers i)
        replace hi : i < server.table.rpcNumServers := hi
        rw [htable] at hi ⊢
        by_cases hlast : i = s.server.table.rpcNumServers
        · rw [hlast]
          have hself : (s.server.table.create cfg.server.host cfg.server.spriteID memory).servers
              s.server.table.rpcNumServers = rpcInitServerState cfg.server.host cfg.server.spriteID memory
                s.server.table.rpcNumServers := Function.update_self _ _ _
          rw [hself]
          exact slotGenuine_init _ _ _ _ _
        · have hother : (s.server.table.create cfg.server.host cfg.server.spriteID memory).servers i =
              s.server.table.servers i := Function.update_of_ne hlast _ _
          rw [hother]
          exact h.slots i (Nat.lt_of_le_of_ne (Nat.le_of_lt_succ hi) hlast)
      · refine ⟨h.distinct, fun i hi => (h.slots i ?_).rests (hrests i), h.handed⟩
        rw [← hnum]
        exact hi
    · cases hs
  | reply pid error storage =>
    rw [NetSystem.step] at hs
    split at hs
    · cases hs
      exact genuineInv_set h [] (fun hi => (h.slots _ hi).rests (reply_rests _ _ _)) rfl rfl rfl
        (fun _ hno => absurd hno not_mem_nil)
    · cases hs
  | errorReply pid error =>
    rw [NetSystem.step] at hs
    split at hs
    · cases hs
      exact genuineInv_set h [] (fun hi => (h.slots _ hi).rests (reply_rests _ _ _)) rfl rfl rfl
        (fun _ hno => absurd hno not_mem_nil)
    · cases hs

theorem initial_genuineInv (cfg : NetConfig) (servers : Nat → RpcServerState)
    (channels : Int → Nat → RpcClientChannel) : GenuineInv cfg (NetSystem.initial cfg servers channels) where
  distinct := ⟨fun _ hr => absurd hr not_mem_nil, fun _ hr => absurd hr not_mem_nil⟩
  slots := fun _ hi => absurd hi (Nat.not_lt_zero _)
  handed := fun _ hsrv => absurd hsrv not_mem_nil

/-- **Every service procedure runs on a genuine, complete request**, where acknowledgments get to whom they are for. -/
theorem requests_genuine (cfg : NetConfig) (servers : Nat → RpcServerState) (channels : Int → Nat → RpcClientChannel)
    {s : NetSystem} (hrun : Run (NetSystem.step cfg) (NetSystem.GenuineCareful cfg)
      (NetSystem.initial cfg servers channels) s) : RequestsGenuine s := by
  exact (hrun.invariant_on (fun _ => recorded_of_run) (fun _ _ _ hk hi hc hs => genuineInv_of_step hk hi hc hs)
    (initial_genuineInv cfg servers channels)).handed

end steps

instance (cfg : NetConfig) (s : NetSystem) (l : NetLabel) : Decidable (s.GenuineCareful cfg l) :=
  match l with
  | .setup c ch _ _ storage => inferInstanceAs (Decidable (s.SetupCareful cfg c ch storage))
  | .serverReceive c _ held _ => inferInstanceAs (Decidable (s.AckSteered c held))
  | .elsewhere _ => .isTrue trivial
  | .go _ _ => .isTrue trivial
  | .timeout _ _ => .isTrue trivial
  | .free _ _ => .isTrue trivial
  | .clientReceive _ _ => .isTrue trivial
  | .lose _ => .isTrue trivial
  | .host _ => .isTrue trivial
  | .reply _ _ _ => .isTrue trivial
  | .errorReply _ _ => .isTrue trivial

/-- Client 5 sends two server processes 2000 bytes in two fragments, of which the first arrives twice. -/
def twoHalves : List NetLabel :=
  startServers ++ [.setup 5 0 1 9 storageOfTwo, .go 5 0, .serverReceive 5 true false false,
    .serverReceive 5 false false false, .serverReceive 5 false false false]

theorem two_halves_genuine :
    ∃ s, exec (guarded (NetSystem.GenuineCareful smallNet) (NetSystem.step smallNet)) smallStart twoHalves = some s ∧
      s.handed.length = 1 ∧ RequestsGenuine s :=
  ⟨_, rfl, rfl, requests_genuine smallNet (fun _ => blankServer) (fun _ _ => plainChannel)
    (run_of_guarded twoHalves _ _ rfl)⟩

/-- Client 5 answers twice. The first frees the process, given to client 7; the second is taken for another's
    request. -/
def lateAnswer : List NetLabel :=
  startServers ++ [.setup 5 0 1 9 emptyStorage, .go 5 0, .serverReceive 5 false false false, .host (.wake 0),
    .host (.call 0 true), .reply 0 0 emptyMessage, .host (.loopTop 0 false), .clientReceive 5 0, .go 5 0, .free 5 0,
    .host (.reclaim 0 true), .host (.reclaim 0 false), .clientReceive 5 1, .clientReceive 5 2,
    .serverReceive 5 false false false, .elsewhere 7, .setup 7 0 1 9 emptyStorage, .go 7 0,
    .serverReceive 7 false false false, .serverReceive 5 false false false]

theorem answer_taken :
    ∃ s, Run (NetSystem.step smallNet) (fun _ _ => True) smallStart s ∧
      ∃ srv ∈ s.handed, srv.requestRpcHdr.flags &&& Flag.typeMask = Flag.ack ∧ ¬ Genuine s.requests srv := by
  refine ⟨_, run_of_exec (A := fun _ => True) lateAnswer _ _ (fun _ _ => trivial) rfl, _, mem_cons_self, rfl, ?_⟩
  intro h
  exact h.type.elim (fun hno => nomatch hno) (fun hno => nomatch hno)

end SpriteKernel.Rpc
