import SpriteKernel.Rpc.RoundTrip
import SpriteKernel.Rpc.Reply

/- What `RpcOutput` sends: the whole message in a packet, or fragments of it
   (`emitted`); and what is sent by a server process. -/
namespace SpriteKernel.Rpc

open List
open Machine Bytes Pieces

section emitted
variable {host : Host} {hdr : RpcHdr} {msg : Message} {mask : BitVec 32}

variable {p : Packet}

theorem mem_sendFragments {n : Nat} : ∀ {cs : List Cut} {i : Nat},
    p ∈ sendFragments host hdr msg n mask i cs →
      ∃ j, ∃ h : j < cs.length, p = fragmentPacket host hdr msg n (i + j) cs[j] ∧ fragID (i + j) &&& mask ≠ 0
  | [], _, h => absurd h (by simp [sendFragments])
  | c :: cs, i, h => by
    have hrest : p ∈ sendFragments host hdr msg n mask (i + 1) cs →
        ∃ j, ∃ h : j < (c :: cs).length, p = fragmentPacket host hdr msg n (i + j) (c :: cs)[j] ∧
          fragID (i + j) &&& mask ≠ 0 := by
      intro hp
      obtain ⟨j, hj, he, hm⟩ := mem_sendFragments hp
      rw [Nat.add_assoc, Nat.add_comm 1 j] at he hm
      exact ⟨j + 1, Nat.succ_lt_succ hj, he, hm⟩
    rw [sendFragments] at h
    split at h
    · rename_i hm
      rcases mem_cons.1 h with he | hp
      · exact ⟨0, Nat.succ_pos _, he, hm⟩
      · exact hrest hp
    · exact hrest h

variable {route : Option Nat} {pkts : List Packet} {out : RpcHdr}

/-- **What `RpcOutput` sends.** -/
theorem emitted (h : rpcOutput host route hdr msg mask = .ok (out, pkts)) : ∃ maxPacket, route = some maxPacket ∧
    (uint32 (hdr.paramSize + hdr.dataSize) ≤ maxPacket - sizeofRpcHdr ∧ out = wholeHdr host (marked host hdr) ∧
      pkts = [wholePacket host (marked host hdr) msg] ∨
    maxPacket - sizeofRpcHdr < uint32 (hdr.paramSize + hdr.dataSize) ∧
      hdr.paramSize ≤ (maxParamSize : Int) ∧ hdr.dataSize ≤ (maxDataSize : Int) ∧ out = marked host hdr ∧
      ∀ p ∈ pkts, ∃ j < (cutsOf (maxPacket - sizeofRpcHdr) hdr).length,
        p = cutPacket host (marked host hdr) msg (cutsOf (maxPacket - sizeofRpcHdr) hdr) j ∧
        fragID j &&& sendFragMask (marked host hdr) mask (cutsOf (maxPacket - sizeofRpcHdr) hdr).length ≠ 0) := by
  cases route with
  | none => nomatch h
  | some maxPacket =>
    refine ⟨maxPacket, rfl, ?_⟩
    replace h : (if uint32 (hdr.paramSize + hdr.dataSize) > maxPacket - sizeofRpcHdr then
        if hdr.paramSize > (maxParamSize : Int) then Except.error OutputError.paramsTooBig
        else if hdr.dataSize > (maxDataSize : Int) then .error OutputError.dataTooBig
        else .ok (marked host hdr, sendFragments host (marked host hdr) msg
          (cutsOf (maxPacket - sizeofRpcHdr) hdr).length (sendFragMask (marked host hdr) mask
            (cutsOf (maxPacket - sizeofRpcHdr) hdr).length) 0 (cutsOf (maxPacket - sizeofRpcHdr) hdr))
      else .ok (wholeHdr host (marked host hdr), [wholePacket host (marked host hdr) msg])) = .ok (out, pkts) := h
    split at h
    · rename_i hbig
      split at h
      · nomatch h
      rename_i hparam
      split at h
      · nomatch h
      rename_i hdata
      cases h
      refine .inr ⟨hbig, Int.not_lt.1 hparam, Int.not_lt.1 hdata, rfl, fun p hp => ?_⟩
      obtain ⟨j, hj, he, hm⟩ := mem_sendFragments hp
      rw [Nat.zero_add] at he hm
      refine ⟨j, hj, ?_, hm⟩
      rw [he, cutPacket, getD_eq_getElem?_getD, List.getElem?_eq_getElem hj, Option.getD_some]
    · rename_i hsmall
      cases h
      exact .inl ⟨not_lt.1 hsmall, rfl, rfl⟩

theorem length_cutsOf_le {payload : Nat} (hroute : maxSize / maxNumFrags ≤ payload)
    (hparam : hdr.paramSize ≤ (maxParamSize : Int)) (hdata : hdr.dataSize ≤ (maxDataSize : Int)) :
    (cutsOf payload hdr).length ≤ 16 := by
  have hp : hdr.paramSize ≤ 1024 := hparam
  have hd : hdr.dataSize ≤ 16384 := hdata
  have hm : 1088 ≤ payload := hroute
  apply length_cutMessage_le
  omega

/-- The fields that `RpcOutput` leaves as it got them, in the header and in every packet. -/
structure SameMessage (host : Host) (hdr h : RpcHdr) : Prop where
  flags : h.flags = hdr.flags ||| host.marks
  clientID : h.clientID = hdr.clientID
  serverID : h.serverID = hdr.serverID
  channel : h.channel = hdr.channel
  serverHint : h.serverHint = hdr.serverHint
  bootID : h.bootID = hdr.bootID
  ID : h.ID = hdr.ID
  command : h.command = hdr.command

theorem sameMessage_whole : SameMessage host hdr (wholeHdr host (marked host hdr)) :=
  ⟨rfl, rfl, rfl, rfl, rfl, rfl, rfl, rfl⟩

theorem emitted_same (h : rpcOutput host route hdr msg mask = .ok (out, pkts)) :
    SameMessage host hdr out ∧ ∀ p ∈ pkts, SameMessage host hdr p.hdr := by
  obtain ⟨maxPacket, -, ⟨-, rfl, rfl⟩ | ⟨-, -, -, rfl, hall⟩⟩ := emitted h
  · refine ⟨sameMessage_whole, fun p hp => ?_⟩
    rw [mem_singleton.1 hp]
    exact sameMessage_whole
  · refine ⟨⟨rfl, rfl, rfl, rfl, rfl, rfl, rfl, rfl⟩, fun p hp => ?_⟩
    obtain ⟨j, -, rfl, -⟩ := hall p hp
    exact ⟨rfl, rfl, rfl, rfl, rfl, rfl, rfl, rfl⟩

theorem mem_outputPackets {r : Except OutputError (RpcHdr × List Packet)} (hp : p ∈ outputPackets r) :
    ∃ out pkts, r = .ok (out, pkts) ∧ p ∈ pkts := by
  cases r with
  | error e => exact absurd hp not_mem_nil
  | ok r => exact ⟨r.1, r.2, rfl, hp⟩

theorem ack_whole {cfg : ReplyConfig} {srv : RpcServerState} {flags fragMask : BitVec 32} (hp : p ∈ outputPackets (rpcOutput cfg.host route (srv.ackRpcHdr cfg flags fragMask) emptyMessage 0)) :
    p = wholePacket cfg.host (marked cfg.host (srv.ackRpcHdr cfg flags fragMask)) emptyMessage := by
  obtain ⟨out, pkts, hout, hp⟩ := mem_outputPackets hp
  obtain ⟨maxPacket, -, ⟨-, -, rfl⟩ | ⟨hbig, -⟩⟩ := emitted hout
  · exact mem_singleton.1 hp
  · have hzero : uint32 ((srv.ackRpcHdr cfg flags fragMask).paramSize + (srv.ackRpcHdr cfg flags fragMask).dataSize) = 0 := rfl
    omega

end emitted

section flags
variable {h h' : RpcHdr} {host : Host}

def markBits : BitVec 32 := Flag.notActive ||| Flag.fast ||| Flag.serverRecov

variable {f : BitVec 32}

theorem marks_and (host : Host) (hf : markBits &&& f = 0) : host.marks &&& f = 0 := by
  have hsub : host.marks &&& markBits = host.marks := by
    rw [Host.marks]
    cases host.serviceEnabled <;> cases host.transparent <;> cases host.serverDriven <;> decide
  rw [← hsub, BitVec.and_assoc, hf]
  exact BitVec.and_zero

theorem has_of_flags {m : BitVec 32} (hflags : h'.flags = h.flags ||| m) (hm : m &&& f = 0) : h'.has f = h.has f := by
  have hor : (h.flags ||| m) &&& f = h.flags &&& f ||| m &&& f := BitVec.and_or_distrib_right
  have hzero : h.flags &&& f ||| 0 = h.flags &&& f := BitVec.or_zero
  rw [RpcHdr.has, RpcHdr.has, hflags, hor, hm, hzero]

theorem SameMessage.has (hs : SameMessage host h h') (hf : markBits &&& f = 0) : h'.has f = h.has f :=
  has_of_flags hs.flags (marks_and host hf)

theorem has_resend (chan : RpcClientChannel) : chan.resend.requestRpcHdr.has Flag.ack = chan.requestRpcHdr.has Flag.ack :=
  has_of_flags rfl (by decide)

end flags

end SpriteKernel.Rpc
