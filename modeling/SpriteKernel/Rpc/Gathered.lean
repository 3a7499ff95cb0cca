import SpriteKernel.Rpc.Emitted

/- Packets that are not all of one sending. A host marks and hints the packets of a
   message as it goes, so those of a later sending are not the same packets; they
   carry the same ranges of the message, and have the same numbers. -/
namespace SpriteKernel.Rpc

open List
open Machine Bytes Pieces

structure Restored (hdr : RpcHdr) (msg : Message) (b : Buffers) (paramSize dataSize : Int) : Prop where
  paramSize : paramSize = hdr.paramSize
  dataSize : dataSize = hdr.dataSize
  param : bytesFrom b.param 0 hdr.paramSize.toNat = bytesFrom msg.param 0 hdr.paramSize.toNat
  data : bytesFrom b.data 0 hdr.dataSize.toNat = bytesFrom msg.data 0 hdr.dataSize.toNat

/-- The header is one of the message's: it names the same RPC, and is of the same type. -/
structure HeaderOf (hdr h : RpcHdr) : Prop where
  clientID : h.clientID = hdr.clientID
  channel : h.channel = hdr.channel
  ID : h.ID = hdr.ID
  command : h.command = hdr.command
  type : h.flags &&& Flag.typeMask = hdr.flags &&& Flag.typeMask

/-- The packet is all of the message. -/
structure Whole (hdr : RpcHdr) (p : Packet) : Prop where
  numFrags : p.hdr.numFrags = 0
  params : p.params = (0, hdr.paramSize)
  data : p.data = (0, hdr.dataSize)

/-- The `j`th cut of a message. -/
def cutAt (payload : Nat) (hdr : RpcHdr) (j : Nat) : Cut := (cutsOf payload hdr).getD j ⟨0, 0, 0, 0⟩

/-- The packet is the `j`th fragment of the message. -/
structure Fragment (payload : Nat) (hdr : RpcHdr) (j : Nat) (p : Packet) : Prop where
  lt : j < (cutsOf payload hdr).length
  numFrags : p.hdr.numFrags = (cutsOf payload hdr).length
  fragMask : p.hdr.fragMask = fragID j
  params : p.params = (cutAt payload hdr j).params
  data : p.data = (cutAt payload hdr j).data

/-- A message that is cut into as many fragments as a mask has bits for, at most. -/
structure Cuttable (payload : Nat) (hdr : RpcHdr) : Prop where
  few : (cutsOf payload hdr).length ≤ maxNumFrags
  params : Tiles 0 ((cutsOf payload hdr).map Cut.params) hdr.paramSize
  data : Tiles 0 ((cutsOf payload hdr).map Cut.data) hdr.dataSize

structure PacketOf (payload : Nat) (hdr : RpcHdr) (msg : Message) (p : Packet) : Prop where
  header : HeaderOf hdr p.hdr
  part : IsPart hdr msg p
  shape : Whole hdr p ∨ Cuttable payload hdr ∧ ∃ j, Fragment payload hdr j p

section sent
variable {host : Host} {hdr h : RpcHdr} {msg : Message} {payload : Nat}

theorem HeaderOf.trans {h' : RpcHdr} (h₁ : HeaderOf hdr h) (h₂ : HeaderOf h h') : HeaderOf hdr h' where
  clientID := h₂.clientID.trans h₁.clientID
  channel := h₂.channel.trans h₁.channel
  ID := h₂.ID.trans h₁.ID
  command := h₂.command.trans h₁.command
  type := h₂.type.trans h₁.type

theorem SameMessage.headerOf (hs : SameMessage host hdr h) : HeaderOf hdr h where
  clientID := hs.clientID
  channel := hs.channel
  ID := hs.ID
  command := hs.command
  type := by
    have hor : (hdr.flags ||| host.marks) &&& Flag.typeMask =
        hdr.flags &&& Flag.typeMask ||| host.marks &&& Flag.typeMask := BitVec.and_or_distrib_right
    -- the marks of a host are no part of the type
    rw [hs.flags, hor, marks_and host (by decide)]
    exact BitVec.or_zero

/-- A message of lawful sizes can be cut for a route whose packets take a sixteenth of the largest. -/
theorem cuttable_of_wellSized (hsize : WellSized hdr msg) (hroute : maxSize / maxNumFrags ≤ payload) :
    Cuttable payload hdr := by
  have hm : 1088 ≤ payload := hroute
  obtain ⟨hparams, hdata⟩ := cutsOf_tiles hsize (show 0 < payload by omega)
  exact ⟨length_cutsOf_le hroute hsize.param_le hsize.data_le, hparams, hdata⟩

theorem cutAt_mem {j : Nat} (hj : j < (cutsOf payload hdr).length) : cutAt payload hdr j ∈ cutsOf payload hdr := by
  rw [cutAt, getD_eq_getElem?_getD, List.getElem?_eq_getElem hj, Option.getD_some]
  exact getElem_mem hj

theorem fragment_isPart {p : Packet} {j : Nat} (hcut : Cuttable payload hdr) (hj : Fragment payload hdr j p)
    (hbody : p.body = bytesFrom msg.param p.hdr.paramOffset p.hdr.paramSize.toNat ++
      bytesFrom msg.data p.hdr.dataOffset p.hdr.dataSize.toNat) : IsPart hdr msg p where
  params := by
    rw [hj.params]
    exact Tiles.within hcut.params _ (mem_map_of_mem (cutAt_mem hj.lt))
  data := by
    rw [hj.data]
    exact Tiles.within hcut.data _ (mem_map_of_mem (cutAt_mem hj.lt))
  body := hbody

/-- **What is sent for a header of the message are packets of the message.** -/
theorem packetOf_emitted {maxPacket : Nat} {mask : BitVec 32} {out : RpcHdr} {pkts : List Packet}
    (hsize : WellSized hdr msg) (hroute : maxSize / maxNumFrags ≤ maxPacket - sizeofRpcHdr)
    (hheader : HeaderOf hdr h) (hparam : h.paramSize = hdr.paramSize) (hdata : h.dataSize = hdr.dataSize)
    (hout : rpcOutput host (some maxPacket) h msg mask = .ok (out, pkts)) :
    ∀ p ∈ pkts, PacketOf (maxPacket - sizeofRpcHdr) hdr msg p := by
  intro p hp
  have hsame := (emitted_same hout).2 p hp
  have hcut := cuttable_of_wellSized hsize hroute
  obtain ⟨_, hmax, ⟨-, -, hpkts⟩ | ⟨-, -, -, -, hall⟩⟩ := emitted hout
  · have hp' : p = wholePacket host (marked host h) msg := by
      rw [hpkts] at hp
      exact mem_singleton.1 hp
    have hsize' : WellSized (marked host h) msg :=
      ⟨hparam ▸ hsize.param_nonneg, hparam ▸ hsize.param_le, hdata ▸ hsize.data_nonneg, hdata ▸ hsize.data_le,
        hparam ▸ hsize.paramLength, hdata ▸ hsize.dataLength⟩
    have hpart := wholePacket_isPart host hsize'
    refine ⟨hheader.trans hsame.headerOf, ?_, .inl ?_⟩
    · rw [hp']
      exact ⟨by rw [← hparam]; exact hpart.params, by rw [← hdata]; exact hpart.data, hpart.body⟩
    · rw [hp']
      exact ⟨rfl, by rw [← hparam]; rfl, by rw [← hdata]; rfl⟩
  · cases hmax
    obtain ⟨j, hj, hp', -⟩ := hall p hp
    have hcuts : cutsOf (maxPacket - sizeofRpcHdr) h = cutsOf (maxPacket - sizeofRpcHdr) hdr := by
      rw [cutsOf, cutsOf, hparam, hdata]
    rw [hcuts] at hj hp'
    have hfragment : Fragment (maxPacket - sizeofRpcHdr) hdr j p := by
      rw [hp']
      exact ⟨hj, rfl, rfl, rfl, rfl⟩
    refine ⟨hheader.trans hsame.headerOf, fragment_isPart hcut hfragment ?_, .inr ⟨hcut, j, hfragment⟩⟩
    rw [hp']
    rfl

end sent

/-- What a receiver has of a message: the packets in are its fragments, their bits are the mask. -/
def Gathered (payload : Nat) (hdr : RpcHdr) (msg : Message) (mask : BitVec 32) (b : Buffers)
    (paramSize dataSize : Int) : Prop :=
  ∃ taken, Assembled hdr msg taken b paramSize dataSize ∧ (∀ p ∈ taken, ∃ j, Fragment payload hdr j p) ∧
    ∀ j < 32, (mask.getLsbD j = true ↔ ∃ p ∈ taken, Fragment payload hdr j p)

section gathered
variable {payload : Nat} {hdr : RpcHdr} {msg : Message} {mask : BitVec 32} {b : Buffers} {ps ds : Int} {p : Packet}
  {j : Nat}

section
variable (hcut : Cuttable payload hdr)
include hcut

theorem Fragment.lt_32 (hj : Fragment payload hdr j p) : j < 32 := by
  have hfew := hcut.few
  have hlt := hj.lt
  rw [maxNumFrags] at hfew
  omega

theorem Fragment.unique {i : Nat} (hi : Fragment payload hdr i p)
    (hj : Fragment payload hdr j p) : i = j :=
  fragID_injective (hi.lt_32 hcut) (hj.lt_32 hcut) (hi.fragMask.symm.trans hj.fragMask)

theorem Fragment.getLsbD (hj : Fragment payload hdr j p) (i : Nat) :
    p.hdr.fragMask.getLsbD i = decide (j = i) := by
  rw [hj.fragMask]
  exact fragID_getLsbD (hj.lt_32 hcut)

end

theorem Whole.restored (hw : Whole hdr p) (hpart : IsPart hdr msg p) (hroom : RoomFor hdr b) :
    Restored hdr msg (rpcScatter p b) (max 0 (int32 (p.hdr.paramSize + p.hdr.paramOffset)))
      (max 0 (int32 (p.hdr.dataSize + p.hdr.dataOffset))) := by
  have htaken := Assembled.scatter hroom.assembled hpart
  have hparams : Tiles 0 ([p].map Packet.params) hdr.paramSize := by
    rw [map_singleton, hw.params]
    exact ⟨rfl, (hw.params ▸ hpart.params).2.1, Int.zero_add _⟩
  have hdata : Tiles 0 ([p].map Packet.data) hdr.dataSize := by
    rw [map_singleton, hw.data]
    exact ⟨rfl, (hw.data ▸ hpart.data).2.1, Int.zero_add _⟩
  obtain ⟨hps, hpb⟩ := htaken.params.complete hparams (fun _ => Iff.rfl)
  obtain ⟨hds, hdb⟩ := htaken.data.complete hdata (fun _ => Iff.rfl)
  exact ⟨hps, hds, hpb, hdb⟩

section
variable (hcut : Cuttable payload hdr)
include hcut

theorem gathered_first (hj : Fragment payload hdr j p) (hpart : IsPart hdr msg p)
    (hroom : RoomFor hdr b) :
    Gathered payload hdr msg p.hdr.fragMask (rpcScatter p b) (max 0 (int32 (p.hdr.paramSize + p.hdr.paramOffset)))
      (max 0 (int32 (p.hdr.dataSize + p.hdr.dataOffset))) := by
  refine ⟨[p], Assembled.scatter hroom.assembled hpart, ?_, ?_⟩
  · intro q hq
    rw [mem_singleton.1 hq]
    exact ⟨j, hj⟩
  · intro i hi
    rw [hj.getLsbD hcut, decide_eq_true_iff]
    constructor
    · rintro rfl
      exact ⟨p, mem_singleton_self p, hj⟩
    · rintro ⟨q, hq, hqi⟩
      rw [mem_singleton.1 hq] at hqi
      exact hj.unique hcut hqi

theorem Gathered.more (hg : Gathered payload hdr msg mask b ps ds)
    (hj : Fragment payload hdr j p) (hpart : IsPart hdr msg p) :
    Gathered payload hdr msg (mask ||| p.hdr.fragMask) (rpcScatter p b)
      (max ps (int32 (p.hdr.paramSize + p.hdr.paramOffset))) (max ds (int32 (p.hdr.dataSize + p.hdr.dataOffset))) := by
  obtain ⟨taken, htaken, hall, hmask⟩ := hg
  refine ⟨p :: taken, htaken.scatter hpart, ?_, ?_⟩
  · intro q hq
    rcases mem_cons.1 hq with rfl | hq
    · exact ⟨j, hj⟩
    · exact hall q hq
  · intro i hi
    rw [BitVec.getLsbD_or, Bool.or_eq_true, hmask i hi, hj.getLsbD hcut, decide_eq_true_iff]
    constructor
    · rintro (⟨q, hq, hqi⟩ | rfl)
      · exact ⟨q, mem_cons_of_mem p hq, hqi⟩
      · exact ⟨p, mem_cons_self, hj⟩
    · rintro ⟨q, hq, hqi⟩
      rcases mem_cons.1 hq with rfl | hq
      · exact .inr (hj.unique hcut hqi)
      · exact .inl ⟨q, hq, hqi⟩

/-- **The mask is complete when the message is there.** -/
theorem Gathered.restored (hg : Gathered payload hdr msg mask b ps ds)
    (hfull : rpcCompleteMask[(cutsOf payload hdr).length]? = some mask) : Restored hdr msg b ps ds := by
  obtain ⟨taken, htaken, hall, hmask⟩ := hg
  have hranges (f : Cut → Int × Int) (g : Packet → Int × Int)
      (hfg : ∀ p j, Fragment payload hdr j p → g p = f (cutAt payload hdr j)) (r : Int × Int) :
      r ∈ taken.map g ↔ r ∈ (cutsOf payload hdr).map f := by
    constructor
    · intro hr
      obtain ⟨p, hp, rfl⟩ := mem_map.1 hr
      obtain ⟨j, hj⟩ := hall p hp
      rw [hfg p j hj]
      exact mem_map_of_mem (cutAt_mem hj.lt)
    · intro hr
      obtain ⟨c, hc, rfl⟩ := mem_map.1 hr
      obtain ⟨j, hj, rfl⟩ := getElem_of_mem hc
      have hfew := hcut.few
      rw [maxNumFrags] at hfew
      have hbit : mask.getLsbD j = true := by
        rw [complete_getLsbD hfew hfull (by omega)]
        exact decide_eq_true hj
      obtain ⟨p, hp, hpj⟩ := (hmask j (by omega)).1 hbit
      have hat : cutAt payload hdr j = (cutsOf payload hdr)[j] := by
        rw [cutAt, getD_eq_getElem?_getD, List.getElem?_eq_getElem hj, Option.getD_some]
      rw [← hat, ← hfg p j hpj]
      exact mem_map_of_mem hp
  obtain ⟨hps, hpb⟩ := htaken.params.complete hcut.params (hranges Cut.params Packet.params (fun _ _ h => h.params))
  obtain ⟨hds, hdb⟩ := htaken.data.complete hcut.data (hranges Cut.data Packet.data (fun _ _ h => h.data))
  exact ⟨hps, hds, hpb, hdb⟩

end

end gathered
end SpriteKernel.Rpc
