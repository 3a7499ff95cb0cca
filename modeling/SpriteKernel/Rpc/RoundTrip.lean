import SpriteKernel.Rpc.Assembly
import Mathlib.Data.List.Nodup

/- A message that is cut by `RpcOutput` and put together by `RpcServerDispatch` is
   the message that was sent, whatever order the packets come in and whichever come again. -/
namespace SpriteKernel.Rpc

open List
open Machine Bytes Pieces

/-- The message of `hdr` and `msg` as `n` packets. -/
structure Series (hdr : RpcHdr) (msg : Message) (n : Nat) (pk : Nat → Packet) : Prop where
  many : 1 < n
  few : n ≤ maxNumFrags
  part : ∀ j < n, IsPart hdr msg (pk j)
  numFrags : ∀ j < n, (pk j).hdr.numFrags = n
  mask : ∀ j < n, (pk j).hdr.fragMask = fragID j
  ID : ∀ j < n, (pk j).hdr.ID = hdr.ID
  flags : ∀ j < n, (pk j).hdr.flags = hdr.flags
  params : Tiles 0 ((List.range n).map (fun j => (pk j).params)) hdr.paramSize
  data : Tiles 0 ((List.range n).map (fun j => (pk j).data)) hdr.dataSize

structure Holds (hdr : RpcHdr) (msg : Message) (srv : RpcServerState) : Prop where
  paramSize : srv.actualParamSize = hdr.paramSize
  dataSize : srv.actualDataSize = hdr.dataSize
  param : bytesFrom srv.request.param 0 hdr.paramSize.toNat = bytesFrom msg.param 0 hdr.paramSize.toNat
  data : bytesFrom srv.request.data 0 hdr.dataSize.toNat = bytesFrom msg.data 0 hdr.dataSize.toNat

/-- The buffers of a server process are as large as a message can be. -/
structure RoomFor (hdr : RpcHdr) (b : Buffers) : Prop where
  paramFits : hdr.paramSize ≤ b.paramLength
  dataFits : hdr.dataSize ≤ b.dataLength
  paramInt : b.paramLength < 2147483648
  dataInt : b.dataLength < 2147483648

section receive
variable {hdr : RpcHdr} {msg : Message} {srv : RpcServerState}

theorem RoomFor.assembled {b : Buffers} (h : RoomFor hdr b) : Assembled hdr msg [] b 0 0 :=
  ⟨h.paramFits, h.dataFits, h.paramInt, h.dataInt, AreaHolds.nil _ _, AreaHolds.nil _ _⟩

/-- The server has put together the packets `taken`. -/
def RpcServerState.HasTaken (hdr : RpcHdr) (msg : Message) (taken : List Packet) (srv : RpcServerState) : Prop :=
  Assembled hdr msg taken srv.request srv.actualParamSize srv.actualDataSize

theorem takeIn_hasTaken {taken : List Packet} {p : Packet} (h : srv.HasTaken hdr msg taken) (hp : IsPart hdr msg p) :
    (srv.takeIn p).HasTaken hdr msg (p :: taken) :=
  Assembled.scatter h hp

theorem foldl_takeIn_hasTaken : ∀ {arrivals taken : List Packet} {srv : RpcServerState},
    srv.HasTaken hdr msg taken → (∀ p ∈ arrivals, IsPart hdr msg p) →
    (arrivals.foldl RpcServerState.takeIn srv).HasTaken hdr msg (arrivals.reverse ++ taken)
  | [], _, _, h, _ => h
  | p :: ps, taken, srv, h, hparts => by
    have hp := takeIn_hasTaken h (hparts p mem_cons_self)
    have hrest := foldl_takeIn_hasTaken hp (fun q hq => hparts q (mem_cons_of_mem p hq))
    rw [reverse_cons, append_assoc]
    exact hrest

theorem holds_of_hasTaken {taken pkts : List Packet} (h : srv.HasTaken hdr msg taken)
    (hparams : Tiles 0 (pkts.map Packet.params) hdr.paramSize) (hdata : Tiles 0 (pkts.map Packet.data) hdr.dataSize)
    (hmem : ∀ p, p ∈ taken ↔ p ∈ pkts) : Holds hdr msg srv := by
  obtain ⟨hps, hpb⟩ := h.params.complete hparams (fun r => by simp only [mem_map, hmem])
  obtain ⟨hds, hdb⟩ := h.data.complete hdata (fun r => by simp only [mem_map, hmem])
  exact ⟨hps, hds, hpb, hdb⟩

/-- Give the packets to the server one after another. -/
def deliver (srv : RpcServerState) (arrivals : List Packet) : RpcServerState :=
  arrivals.foldl (fun srv p => (rpcServerDispatch srv p).1) srv

end receive

section series
variable {hdr : RpcHdr} {msg : Message} {n : Nat} {pk : Nat → Packet}

variable {j : Nat}

theorem fragID_injective {i : Nat} (hi : i < 32) (hj : j < 32) (h : fragID i = fragID j) : i = j := by
  have hbit : (fragID i).getLsbD j = (fragID j).getLsbD j := by rw [h]
  rw [fragID_getLsbD hi, fragID_getLsbD hj] at hbit
  simpa using hbit

/-- Which packets of the series have been taken is what the mask says, and the state
    says whether these are all. -/
structure Collecting (hdr : RpcHdr) (msg : Message) (n : Nat) (pk : Nat → Packet) (seen : List Packet)
    (srv : RpcServerState) : Prop where
  ID : srv.ID = hdr.ID
  subset : ∀ p ∈ seen, ∃ j < n, p = pk j
  received : ∀ j < 32, (srv.fragsReceived.getLsbD j = true ↔ j < n ∧ pk j ∈ seen)
  taken : srv.HasTaken hdr msg seen
  state : (∀ j < n, pk j ∈ seen) ∧ srv.state = srvBusy ∨ ¬ (∀ j < n, pk j ∈ seen) ∧ srv.state = srvFragment

theorem Series.lt_32 (h : Series hdr msg n pk) (hj : j < n) : j < 32 := by
  have hfew := h.few
  rw [maxNumFrags] at hfew
  omega

theorem Series.pk_injective (h : Series hdr msg n pk) {i : Nat} (hi : i < n) (hj : j < n) (he : pk i = pk j) :
    i = j := by
  apply fragID_injective (h.lt_32 hi) (h.lt_32 hj)
  rw [← h.mask i hi, ← h.mask j hj, he]

theorem Series.has (h : Series hdr msg n pk) (hj : j < n) (f : BitVec 32) : (pk j).hdr.has f = hdr.has f := by
  rw [RpcHdr.has, RpcHdr.has, h.flags j hj]

variable {seen : List Packet} {srv : RpcServerState}

theorem Collecting.and_mask (hc : Collecting hdr msg n pk seen srv)
    (h : Series hdr msg n pk) (hj : j < n) :
    srv.fragsReceived &&& (pk j).hdr.fragMask ≠ 0 ↔ pk j ∈ seen := by
  have h32 := h.lt_32 hj
  rw [h.mask j hj]
  constructor
  · intro hne
    by_contra hnot
    apply hne
    apply BitVec.eq_of_getLsbD_eq
    intro i hi
    have hzero : (0 : BitVec 32).getLsbD i = false := BitVec.getLsbD_zero
    rw [BitVec.getLsbD_and, fragID_getLsbD h32, hzero]
    by_cases hij : j = i
    · have hbit : srv.fragsReceived.getLsbD i = false := by
        rw [← Bool.not_eq_true, hc.received i hi, ← hij]
        exact fun hin => hnot hin.2
      rw [hbit, Bool.false_and]
    · rw [decide_eq_false hij, Bool.and_false]
  · intro hin hzero
    have hbit : (srv.fragsReceived &&& fragID j).getLsbD j = false := by rw [hzero]; exact BitVec.getLsbD_zero
    have hrec : srv.fragsReceived.getLsbD j = true := (hc.received j h32).2 ⟨hj, hin⟩
    rw [BitVec.getLsbD_and, hrec, fragID_getLsbD h32, decide_eq_true rfl] at hbit
    exact absurd hbit (by decide)

theorem complete_iff (h : Series hdr msg n pk) {m : BitVec 32} (hrec : ∀ j < 32, (m.getLsbD j = true ↔ j < n ∧ pk j ∈ seen)) :
    rpcCompleteMask[n]? = some m ↔ ∀ j < n, pk j ∈ seen := by
  have hn : n ≤ 16 := h.few
  constructor
  · intro hm j hj
    have hbit := complete_getLsbD hn hm (h.lt_32 hj)
    rw [decide_eq_true hj] at hbit
    exact ((hrec j (h.lt_32 hj)).1 hbit).2
  · intro hall
    rw [complete_eq n hn]
    congr 1
    apply BitVec.eq_of_getLsbD_eq
    intro j hj
    rw [complete_getLsbD hn (complete_eq n hn) hj, Bool.eq_iff_iff, hrec j hj, decide_eq_true_iff]
    exact ⟨fun hlt => ⟨hlt, hall j hlt⟩, fun hlt => hlt.1⟩

theorem collecting_first (h : Series hdr msg n pk) (hroom : RoomFor hdr srv.request)
    (hID : srv.ID ≠ hdr.ID) (hbusy : srv.state.busy = false) (hj : j < n) :
    Collecting hdr msg n pk [pk j] (rpcServerDispatch srv (pk j)).1 := by
  have hnum : (pk j).hdr.numFrags ≠ 0 := by
    rw [h.numFrags j hj]
    omega
  have hne : (pk j).hdr.ID ≠ srv.ID := by
    rw [h.ID j hj]
    exact fun he => hID he.symm
  have hdispatch : (rpcServerDispatch srv (pk j)).1 =
      { RpcServerState.takeIn
          { srv with
            age := 0
            ID := (pk j).hdr.ID
            actualDataSize := 0
            actualParamSize := 0
            fragsDelivered := 0 } (pk j) with
        fragsReceived := (pk j).hdr.fragMask
        state := srvFragment } := by
    rw [rpcServerDispatch, if_pos hne, RpcServerState.newRequest]
    simp only [hbusy, RpcServerState.accept, if_neg hnum]
    rfl
  rw [hdispatch]
  constructor
  case ID => exact h.ID j hj
  case subset =>
    intro p hp
    rw [mem_singleton] at hp
    exact ⟨j, hj, hp⟩
  case received =>
    intro i hi
    rw [h.mask j hj, fragID_getLsbD (h.lt_32 hj), decide_eq_true_iff, mem_singleton]
    constructor
    · rintro rfl
      exact ⟨hj, rfl⟩
    · rintro ⟨hin, he⟩
      exact (h.pk_injective hin hj he).symm
  case taken => exact Assembled.scatter hroom.assembled (h.part j hj)
  case state =>
    refine .inr ⟨?_, rfl⟩
    intro hall
    have hmany := h.many
    have h0 := mem_singleton.1 (hall 0 (by omega))
    have h1 := mem_singleton.1 (hall 1 (by omega))
    have h01 := h.pk_injective (by omega) (by omega) (h0.trans h1.symm)
    omega

variable {p : Packet}

theorem Collecting.again (hc : Collecting hdr msg n pk seen srv)
    (hp : p ∈ seen) : Collecting hdr msg n pk (p :: seen) { srv with age := 0 } := by
  have hmem (q : Packet) : q ∈ p :: seen ↔ q ∈ seen := by
    rw [mem_cons]
    exact ⟨fun h => h.elim (fun he => he ▸ hp) id, .inr⟩
  constructor
  case ID => exact hc.ID
  case subset => exact fun q hq => hc.subset q ((hmem q).1 hq)
  case received => simpa only [hmem] using hc.received
  case taken => exact Assembled.congr hc.taken hmem
  case state => simpa only [hmem] using hc.state

theorem dispatch_busy (hID : p.hdr.ID = srv.ID) (hs : srv.state = srvBusy)
    (hack : p.hdr.has Flag.ack = false) : (rpcServerDispatch srv p).1 = { srv with age := 0 } := by
  rw [rpcServerDispatch, if_neg (not_not_intro hID), RpcServerState.currentRequest]
  simp only [hs, hack]
  rfl

theorem dispatch_fragment (hID : p.hdr.ID = srv.ID) (hs : srv.state = srvFragment)
    (hack : p.hdr.has Flag.ack = false) : rpcServerDispatch srv p = { srv with age := 0 }.addFragment p := by
  have hsame : { srv with state := { srv.state with aging := false }, age := 0 } = { srv with age := 0 } := by
    simp_all [srvFragment]
  rw [rpcServerDispatch, hsame, if_neg (not_not_intro hID), RpcServerState.currentRequest]
  simp only [hs, hack]
  rfl

theorem collecting_next (h : Series hdr msg n pk) (hack : hdr.has Flag.ack = false) (hc : Collecting hdr msg n pk seen srv) (hj : j < n) :
    Collecting hdr msg n pk (pk j :: seen) (rpcServerDispatch srv (pk j)).1 := by
  have hID : (pk j).hdr.ID = srv.ID := by rw [h.ID j hj, hc.ID]
  have hnotack : (pk j).hdr.has Flag.ack = false := by rw [h.has hj, hack]
  have hfields : ¬ ((pk j).hdr.fragMask = 0 ∨ (pk j).hdr.numFrags = 0) := by
    rintro (hzero | hzero)
    · have hbit : (fragID j).getLsbD j = false := by rw [← h.mask j hj, hzero]; exact BitVec.getLsbD_zero
      rw [fragID_getLsbD (h.lt_32 hj), decide_eq_true rfl] at hbit
      exact absurd hbit (by decide)
    · rw [h.numFrags j hj] at hzero
      omega
  rcases hc.state with ⟨hall, hs⟩ | ⟨hnot, hs⟩
  · rw [dispatch_busy hID hs hnotack]
    exact hc.again (hall j hj)
  · rw [dispatch_fragment hID hs hnotack, RpcServerState.addFragment, if_neg hfields]
    by_cases hin : pk j ∈ seen
    · rw [if_pos ((hc.and_mask h hj).2 hin)]
      exact hc.again hin
    · rw [if_neg (fun hm => hin ((hc.and_mask h hj).1 hm))]
      -- the mask after this packet
      have hrec : ∀ i < 32, ((srv.fragsReceived ||| (pk j).hdr.fragMask).getLsbD i = true ↔
          i < n ∧ pk i ∈ pk j :: seen) := by
        intro i hi
        rw [BitVec.getLsbD_or, h.mask j hj, fragID_getLsbD (h.lt_32 hj), Bool.or_eq_true, hc.received i hi,
          decide_eq_true_iff, mem_cons]
        constructor
        · rintro (⟨hlt, hs⟩ | rfl)
          · exact ⟨hlt, .inr hs⟩
          · exact ⟨hj, .inl rfl⟩
        · rintro ⟨hlt, he | hs⟩
          · exact .inr (h.pk_injective hlt hj he).symm
          · exact .inl ⟨hlt, hs⟩
      have hsub : ∀ p ∈ pk j :: seen, ∃ i < n, p = pk i := by
        intro p hp
        rcases mem_cons.1 hp with rfl | hp
        · exact ⟨j, hj, rfl⟩
        · exact hc.subset p hp
      have htaken := takeIn_hasTaken hc.taken (h.part j hj)
      have hcomplete := complete_iff h hrec
      rw [h.numFrags j hj]
      show Collecting hdr msg n pk (pk j :: seen)
        (if rpcCompleteMask[n]? = some (srv.fragsReceived ||| (pk j).hdr.fragMask) then _ else _ : _ × List Action).1
      split
      case isTrue hmask =>
        exact ⟨hc.ID, hsub, hrec, htaken, .inl ⟨hcomplete.1 hmask, rfl⟩⟩
      case isFalse hmask =>
        exact ⟨hc.ID, hsub, hrec, htaken, .inr ⟨fun hall => hmask (hcomplete.2 hall), hs⟩⟩

theorem collecting_run (h : Series hdr msg n pk) (hack : hdr.has Flag.ack = false) :
    ∀ {arrivals seen : List Packet} {srv : RpcServerState}, Collecting hdr msg n pk seen srv →
      (∀ p ∈ arrivals, ∃ j < n, p = pk j) →
      Collecting hdr msg n pk (arrivals.reverse ++ seen) (deliver srv arrivals)
  | [], _, _, hc, _ => hc
  | p :: ps, seen, srv, hc, hfrom => by
    obtain ⟨j, hj, rfl⟩ := hfrom p mem_cons_self
    have hnext := collecting_next h hack hc hj
    have hrest := collecting_run h hack hnext (fun q hq => hfrom q (mem_cons_of_mem _ hq))
    rw [reverse_cons, append_assoc]
    exact hrest

/-- **The server is handed the message when it has seen all its packets.** -/
theorem Series.handedOff (h : Series hdr msg n pk) (hack : hdr.has Flag.ack = false) (hroom : RoomFor hdr srv.request) (hID : srv.ID ≠ hdr.ID) (hbusy : srv.state.busy = false)
    {arrivals : List Packet} (hmem : ∀ p, p ∈ arrivals ↔ ∃ j < n, p = pk j) :
    (deliver srv arrivals).state = srvBusy ∧ Holds hdr msg (deliver srv arrivals) := by
  have hmany := h.many
  cases arrivals with
  | nil =>
    have hnil := (hmem (pk 0)).2 ⟨0, by omega, rfl⟩
    exact absurd hnil (by simp)
  | cons p ps =>
    obtain ⟨j, hj, rfl⟩ := (hmem p).1 mem_cons_self
    have hc := collecting_run h hack (collecting_first h hroom hID hbusy hj)
      (fun q hq => (hmem q).1 (mem_cons_of_mem _ hq))
    have hseen (q : Packet) : q ∈ ps.reverse ++ [pk j] ↔ q ∈ (List.range n).map pk := by
      have hq := hmem q
      rw [mem_cons] at hq
      rw [mem_append, mem_reverse, mem_singleton, Or.comm, hq, mem_map]
      simp only [mem_range]
      exact ⟨fun ⟨i, hi, he⟩ => ⟨i, hi, he.symm⟩, fun ⟨i, hi, he⟩ => ⟨i, hi, he.symm⟩⟩
    have hall (i : Nat) (hi : i < n) : pk i ∈ ps.reverse ++ [pk j] :=
      (hseen (pk i)).2 (mem_map.2 ⟨i, mem_range.2 hi, rfl⟩)
    refine ⟨?_, holds_of_hasTaken hc.taken ?_ ?_ hseen⟩
    · rcases hc.state with ⟨-, hs⟩ | ⟨hnot, -⟩
      · exact hs
      · exact absurd hall hnot
    · rw [map_map]
      exact h.params
    · rw [map_map]
      exact h.data

end series

section emitted
variable {host : Host} {hdr : RpcHdr} {msg : Message} {srv : RpcServerState} {pkts : List Packet} {payload : Nat}

/-- The message is one of the sizes a message may have, and its buffers are of them. -/
structure WellSized (hdr : RpcHdr) (msg : Message) : Prop where
  param_nonneg : 0 ≤ hdr.paramSize
  param_le : hdr.paramSize ≤ maxParamSize
  data_nonneg : 0 ≤ hdr.dataSize
  data_le : hdr.dataSize ≤ maxDataSize
  paramLength : msg.paramLength = hdr.paramSize
  dataLength : msg.dataLength = hdr.dataSize

def fragments (pkts : List Packet) : List Packet := pkts.filter (fun p => p.hdr.numFrags ≠ 0)

structure RoundTrips (hdr : RpcHdr) (msg : Message) (pkts : List Packet) : Prop where
  count : pkts.length ≤ maxNumFrags
  bits : ∀ p ∈ fragments pkts, ∃ j < maxNumFrags, p.hdr.fragMask = fragID j
  distinct : ((fragments pkts).map (fun p => p.hdr.fragMask)).Nodup
  union : ∀ p ∈ pkts, rpcCompleteMask[p.hdr.numFrags]? =
    some ((fragments pkts).foldl (fun mask q => mask ||| q.hdr.fragMask) 0)
  params : Tiles 0 (pkts.map Packet.params) hdr.paramSize
  data : Tiles 0 (pkts.map Packet.data) hdr.dataSize
  scattered : ∀ (srv : RpcServerState) (arrivals : List Packet), RoomFor hdr srv.request →
    srv.actualParamSize = 0 → srv.actualDataSize = 0 → (∀ p, p ∈ arrivals ↔ p ∈ pkts) →
    Holds hdr msg (arrivals.foldl RpcServerState.takeIn srv)
  handedOff : hdr.has Flag.ack = false → ∀ (srv : RpcServerState) (arrivals : List Packet), RoomFor hdr srv.request →
    srv.ID ≠ hdr.ID → srv.state.busy = false → (∀ p, p ∈ arrivals ↔ p ∈ pkts) →
    (deliver srv arrivals).state = srvBusy ∧ Holds hdr msg (deliver srv arrivals)

theorem scattered_of_parts (hparts : ∀ p ∈ pkts, IsPart hdr msg p)
    (hparams : Tiles 0 (pkts.map Packet.params) hdr.paramSize) (hdata : Tiles 0 (pkts.map Packet.data) hdr.dataSize)
    {arrivals : List Packet} (hroom : RoomFor hdr srv.request) (hps : srv.actualParamSize = 0)
    (hds : srv.actualDataSize = 0) (hmem : ∀ p, p ∈ arrivals ↔ p ∈ pkts) :
    Holds hdr msg (arrivals.foldl RpcServerState.takeIn srv) := by
  have hnone : srv.HasTaken hdr msg [] := by
    rw [RpcServerState.HasTaken, hps, hds]
    exact hroom.assembled
  have htaken := foldl_takeIn_hasTaken hnone (fun p hp => hparts p ((hmem p).1 hp))
  apply holds_of_hasTaken htaken hparams hdata
  intro p
  rw [append_nil, mem_reverse]
  exact hmem p

def marked (host : Host) (hdr : RpcHdr) : RpcHdr := { hdr with flags := hdr.flags ||| host.marks }

theorem has_marked {f : BitVec 32} (hf : host.marks &&& f = 0) : (marked host hdr).has f = hdr.has f := by
  have hor : (hdr.flags ||| host.marks) &&& f = hdr.flags &&& f ||| host.marks &&& f := BitVec.and_or_distrib_right
  have hzero : hdr.flags &&& f ||| 0 = hdr.flags &&& f := BitVec.or_zero
  show (((hdr.flags ||| host.marks) &&& f) != 0) = _
  rw [hor, hf, hzero]
  rfl

theorem marks_and_plsAck (host : Host) : host.marks &&& Flag.plsAck = 0 := by
  rw [Host.marks]
  cases host.serviceEnabled <;> cases host.transparent <;> cases host.serverDriven <;> decide

theorem marks_and_ack (host : Host) : host.marks &&& Flag.ack = 0 := by
  rw [Host.marks]
  cases host.serviceEnabled <;> cases host.transparent <;> cases host.serverDriven <;> decide

/-- The fragments `RpcOutput` makes of a message. -/
def cutsOf (payload : Nat) (hdr : RpcHdr) : List Cut :=
  cutMessage payload (hdr.paramSize + hdr.dataSize).toNat hdr.paramSize.toNat hdr.dataSize.toNat 0 0

/-- The packet of the `j`th fragment. -/
def cutPacket (host : Host) (hdr : RpcHdr) (msg : Message) (cs : List Cut) (j : Nat) : Packet :=
  fragmentPacket host hdr msg cs.length j (cs.getD j ⟨0, 0, 0, 0⟩)

theorem zipIdx_packets (cs : List Cut) :
    (cs.zipIdx).map (fun c => fragmentPacket host hdr msg cs.length c.2 c.1) =
      (List.range cs.length).map (cutPacket host hdr msg cs) := by
  apply ext_getElem
  · simp only [length_map, length_zipIdx, length_range]
  · intro j hj hj'
    have hlt : j < cs.length := by simpa only [length_map, length_range] using hj'
    simp only [getElem_map, getElem_zipIdx, getElem_range, cutPacket, getD_eq_getElem?_getD,
      List.getElem?_eq_getElem hlt, Option.getD_some, Nat.zero_add]

theorem cutPacket_ranges (cs : List Cut) (f : Cut → Int × Int) (g : Packet → Int × Int)
    (h : ∀ j c, g (fragmentPacket host hdr msg cs.length j c) = f c) :
    (List.range cs.length).map (fun j => g (cutPacket host hdr msg cs j)) = cs.map f := by
  apply ext_getElem
  · simp only [length_map, length_range]
  · intro j hj hj'
    have hlt : j < cs.length := by simpa only [length_map] using hj'
    simp only [getElem_map, getElem_range, cutPacket, h, getD_eq_getElem?_getD,
      List.getElem?_eq_getElem hlt, Option.getD_some]

theorem cutsOf_tiles (hsize : WellSized hdr msg) (hpos : 0 < payload) :
    Tiles 0 ((cutsOf payload hdr).map Cut.params) hdr.paramSize ∧ Tiles 0 ((cutsOf payload hdr).map Cut.data) hdr.dataSize := by
  have h0 := hsize.param_nonneg
  have h1 := hsize.data_nonneg
  have hsum : hdr.paramSize.toNat + hdr.dataSize.toNat = (hdr.paramSize + hdr.dataSize).toNat := by omega
  have htiles := cutMessage_tiles hpos _ _ _ 0 0 (Nat.le_of_eq hsum)
  rwa [show ((0 + hdr.paramSize.toNat : Nat) : Int) = hdr.paramSize by omega,
    show ((0 + hdr.dataSize.toNat : Nat) : Int) = hdr.dataSize by omega] at htiles

theorem series_of_cuts (host : Host) (hsize : WellSized hdr msg) (hroute : maxSize / maxNumFrags ≤ payload)
    (hbig : payload < (hdr.paramSize + hdr.dataSize).toNat) :
    Series hdr msg (cutsOf payload hdr).length (cutPacket host hdr msg (cutsOf payload hdr)) := by
  have h0 := hsize.param_nonneg
  have h1 := hsize.data_nonneg
  have h2 : hdr.paramSize ≤ 1024 := hsize.param_le
  have h3 : hdr.dataSize ≤ 16384 := hsize.data_le
  have hm : 1088 ≤ payload := hroute
  obtain ⟨hparams, hdata⟩ := cutsOf_tiles hsize (show 0 < payload by omega)
  have hp : Tiles 0 ((List.range (cutsOf payload hdr).length).map
      (fun j => (cutPacket host hdr msg (cutsOf payload hdr) j).params)) hdr.paramSize := by
    rw [cutPacket_ranges _ Cut.params Packet.params (fun _ _ => rfl)]
    exact hparams
  have hd : Tiles 0 ((List.range (cutsOf payload hdr).length).map
      (fun j => (cutPacket host hdr msg (cutsOf payload hdr) j).data)) hdr.dataSize := by
    rw [cutPacket_ranges _ Cut.data Packet.data (fun _ _ => rfl)]
    exact hdata
  refine ⟨?_, ?_, ?_, fun _ _ => rfl, fun _ _ => rfl, fun _ _ => rfl, fun _ _ => rfl, hp, hd⟩
  · exact one_lt_length_cutMessage (show hdr.paramSize.toNat + hdr.dataSize.toNat ≤ (hdr.paramSize + hdr.dataSize).toNat by omega) (by omega) (by omega)
  · apply length_cutMessage_le
    rw [maxNumFrags]
    omega
  · intro j hj
    refine ⟨?_, ?_, rfl⟩
    · exact Tiles.within hp _ (mem_map.2 ⟨j, mem_range.2 hj, rfl⟩)
    · exact Tiles.within hd _ (mem_map.2 ⟨j, mem_range.2 hj, rfl⟩)

theorem union_eq : ∀ n ≤ 16, rpcCompleteMask[n]? = some (((List.range n).map fragID).foldl (fun m x => m ||| x) 0) := by
  decide

theorem roundTrips_of_series {n : Nat} {pk : Nat → Packet} (h : Series hdr msg n pk) :
    RoundTrips hdr msg ((List.range n).map pk) := by
  have hmem (p : Packet) : p ∈ (List.range n).map pk ↔ ∃ j < n, p = pk j := by
    rw [mem_map]
    exact ⟨fun ⟨j, hj, he⟩ => ⟨j, mem_range.1 hj, he.symm⟩, fun ⟨j, hj, he⟩ => ⟨j, mem_range.2 hj, he.symm⟩⟩
  have hfrags : fragments ((List.range n).map pk) = (List.range n).map pk := by
    apply filter_eq_self.2
    intro p hp
    obtain ⟨j, hj, rfl⟩ := (hmem p).1 hp
    rw [h.numFrags j hj]
    exact decide_eq_true (by omega)
  have hmasks : ((List.range n).map pk).map (fun p => p.hdr.fragMask) = (List.range n).map fragID := by
    rw [map_map]
    exact map_congr_left (fun j hj => h.mask j (mem_range.1 hj))
  have hparams : Tiles 0 (((List.range n).map pk).map Packet.params) hdr.paramSize := by
    rw [map_map]
    exact h.params
  have hdata : Tiles 0 (((List.range n).map pk).map Packet.data) hdr.dataSize := by
    rw [map_map]
    exact h.data
  constructor
  case count =>
    rw [length_map, length_range]
    exact h.few
  case bits =>
    intro p hp
    rw [hfrags] at hp
    obtain ⟨j, hj, rfl⟩ := (hmem p).1 hp
    exact ⟨j, Nat.lt_of_lt_of_le hj h.few, h.mask j hj⟩
  case distinct =>
    rw [hfrags, hmasks]
    apply List.Nodup.map_on _ nodup_range
    intro i hi j hj he
    exact fragID_injective (h.lt_32 (mem_range.1 hi)) (h.lt_32 (mem_range.1 hj)) he
  case union =>
    intro p hp
    obtain ⟨j, hj, rfl⟩ := (hmem p).1 hp
    rw [h.numFrags j hj, union_eq n h.few, hfrags, ← hmasks, foldl_map]
  case params => exact hparams
  case data => exact hdata
  case scattered =>
    intro srv arrivals hroom hps hds harr
    refine scattered_of_parts ?_ hparams hdata hroom hps hds harr
    intro p hp
    obtain ⟨j, hj, rfl⟩ := (hmem p).1 hp
    exact h.part j hj
  case handedOff =>
    intro hack srv arrivals hroom hID hbusy harr
    exact h.handedOff hack hroom hID hbusy (fun p => (harr p).trans (hmem p))

def wholePacket (host : Host) (hdr : RpcHdr) (msg : Message) : Packet :=
  ⟨wholeHdr host hdr, bytesFrom msg.param 0 msg.paramLength ++ bytesFrom msg.data 0 msg.dataLength⟩

theorem wholePacket_isPart (host : Host) (hsize : WellSized hdr msg) : IsPart hdr msg (wholePacket host hdr msg) := by
  have h0 := hsize.param_nonneg
  have h1 := hsize.data_nonneg
  have hpl : hdr.paramSize.toNat = msg.paramLength := by rw [← hsize.paramLength, Int.toNat_natCast]
  have hdl : hdr.dataSize.toNat = msg.dataLength := by rw [← hsize.dataLength, Int.toNat_natCast]
  refine ⟨⟨Int.le_refl 0, h0, ?_⟩, ⟨Int.le_refl 0, h1, ?_⟩, ?_⟩
  · exact Int.le_of_eq (Int.zero_add _)
  · exact Int.le_of_eq (Int.zero_add _)
  · show _ = bytesFrom msg.param 0 hdr.paramSize.toNat ++ bytesFrom msg.data 0 hdr.dataSize.toNat
    rw [hpl, hdl]
    rfl

theorem whole_handedOff (host : Host) (hsize : WellSized hdr msg)
    (hroom : RoomFor hdr srv.request) (hID : srv.ID ≠ hdr.ID) (hbusy : srv.state.busy = false) :
    (rpcServerDispatch srv (wholePacket host hdr msg)).1.ID = hdr.ID ∧
      (rpcServerDispatch srv (wholePacket host hdr msg)).1.state = srvBusy ∧
      (rpcServerDispatch srv (wholePacket host hdr msg)).1.HasTaken hdr msg [wholePacket host hdr msg] := by
  have hne : (wholePacket host hdr msg).hdr.ID ≠ srv.ID := fun he => hID he.symm
  have hzero : (wholePacket host hdr msg).hdr.numFrags = 0 := rfl
  have hpart := wholePacket_isPart host hsize
  rw [rpcServerDispatch, if_pos hne, RpcServerState.newRequest]
  simp only [hbusy, RpcServerState.accept, if_pos hzero]
  exact ⟨rfl, rfl, Assembled.scatter hroom.assembled hpart⟩

theorem whole_again (hack : hdr.has Flag.ack = false) : ∀ {arrivals : List Packet} {srv : RpcServerState},
    srv.ID = hdr.ID → srv.state = srvBusy → srv.HasTaken hdr msg [wholePacket host hdr msg] →
    (∀ p ∈ arrivals, p = wholePacket host hdr msg) →
    (deliver srv arrivals).state = srvBusy ∧ (deliver srv arrivals).HasTaken hdr msg [wholePacket host hdr msg]
  | [], _, _, hs, ht, _ => ⟨hs, ht⟩
  | p :: ps, srv, hID, hs, ht, hall => by
    have hp := hall p mem_cons_self
    have hstep : (rpcServerDispatch srv p).1 = { srv with age := 0 } := by
      rw [hp]
      exact dispatch_busy hID.symm hs hack
    show (deliver (rpcServerDispatch srv p).1 ps).state = srvBusy ∧ (deliver (rpcServerDispatch srv p).1 ps).HasTaken _ _ _
    rw [hstep]
    exact whole_again hack hID hs ht (fun q hq => hall q (mem_cons_of_mem p hq))

theorem roundTrips_of_whole (host : Host) (hsize : WellSized hdr msg) : RoundTrips hdr msg [wholePacket host hdr msg] := by
  have hpart := wholePacket_isPart host hsize
  have hparams : Tiles 0 ([wholePacket host hdr msg].map Packet.params) hdr.paramSize :=
    ⟨rfl, hsize.param_nonneg, Int.zero_add _⟩
  have hdata : Tiles 0 ([wholePacket host hdr msg].map Packet.data) hdr.dataSize :=
    ⟨rfl, hsize.data_nonneg, Int.zero_add _⟩
  have hnone : fragments [wholePacket host hdr msg] = [] := rfl
  constructor
  case count => exact (show 1 ≤ 16 by decide)
  case bits =>
    rw [hnone]
    exact fun _ hp => absurd hp (by simp)
  case distinct =>
    exact nodup_nil
  case union =>
    intro p hp
    rw [mem_singleton.1 hp, hnone]
    rfl
  case params => exact hparams
  case data => exact hdata
  case scattered =>
    intro srv arrivals hroom hps hds harr
    refine scattered_of_parts ?_ hparams hdata hroom hps hds harr
    intro p hp
    rw [mem_singleton.1 hp]
    exact hpart
  case handedOff =>
    intro hack srv arrivals hroom hID hbusy harr
    have hall (q : Packet) (hq : q ∈ arrivals) : q = wholePacket host hdr msg := mem_singleton.1 ((harr q).1 hq)
    obtain ⟨p, ps, rfl⟩ : ∃ p ps, arrivals = p :: ps :=
      exists_cons_of_ne_nil (ne_nil_of_mem ((harr _).2 (mem_singleton.2 rfl)))
    have hp : p = wholePacket host hdr msg := hall p mem_cons_self
    obtain ⟨hid, hs, ht⟩ := whole_handedOff host hsize hroom hID hbusy
    obtain ⟨hs', ht'⟩ := whole_again hack hid hs ht (fun q hq => hall q (mem_cons_of_mem p hq))
    rw [hp]
    exact ⟨hs', holds_of_hasTaken ht' hparams hdata (fun _ => Iff.rfl)⟩

theorem RoundTrips.of_marked (h : RoundTrips (marked host hdr) msg pkts) : RoundTrips hdr msg pkts where
  count := h.count
  bits := h.bits
  distinct := h.distinct
  union := h.union
  params := h.params
  data := h.data
  scattered := by
    intro srv arrivals hroom hps hds harr
    have hholds := h.scattered srv arrivals ⟨hroom.1, hroom.2, hroom.3, hroom.4⟩ hps hds harr
    exact ⟨hholds.1, hholds.2, hholds.3, hholds.4⟩
  handedOff := by
    intro hack srv arrivals hroom hID hbusy harr
    have hack' : (marked host hdr).has Flag.ack = false := by rw [has_marked (marks_and_ack host), hack]
    obtain ⟨hs, hholds⟩ := h.handedOff hack' srv arrivals ⟨hroom.1, hroom.2, hroom.3, hroom.4⟩ hID hbusy harr
    exact ⟨hs, ⟨hholds.1, hholds.2, hholds.3, hholds.4⟩⟩

theorem sendFragMask_zero (hpls : hdr.has Flag.plsAck = false) {n : Nat} (h1 : 1 < n) (hn : n ≤ 16) :
    sendFragMask hdr 0 n = ~~~0 := by
  rw [sendFragMask, if_neg]
  rintro (hmask | ⟨hflag, -⟩)
  · have hbit := complete_getLsbD hn hmask (show 0 < 32 by decide)
    rw [decide_eq_true (show 0 < n by omega)] at hbit
    exact absurd hbit (by decide)
  · rw [hpls] at hflag
    exact absurd hflag (by decide)

theorem rpcOutput_fragments {maxPacket : Nat} (hroute : maxSize / maxNumFrags ≤ maxPacket - sizeofRpcHdr)
    (hsize : WellSized (marked host hdr) msg) (hpls : hdr.has Flag.plsAck = false)
    (hbig : maxPacket - sizeofRpcHdr < uint32 (hdr.paramSize + hdr.dataSize))
    (hbig' : maxPacket - sizeofRpcHdr < (hdr.paramSize + hdr.dataSize).toNat) :
    rpcOutput host (some maxPacket) hdr msg 0 =
      .ok (marked host hdr, (List.range (cutsOf (maxPacket - sizeofRpcHdr) (marked host hdr)).length).map
        (cutPacket host (marked host hdr) msg (cutsOf (maxPacket - sizeofRpcHdr) (marked host hdr)))) := by
  have hseries := series_of_cuts host hsize hroute hbig'
  have hp : ¬ (marked host hdr).paramSize > (maxParamSize : Int) := Int.not_lt.2 hsize.param_le
  have hd : ¬ (marked host hdr).dataSize > (maxDataSize : Int) := Int.not_lt.2 hsize.data_le
  have hmarked : (marked host hdr).has Flag.plsAck = false := by rw [has_marked (marks_and_plsAck host), hpls]
  have hfew := hseries.few
  rw [maxNumFrags] at hfew
  rw [← zipIdx_packets, ← sendFragments_all (show 0 + _ ≤ 32 by omega), ← sendFragMask_zero hmarked hseries.many hfew]
  show (if uint32 (hdr.paramSize + hdr.dataSize) > maxPacket - sizeofRpcHdr then _ else _) = _
  rw [if_pos hbig]
  show (if (marked host hdr).paramSize > (maxParamSize : Int) then _ else if (marked host hdr).dataSize > (maxDataSize : Int) then _ else _) = _
  rw [if_neg hp, if_neg hd]
  rfl

/-- **A message of any size, cut for any route, arrives as it was sent.** -/
theorem message_round_trip (host : Host) (maxPacket : Nat) (hdr : RpcHdr) (msg : Message)
    (hroute : maxSize / maxNumFrags ≤ maxPacket - sizeofRpcHdr) (hsize : WellSized hdr msg)
    (hpls : hdr.has Flag.plsAck = false) :
    ∃ out pkts, rpcOutput host (some maxPacket) hdr msg 0 = .ok (out, pkts) ∧ RoundTrips hdr msg pkts := by
  have h0 := hsize.param_nonneg
  have h1 := hsize.data_nonneg
  have h2 : hdr.paramSize ≤ (1024 : Int) := hsize.param_le
  have h3 : hdr.dataSize ≤ (16384 : Int) := hsize.data_le
  have hsize' : WellSized (marked host hdr) msg := ⟨h0, h2, h1, h3, hsize.paramLength, hsize.dataLength⟩
  have hsum : uint32 (hdr.paramSize + hdr.dataSize) = (hdr.paramSize + hdr.dataSize).toNat := by
    have hcast : hdr.paramSize + hdr.dataSize = ((hdr.paramSize + hdr.dataSize).toNat : Int) := by omega
    rw [hcast, uint32_natCast (by omega), Int.toNat_natCast]
  by_cases hbig : maxPacket - sizeofRpcHdr < (hdr.paramSize + hdr.dataSize).toNat
  · have hseries := series_of_cuts host hsize' hroute hbig
    exact ⟨_, _, rpcOutput_fragments hroute hsize' hpls (by rw [hsum]; exact hbig) hbig,
      RoundTrips.of_marked (roundTrips_of_series hseries)⟩
  · refine ⟨wholeHdr host (marked host hdr), [wholePacket host (marked host hdr) msg], ?_,
      RoundTrips.of_marked (roundTrips_of_whole host hsize')⟩
    show (if uint32 (hdr.paramSize + hdr.dataSize) > maxPacket - sizeofRpcHdr then _ else _) = _
    rw [hsum, if_neg hbig]
    rfl

/-- A request of the largest size, for the smallest packets. -/
def largestHdr : RpcHdr where
  version := 0
  flags := Flag.request ||| Flag.server
  clientID := 5
  serverID := 7
  channel := 2
  serverHint := 0
  bootID := 100
  ID := 31
  delay := 0
  numFrags := 0
  fragMask := 0
  command := 9
  paramSize := 1024
  dataSize := 16384
  paramOffset := 0
  dataOffset := 0

theorem largest_round_trip : ∃ out pkts, rpcOutput ⟨true, false, false, 3, 0⟩ (some 1152) largestHdr
    ⟨fun k => UInt8.ofNat k.toNat, 1024, fun k => UInt8.ofNat (k.toNat + 1), 16384⟩ 0 = .ok (out, pkts) ∧
    RoundTrips largestHdr ⟨fun k => UInt8.ofNat k.toNat, 1024, fun k => UInt8.ofNat (k.toNat + 1), 16384⟩ pkts :=
  message_round_trip ⟨true, false, false, 3, 0⟩ 1152 largestHdr
    ⟨fun k => UInt8.ofNat k.toNat, 1024, fun k => UInt8.ofNat (k.toNat + 1), 16384⟩ (by decide)
    ⟨by decide, by decide, by decide, by decide, rfl, rfl⟩ (by decide)

end emitted
end SpriteKernel.Rpc
