import SpriteKernel.DevRaid.StripeWriteSound

/- The read of a stripe. The requests for the range end first (`Reading`); the data of one that is lost are then
   computed from the rest of the stripe (`Rebuilding`), with which each request is exclusive-or'ed, whether or not
   the two cover the same part of their units. The range is a `Task` too, of which `user` plays no part. -/
namespace SpriteKernel.DevRaid.Initiate

open List BlockRequest Params
open Striping Parity Finset

/-- A call has a length, and stays inside its two buffers. -/
structure XorCall.Inside (call : XorCall) : Prop where
  nonneg : 0 ≤ call.numBytes
  source : call.source.buf = call.sourceBuf.buf ∧ call.sourceBuf.off ≤ call.source.off ∧
    call.source.off + call.numBytes ≤ call.sourceBuf.off + call.sourceLen
  dest : call.dest.buf = call.destBuf.buf ∧ call.destBuf.off ≤ call.dest.off ∧
    call.dest.off + call.numBytes ≤ call.destBuf.off + call.destLen

theorem Reaches.inside {p : Params} {b ro rl : Nat} {dest : Ptr} {r : BlockRequest} (h : Reaches p b ro rl dest r)
    (hro : ro < p.bytesPerStripeUnit) : (xorRangeRequest p r dest ro rl).Inside := by
  obtain ⟨so, hso, hle⟩ := h.unit.start_eq
  have hpos := h.unit.pos
  have hmeets := h.meets
  have hmet := h.met
  rw [xorRangeRequest_eq hso (by omega) hro]
  refine ⟨by simp only; omega, ⟨rfl, ?_, ?_⟩, ⟨rfl, ?_, ?_⟩⟩
  · simp only [Ptr.add]
    omega
  · simp only [Ptr.add]
    omega
  · simp only [Ptr.add]
    omega
  · simp only [Ptr.add]
    omega

section lists
variable {p : Params} {w : Task p} {io : StripeIo} {out : Outcome}

theorem one_onUnit {k u : Nat} {l : List BlockRequest} (hdistinct : l.Pairwise fun r q => ¬ (r.col = q.col ∧ r.row = q.row))
    (hon : ∀ r ∈ l, OnUnit p k u r) : l = [] ∨ ∃ r, l = [r] := by
  match l, hon, hdistinct with
  | [], _, _ => exact .inl rfl
  | [r], _, _ => exact .inr ⟨r, rfl⟩
  | r :: q :: l, hon, hdistinct =>
    have hr := hon r mem_cons_self
    have hq := hon q (mem_cons_of_mem r mem_cons_self)
    exact absurd ⟨hr.1.trans hq.1.symm, hr.2.trans hq.2.symm⟩ ((pairwise_cons.1 hdistinct).1 q mem_cons_self)

def readList (w : Task p) : List BlockRequest := dataList p w.k w.f w.t ⟨.user, 0⟩ 0 p.sectorsPerStripeUnit

/-- Only the disk of unit `d` fails anything. -/
structure Task.OnlyLoses (w : Task p) (out : Outcome) : Prop where
  requests : ∀ r, out.fails r = true → OnUnit p w.k w.d r
  disks : ∀ col row, out.failDisk col row = true → col = (p.unitPlace w.k w.d).col ∧ row = (p.unitPlace w.k w.d).row

/-- The fields that do not change. -/
structure ReadBase (w : Task p) (io : StripeIo) : Prop where
  first : io.firstSector = w.k * p.dataSectorsPerStripe + w.f
  nth : io.nthSector = w.k * p.dataSectorsPerStripe + w.t
  buffer : io.buffer = ⟨.user, 0⟩
  readBuf : io.readBuf = ⟨.readBuf, 0⟩
  parityBuf : io.parityBuf = ⟨.parityBuf, 0⟩
  disks : io.disks = w.disks
  xors : io.xors = []

theorem ReadBase.base (h : ReadBase w io) : Base { w with user := io.mem .user } io :=
  ⟨h.first, h.nth, h.buffer, h.readBuf, h.parityBuf, fun _ => rfl, h.disks⟩

/-- The requests for the range go on. -/
structure Reading (w : Task p) (io : StripeIo) : Prop where
  base : ReadBase w io
  status : io.status = .waiting .stripeRead
  reqs : io.reqControl.reqs = (readList w).map (mark p w.disks)
  valid : ∀ r ∈ readList w, r.Valid p w.disks

/-- What has become of a request for the range when that for unit `d` has been lost. -/
def Kept (w : Task p) (mem : Mem) (r r' : BlockRequest) : Prop :=
  ∃ st, r' = { r with state := st } ∧ (OnUnit p w.k w.d r → st ≠ .ready ∧ st ≠ .completed) ∧
    (¬ OnUnit p w.k w.d r →
      st = .ready ∨ st = .completed ∧ ∀ addr, r.Covers addr → r.byteAt mem addr = (w.disks r.col r.row).data addr)

/-- The request for the sectors from `lo` to `hi` of unit `d`. -/
structure Lost (w : Task p) (r : BlockRequest) (lo hi : Nat) : Prop where
  data : w.d < p.numDataCol
  lt : lo < hi
  le : hi ≤ p.sectorsPerStripeUnit
  lo_eq : lo = w.f - w.d * p.sectorsPerStripeUnit
  hi_eq : hi = min w.t ((w.d + 1) * p.sectorsPerStripeUnit) - w.d * p.sectorsPerStripeUnit
  request : ∃ q, r = unitRequest p w.k .read w.d lo hi q ∧ q.buf = .user

/-- The rest of the stripe is read, for the sectors from `lo` to `hi` of unit `d`. -/
structure Rebuilding (w : Task p) (io : StripeIo) (g : BlockRequest → BlockRequest) (r : BlockRequest) (lo hi : Nat) : Prop where
  base : ReadBase w io
  status : io.status = .waiting .reconstructStripeRead
  mem : r ∈ readList w
  lost : Lost w r lo hi
  failedReq : io.reqControl.failedReq = some (g r)
  kept : ∀ r ∈ readList w, Kept w io.mem r (g r)
  reqs : io.reqControl.reqs = (readList w).map g ++ (restList w lo (hi - lo) ++ parityList w lo (hi - lo)).map (mark p w.disks)
  valid : ∀ r ∈ restList w lo (hi - lo) ++ parityList w lo (hi - lo), r.Valid p w.disks

variable {r : BlockRequest}

theorem mem_readList (hr : r ∈ readList w) :
    ∃ u < p.numDataCol, ∃ lo hi q, lo < hi ∧ hi ≤ p.sectorsPerStripeUnit ∧ r = unitRequest p w.k .read u lo hi q ∧ q.buf = .user ∧
      q.off = (p.sectorToByte (u * p.sectorsPerStripeUnit + lo - w.f) : Nat) ∧ w.f ≤ u * p.sectorsPerStripeUnit + lo ∧
        lo = w.f - u * p.sectorsPerStripeUnit ∧ hi = min w.t ((u + 1) * p.sectorsPerStripeUnit) - u * p.sectorsPerStripeUnit := by
  obtain ⟨u, hu, hreq⟩ := mem_dataList hr
  obtain ⟨lo, hi, hlt, hhi, heq, hlo, hhi'⟩ := dataRequest_some hreq
  have hsucc : (u + 1) * p.sectorsPerStripeUnit = u * p.sectorsPerStripeUnit + p.sectorsPerStripeUnit := Nat.succ_mul _ _
  refine ⟨u, hu, lo, hi, _, hlt, hhi, heq, rfl, ?_, by omega, by omega, by omega⟩
  show (0 : Int) + _ = _
  rw [Int.zero_add]
  congr 2
  omega

variable {lo hi : Nat} {q : BlockRequest}

theorem onUnit_unitRequest {operation : Operation} {u : Nat} {q : Ptr} (hu : u ≤ p.numDataCol) :
    OnUnit p w.k w.d (unitRequest p w.k operation u lo hi q) ↔ u = w.d := by
  constructor
  · intro h
    exact unitPlace_injective hu w.d_le h.1
  · rintro rfl
    exact ⟨rfl, rfl⟩

theorem valid_readList (hr : r ∈ readList w) (h : ¬ OnUnit p w.k w.d r) : r.Valid p w.disks := by
  obtain ⟨u, hu, lo, hi, q, hlt, hhi, rfl, -⟩ := mem_readList hr
  rw [onUnit_unitRequest (Nat.le_of_lt hu)] at h
  exact (valid_unitRequest (w.aligned (Nat.le_of_lt hu)) hlt hhi).2 (w.valid u (Nat.le_of_lt hu) h)

theorem Lost.rest (h : Lost w q lo hi) (hr : r ∈ restList w lo (hi - lo) ++ parityList w lo (hi - lo)) :
    ∃ u ≤ p.numDataCol, u ≠ w.d ∧ ∃ a b q, a < b ∧ b ≤ p.sectorsPerStripeUnit ∧ lo ≤ a ∧ b ≤ hi ∧
      r = unitRequest p w.k .read u a b q ∧ q.buf ≠ .user := by
  have hd := h.data
  have hlt := h.lt
  have hle := h.le
  have hlo := h.lo_eq
  have hhi := h.hi_eq
  rcases mem_append.1 hr with hrest | hparity
  · rcases mem_append.1 hrest with hmem | hmem
    all_goals
      obtain ⟨u, hu, a, b, q, hab, ha, hb, hle, heq, hbuf, ha', hb'⟩ := shape_dataList hmem
      refine ⟨u, Nat.le_of_lt hu, fun hud => by rw [hud] at ha' hb'; omega, a, b, q, hab, hle, ha, by omega, heq, ?_⟩
      rw [hbuf]
      nofun
  · obtain ⟨-, rfl⟩ := shape_parityList hparity
    exact ⟨_, Nat.le_refl _, by omega, _, _, _, by omega, by omega, Nat.le_refl _, by omega, rfl, nofun⟩

theorem Lost.valid_rest (h : Lost w q lo hi)
    (hr : r ∈ restList w lo (hi - lo) ++ parityList w lo (hi - lo)) : r.Valid p w.disks := by
  obtain ⟨u, hu, hne, a, b, q, hab, hb, -, -, rfl, -⟩ := h.rest hr
  exact (valid_unitRequest (w.aligned hu) hab hb).2 (w.valid u hu hne)

/-- **`InitiateReconstructRead`**, after whatever has become of the requests for the range. -/
theorem ReadBase.rebuild (h : ReadBase w io) {g : BlockRequest → BlockRequest} (hr : r ∈ readList w)
    (hon : OnUnit p w.k w.d r) (hkept : ∀ r ∈ readList w, Kept w io.mem r (g r))
    (hreqs : io.reqControl.reqs = (readList w).map g) :
    ∃ lo hi, Rebuilding w (io.initiateReconstructRead p (g r)) g r lo hi := by
  obtain ⟨u, hu, lo, hi, q, hlt, hle, heq, hbuf, -, -, hlo, hhi⟩ := mem_readList hr
  have hud : u = w.d := by
    rw [heq] at hon
    exact (onUnit_unitRequest (Nat.le_of_lt hu)).1 hon
  rw [hud] at hu heq hlo hhi
  have hlost : Lost w r lo hi := ⟨hu, hlt, hle, hlo, hhi, q, heq, hbuf⟩
  obtain ⟨st, hst, -⟩ := hkept r hr
  have hstart : p.stripeUnitOffset (g r).startAddress = p.sectorToByte lo := by
    rw [hst, heq]
    exact stripeUnitOffset_unit w.k (by omega)
  have hlen : (g r).bufferLen = p.sectorToByte (hi - lo) := by
    rw [hst, heq]
    rfl
  have hvalid : ∀ r ∈ restList w lo (hi - lo) ++ parityList w lo (hi - lo), r.Valid p w.disks :=
    fun _ hmem => hlost.valid_rest hmem
  obtain ⟨rc, hrc⟩ : ∃ rc, rc = { io.reqControl with numFailed := 0, failedReq := some (g r) } := ⟨_, rfl⟩
  have hadd : addParityRangeRequest p io.disks .read io.firstSector io.parityBuf (g r).startAddress (g r).bufferLen
      (io.addRest p (g r).startAddress (g r).bufferLen rc) =
        addRequests p w.disks rc (restList w lo (hi - lo) ++ parityList w lo (hi - lo)) := by
    rw [h.base.addRest hstart hlen, h.base.addParity hstart hlen, addRequests_append]
    rfl
  have hzero : (addRequests p w.disks rc (restList w lo (hi - lo) ++ parityList w lo (hi - lo))).numFailed = 0 := by
    refine (numFailed_eq_zero ?_).2 hvalid
    rw [hrc]
  refine ⟨lo, hi, ?_⟩
  rw [StripeIo.initiateReconstructRead]
  simp only [← hrc, hadd, hzero]
  refine ⟨⟨h.first, h.nth, h.buffer, h.readBuf, h.parityBuf, h.disks, h.xors⟩, rfl, hr, hlost, ?_, hkept, ?_, hvalid⟩
  · show (addRequests p w.disks rc _).failedReq = _
    rw [addRequests_failedReq_valid hvalid, hrc]
  · show (addRequests p w.disks rc _).reqs = _
    rw [addRequests_reqs, hrc]
    exact congrArg (· ++ _) hreqs

theorem distinct_readList : (readList w).Pairwise fun r q => ¬ (r.col = q.col ∧ r.row = q.row) := distinct_dataRequests

theorem valid_iff_unit (hr : r ∈ readList w) (hon : OnUnit p w.k w.d r) :
    r.Valid p w.disks ↔ UnitValid p w.disks w.k w.d := by
  obtain ⟨u, hu, lo, hi, q, hlt, hhi, rfl, -⟩ := mem_readList hr
  rw [onUnit_unitRequest (Nat.le_of_lt hu)] at hon
  rw [← hon]
  exact valid_unitRequest (w.aligned (Nat.le_of_lt hu)) hlt hhi

theorem ReadBase.initiate (h : ReadBase w io) :
    Reading w (io.initiateStripeRead p) ∨ ∃ g r lo hi, Rebuilding w (io.initiateStripeRead p) g r lo hi := by
  obtain ⟨rc, hrc⟩ : ∃ rc, rc = addDataRequests p io.disks .read io.firstSector io.nthSector io.buffer io.reqControl.reset := ⟨_, rfl⟩
  have hadd : rc = addRequests p w.disks io.reqControl.reset (readList w) := by
    rw [hrc, addDataRequests, h.base.addWritten wholeUnit_eq.1 wholeUnit_eq.2, h.buffer]
    rfl
  have hreqs : rc.reqs = (readList w).map (mark p w.disks) := by
    rw [hadd, addRequests_reqs]
    rfl
  have hnum : rc.numFailed = ((readList w).filter fun r => ¬ r.Valid p w.disks).length := by
    rw [hadd, addRequests_numFailed]
    exact Nat.zero_add _
  have hbase : ReadBase w { io with reqControl := rc } := ⟨h.first, h.nth, h.buffer, h.readBuf, h.parityBuf, h.disks, h.xors⟩
  have hon : ∀ r ∈ (readList w).filter fun r => ¬ r.Valid p w.disks, OnUnit p w.k w.d r := by
    intro r hr
    obtain ⟨hmem, hinvalid⟩ := List.mem_filter.1 hr
    by_contra hnot
    exact of_decide_eq_true hinvalid (valid_readList hmem hnot)
  rw [StripeIo.initiateStripeRead, ← hrc]
  rcases one_onUnit (distinct_readList.filter _) hon with hnil | ⟨r, hone⟩
  · left
    have hzero : rc.numFailed = 0 := by rw [hnum, hnil, List.length_nil]
    simp only [hzero]
    refine ⟨⟨h.first, h.nth, h.buffer, h.readBuf, h.parityBuf, h.disks, h.xors⟩, rfl, hreqs, fun r hr => ?_⟩
    by_contra hinvalid
    exact List.filter_eq_nil_iff.1 hnil r hr (decide_eq_true hinvalid)
  · right
    have hmem : r ∈ (readList w).filter fun r => ¬ r.Valid p w.disks := by rw [hone]; exact List.mem_singleton.2 rfl
    obtain ⟨hr, hinvalid⟩ := List.mem_filter.1 hmem
    have hinvalid := of_decide_eq_true hinvalid
    obtain ⟨q, hq, hqinvalid, hfailed⟩ := addRequests_failedReq io.reqControl.reset ⟨r, hr, hinvalid⟩
    have hqr : q = r := by
      have hq' : q ∈ (readList w).filter fun r => ¬ r.Valid p w.disks := List.mem_filter.2 ⟨hq, decide_eq_true hqinvalid⟩
      rw [hone] at hq'
      exact List.mem_singleton.1 hq'
    rw [← hadd, hqr] at hfailed
    have hnumFailed : rc.numFailed = 1 := by rw [hnum, hone, List.length_singleton]
    simp only [hnumFailed, hfailed]
    refine ⟨mark p w.disks, r, hbase.rebuild hr (hon r hmem) (fun r' hr' => ⟨_, rfl, fun hon' => ?_, fun hnot => ?_⟩) hreqs⟩
    · rw [valid_iff_unit hr (hon r hmem), ← valid_iff_unit hr' hon'] at hinvalid
      rw [if_neg hinvalid]
      exact ⟨fun h => (by cases h), fun h => by cases h⟩
    · exact .inl (if_pos (valid_readList hr' hnot))

end lists

section reading
variable {p : Params} {w : Task p} {io : StripeIo} {out : Outcome} {mem : Mem} {q : BlockRequest} {u o : Nat}

/-- The buffer has what the range holds. -/
def Task.Got (w : Task p) (mem : Mem) : Prop :=
  ∀ u < p.numDataCol, ∀ o < p.bytesPerStripeUnit, w.Writes u (o / p.bytesPerSector) →
    mem .user ((u * p.bytesPerStripeUnit + o : Nat) - (w.f * p.bytesPerSector : Nat)) = w.old u o

theorem readList_covers (hu : u < p.numDataCol) (ho : o < p.bytesPerStripeUnit) (hw : w.Writes u (o / p.bytesPerSector)) :
    ∃ r ∈ readList w, OnUnit p w.k u r ∧ r.Covers (p.height w.k * p.bytesPerStripeUnit + o) ∧
      ∀ mem : Mem, r.byteAt mem (p.height w.k * p.bytesPerStripeUnit + o) =
        mem .user ((u * p.bytesPerStripeUnit + o : Nat) - (w.f * p.bytesPerSector : Nat)) := by
  obtain ⟨s, hs⟩ : ∃ s, s = o / p.bytesPerSector := ⟨_, rfl⟩
  have hsS : s < p.sectorsPerStripeUnit := hs ▸ sector_lt ho
  have hw' := hw
  obtain ⟨hw1, hw2⟩ := hw'
  have hsucc : (u + 1) * p.sectorsPerStripeUnit = u * p.sectorsPerStripeUnit + p.sectorsPerStripeUnit := Nat.succ_mul _ _
  obtain ⟨-, hreq⟩ := written_dataRequest (w := w) (u := u) (by omega) (by omega) w.wholeRange .read ⟨.user, 0⟩
  have hmem := List.mem_filterMap.2 ⟨u, List.mem_range.2 hu, hreq⟩
  refine ⟨_, hmem, ⟨rfl, rfl⟩, ?_, fun mem => ?_⟩
  · rw [covers_unitRequest, ← hs]
    omega
  · rw [byteAt, unitRequest_start]
    show mem .user ((0 : Int) + (p.sectorToByte _ : Nat) + _) = _
    congr 1
    have hlo : max w.f (u * p.sectorsPerStripeUnit) - w.f = u * p.sectorsPerStripeUnit +
        (max w.f (u * p.sectorsPerStripeUnit) - u * p.sectorsPerStripeUnit) - w.f := by omega
    rw [hlo, sectorToByte_eq, Nat.sub_mul, Nat.add_mul, Nat.mul_assoc, ← bytesPerStripeUnit_eq]
    have hle : w.f * p.bytesPerSector ≤ (u * p.sectorsPerStripeUnit +
        (max w.f (u * p.sectorsPerStripeUnit) - u * p.sectorsPerStripeUnit)) * p.bytesPerSector :=
      Nat.mul_le_mul_right _ (by omega)
    rw [Nat.add_mul, Nat.mul_assoc, ← bytesPerStripeUnit_eq] at hle
    omega

theorem data_eq_old {r : BlockRequest} (hon : OnUnit p w.k u r) (hvalid : UnitValid p w.disks w.k u) :
    (w.disks r.col r.row).data (p.height w.k * p.bytesPerStripeUnit + o) = w.old u o := by
  rw [old_of_valid hvalid, unitByte_eq, hon.1, hon.2]

theorem got_of_bytes (h : ∀ r ∈ readList w, ∀ u < p.numDataCol, OnUnit p w.k u r → ∀ o < p.bytesPerStripeUnit,
    r.Covers (p.height w.k * p.bytesPerStripeUnit + o) → r.byteAt mem (p.height w.k * p.bytesPerStripeUnit + o) = w.old u o) :
    w.Got mem := by
  intro u hu o ho hw
  obtain ⟨r, hr, hon, hcov, hbyte⟩ := readList_covers hu ho hw
  rw [← hbyte mem]
  exact h r hr u hu hon o ho hcov

theorem apart_readList : (readList w).Pairwise fun r q => Apart r.buffer r.bufferLen q.buffer q.bufferLen := dataRequests_apart

theorem Kept.fail {r r' : BlockRequest} (h : Kept w mem r r') : Kept w.fail mem r r' := by
  obtain ⟨st, hst, hon, hnot⟩ := h
  refine ⟨st, hst, hon, fun hnot' => ?_⟩
  rcases hnot hnot' with hready | ⟨hdone, hbytes⟩
  · exact .inl hready
  · refine .inr ⟨hdone, fun addr hcov => (hbytes addr hcov).trans ?_⟩
    exact (congrFun (failUnit_data _ _ _ _ _) addr).symm

section
variable (h : Reading w io)
include h

theorem Reading.bytes (hq : q ∈ readList w) (hok : out.fails (q.mark p w.disks) = false)
    {addr : Nat} (hcov : q.Covers addr) : q.byteAt (io.complete out).mem addr = (w.disks q.col q.row).data addr := by
  have hread : ∀ r ∈ (readList w).map (mark p w.disks), r.state = .ready → r.operation = .read := by
    intro r' hr' _
    obtain ⟨r, hr, rfl⟩ := mem_map.1 hr'
    obtain ⟨u, hu, lo, hi, q, -, -, rfl, -⟩ := mem_readList hr
    rfl
  have hapart : ((readList w).map (mark p w.disks)).Pairwise fun r q => r.state = .ready → q.state = .ready →
      Apart r.buffer r.bufferLen q.buffer q.bufferLen := by
    rw [pairwise_map]
    exact apart_readList.imp fun h _ _ => h
  have hbyte : (q.mark p w.disks).byteAt
      (transferAll out ((readList w).map (mark p w.disks)) io.mem w.disks).1 addr = _ :=
    transferAll_read_bytes hread hapart (mem_map.2 ⟨q, hq, rfl⟩) (if_pos (h.valid q hq)) hok (covers_mark.2 hcov)
  have hmem : (io.complete out).mem = (transferAll out ((readList w).map (mark p w.disks)) io.mem w.disks).1 := by
    show (transferAll out io.reqControl.reqs io.mem io.disks).1 = _
    rw [h.reqs, h.base.disks]
  rw [hmem]
  exact hbyte

section
variable (hout : w.OnlyLoses out)
include hout

theorem Reading.kept (hq : q ∈ readList w)
    (hfails : OnUnit p w.k w.d q → out.fails (q.mark p w.disks) = true) :
    Kept w (io.complete out).mem q ((q.mark p w.disks).complete out) := by
  have hready : ∀ r ∈ readList w, (r.mark p w.disks).state = .ready := fun r hr => if_pos (h.valid r hr)
  refine ⟨if out.fails (q.mark p w.disks) then .failed else .completed, ?_, fun hon => ?_, fun hnot => ?_⟩
  · rw [complete, if_pos (hready q hq)]
    rfl
  · rw [if_pos (hfails hon)]
    exact ⟨fun h => (by cases h), fun h => by cases h⟩
  · have hok : out.fails (q.mark p w.disks) = false := by
      by_contra hne
      exact hnot (hout.requests (q.mark p w.disks) (by simpa using hne))
    right
    rw [hok]
    refine ⟨rfl, fun addr hcov => ?_⟩
    exact h.bytes hq hok hcov

theorem Reading.failures :
    failures out io.reqControl.reqs = [] ∧ (∀ r ∈ readList w, out.fails (r.mark p w.disks) = false) ∨
      ∃ r ∈ readList w, OnUnit p w.k w.d r ∧ out.fails (r.mark p w.disks) = true ∧
        failures out io.reqControl.reqs = [(r.mark p w.disks).complete out] := by
  have hready : ∀ r ∈ readList w, (r.mark p w.disks).state = .ready := fun r hr => if_pos (h.valid r hr)
  rw [Initiate.failures, h.reqs]
  have hdistinct : (((readList w).map (mark p w.disks)).filter
      fun r => decide (r.state = .ready ∧ out.fails r = true)).Pairwise fun r q => ¬ (r.col = q.col ∧ r.row = q.row) := by
    refine List.Pairwise.filter _ ?_
    rw [List.pairwise_map]
    exact distinct_readList
  have hon : ∀ r ∈ ((readList w).map (mark p w.disks)).filter
      fun r => decide (r.state = .ready ∧ out.fails r = true), OnUnit p w.k w.d r :=
    fun r hr => hout.requests r (of_decide_eq_true (List.mem_filter.1 hr).2).2
  rcases one_onUnit hdistinct hon with hnil | ⟨r', hone⟩
  · left
    rw [hnil]
    refine ⟨rfl, fun r hr => ?_⟩
    by_contra hne
    exact List.filter_eq_nil_iff.1 hnil _ (List.mem_map.2 ⟨r, hr, rfl⟩) (decide_eq_true ⟨hready r hr, by simpa using hne⟩)
  · right
    have hmem := List.mem_singleton.2 (rfl : r' = r')
    rw [← hone] at hmem
    obtain ⟨hmap, hfails⟩ := List.mem_filter.1 hmem
    obtain ⟨r, hr, rfl⟩ := List.mem_map.1 hmap
    exact ⟨r, hr, hon (r.mark p w.disks) hmem, (of_decide_eq_true hfails).2, by rw [hone]; rfl⟩

/-- **The requests for the range come to their end.** -/
theorem Reading.step :
    (io.step p out).status = .done 0 ∧ (io.step p out).xors = [] ∧ w.Got (io.step p out).mem ∧
        (∀ r ∈ readList w, out.fails (r.mark p w.disks) = false) ∨
      ∃ w' g r lo hi, (w' = w ∨ w' = w.fail) ∧ Rebuilding w' (io.step p out) g r lo hi := by
  rw [StripeIo.step, h.status]
  rcases h.failures hout with ⟨hnil, hok⟩ | ⟨r, hr, hon, hfails, hone⟩
  · left
    rw [hnil]
    refine ⟨rfl, h.base.xors, got_of_bytes fun r hr u hu hon o ho hcov => ?_, hok⟩
    refine (h.bytes hr (hok r hr) hcov).trans (data_eq_old hon ?_)
    obtain ⟨v, hv, lo, hi, q, hlt, hhi, heq, -⟩ := mem_readList hr
    have huv : v = u := by
      rw [heq] at hon
      exact unitPlace_injective (Nat.le_of_lt hv) (Nat.le_of_lt hu) hon.1
    have hvalid := h.valid r hr
    rw [heq] at hvalid
    rw [← huv]
    exact (valid_unitRequest (w.aligned (Nat.le_of_lt hv)) hlt hhi).1 hvalid
  · right
    rw [hone]
    have hkept : ∀ q ∈ readList w, Kept w (io.complete out).mem q ((q.mark p w.disks).complete out) := by
      intro q hq
      refine h.kept hout hq fun honq => ?_
      have hqr : q = r := by
        by_contra hne
        have : Std.Symm fun r q : BlockRequest => ¬ (r.col = q.col ∧ r.row = q.row) :=
          ⟨fun a b hab heq => hab ⟨heq.1.symm, heq.2.symm⟩⟩
        exact distinct_readList.forall hq hr hne ⟨honq.1.trans hon.1.symm, honq.2.trans hon.2.symm⟩
      rw [hqr]
      exact hfails
    have hreqs : ((io.complete out).failDisks out).reqControl.reqs =
        (readList w).map fun q => (q.mark p w.disks).complete out := by
      show io.reqControl.reqs.map (complete out) = _
      rw [h.reqs, List.map_map]
      rfl
    have hdisks : (io.complete out).disks = w.disks := by
      show (transferAll out io.reqControl.reqs io.mem io.disks).2 = _
      rw [(transferAll_reads fun q' hq' _ => ?_).1, h.base.disks]
      rw [h.reqs] at hq'
      obtain ⟨q, hq, rfl⟩ := List.mem_map.1 hq'
      obtain ⟨u, hu, lo, hi, q, -, -, rfl, -⟩ := mem_readList hq
      rfl
    have hlast : (([(r.mark p w.disks).complete out].find? out.last).or [(r.mark p w.disks).complete out].getLast?) =
        some ((r.mark p w.disks).complete out) := by
      obtain ⟨r', hr', heq⟩ := exists_failedReq (List.cons_ne_nil ((r.mark p w.disks).complete out) []) out.last
      rw [heq, List.mem_singleton.1 hr']
    simp only [hlast, List.length_singleton, StripeIo.callDone]
    have hbase : ∀ w' : Task p, w'.k = w.k → w'.f = w.f → w'.t = w.t → ((io.complete out).failDisks out).disks = w'.disks →
        ReadBase w' ((io.complete out).failDisks out) := by
      intro w' hk hf ht hd
      refine ⟨?_, ?_, h.base.buffer, h.base.readBuf, h.base.parityBuf, hd, h.base.xors⟩
      · rw [hk, hf]
        exact h.base.first
      · rw [hk, ht]
        exact h.base.nth
    rcases failDisks_eq hdisks ⟨fun r u hu hon _ hfails => hon.unit_eq hu w.d_le (hout.requests r hfails), hout.disks⟩ with hd | hd
    · exact ⟨w, _, r, _, _, .inl rfl, ((hbase w rfl rfl rfl hd).rebuild hr hon hkept hreqs).choose_spec.choose_spec⟩
    · exact ⟨w.fail, _, r, _, _, .inr rfl,
        ((hbase w.fail rfl rfl rfl hd).rebuild hr hon (fun q hq => (hkept q hq).fail) hreqs).choose_spec.choose_spec⟩

end

end

end reading

section rebuilding
variable {p : Params} {w : Task p} {io : StripeIo} {out : Outcome} {mem : Mem} {g : BlockRequest → BlockRequest}
  {r : BlockRequest} {lo hi : Nat}

/-- A request that has been carried out. -/
def BlockRequest.done (r : BlockRequest) : BlockRequest := { r with state := .completed }

/-- All has been read that the lost data are computed from. -/
structure Rebuilt (w : Task p) (r : BlockRequest) (lo hi : Nat) (g : BlockRequest → BlockRequest) (reqs : List BlockRequest)
    (mem : Mem) : Prop where
  mem_range : r ∈ readList w
  lost : Lost w r lo hi
  reqs_eq : reqs = (readList w).map g ++ (restList w lo (hi - lo) ++ parityList w lo (hi - lo)).map BlockRequest.done
  gone : ∀ q ∈ readList w, OnUnit p w.k w.d q → ¬ (g q).Ok
  kept : ∀ q ∈ readList w, ¬ OnUnit p w.k w.d q → g q = q.done
  bytes : ∀ q ∈ readList w, ¬ OnUnit p w.k w.d q → ∀ addr, q.Covers addr → q.byteAt mem addr = (w.disks q.col q.row).data addr
  rest : ∀ q ∈ restList w lo (hi - lo) ++ parityList w lo (hi - lo), ∀ addr, q.Covers addr →
    q.byteAt mem addr = (w.disks q.col q.row).data addr

theorem Rebuilding.read_ready (h : Rebuilding w io g r lo hi) :
    ∀ q ∈ io.reqControl.reqs, q.state = .ready → q.operation = .read ∧ ¬ OnUnit p w.k w.d q := by
  rw [h.reqs]
  intro q' hq' hready
  rcases mem_append.1 hq' with hmem | hmem
  · obtain ⟨q, hq, rfl⟩ := mem_map.1 hmem
    obtain ⟨st, hst, hon, -⟩ := h.kept q hq
    rw [hst] at hready ⊢
    refine ⟨?_, fun hon' => (hon hon').1 hready⟩
    obtain ⟨u, hu, lo, hi, q, -, -, rfl, -⟩ := mem_readList hq
    rfl
  · obtain ⟨q, hq, rfl⟩ := mem_map.1 hmem
    obtain ⟨u, hu, hne, a, b, q, -, -, -, -, rfl, -⟩ := h.lost.rest hq
    exact ⟨rfl, fun hon => hne (unitPlace_injective hu w.d_le hon.1)⟩

theorem Rebuilding.none_fail (h : Rebuilding w io g r lo hi) (hout : w.OnlyLoses out) : failures out io.reqControl.reqs = [] := by
  rw [Initiate.failures, filter_eq_nil_iff.2, map_nil]
  intro q hq hboth
  obtain ⟨hready, hfails⟩ := of_decide_eq_true hboth
  exact (h.read_ready q hq hready).2 (hout.requests q hfails)

theorem apart_rest (w : Task p) (rs rn : Nat) : (restList w rs rn ++ parityList w rs rn).Pairwise fun r q =>
    Apart r.buffer r.bufferLen q.buffer q.bufferLen := by
  rw [pairwise_append]
  refine ⟨apart_restList, ?_, fun r hr q hq => ?_⟩
  · rw [parityList, parityRequest]
    split <;> simp
  · obtain ⟨-, heq⟩ := shape_parityList hq
    left
    rw [(within_restList hr).buf, heq]
    exact fun h => by cases h

theorem Rebuilding.apart (h : Rebuilding w io g r lo hi) : io.reqControl.reqs.Pairwise fun r q =>
    Apart r.buffer r.bufferLen q.buffer q.bufferLen := by
  have hsame : ∀ q ∈ readList w, (g q).buffer = q.buffer ∧ (g q).bufferLen = q.bufferLen := by
    intro q hq
    obtain ⟨st, hst, -⟩ := h.kept q hq
    rw [hst]
    exact ⟨rfl, rfl⟩
  rw [h.reqs, pairwise_append, pairwise_map, pairwise_map]
  refine ⟨apart_readList.imp_of_mem fun {q q'} hq hq' hapart => ?_, apart_rest w _ _, fun q₁ hq₁ q₂ hq₂ => ?_⟩
  · rw [(hsame q hq).1, (hsame q hq).2, (hsame q' hq').1, (hsame q' hq').2]
    exact hapart
  · obtain ⟨q, hq, rfl⟩ := mem_map.1 hq₁
    obtain ⟨q', hq', rfl⟩ := mem_map.1 hq₂
    obtain ⟨u, hu, a, b, b', -, -, heq, hbuf, -⟩ := mem_readList hq
    obtain ⟨v, hv, -, a', b'', c, -, -, -, -, heq', hbuf'⟩ := h.lost.rest hq'
    left
    rw [(hsame q hq).1, heq, heq']
    show b'.buf ≠ c.buf
    rw [hbuf]
    exact Ne.symm hbuf'

/-- **The rest of the stripe has been read.** -/
theorem Rebuilding.rebuilt (h : Rebuilding w io g r lo hi) (hout : w.OnlyLoses out) :
    Rebuilt w r lo hi (fun q => (g q).complete out) (io.complete out).reqControl.reqs (io.complete out).mem := by
  have hok : ∀ q ∈ io.reqControl.reqs, q.state = .ready → out.fails q = false := no_failures (h.none_fail hout)
  have hread : ∀ q ∈ io.reqControl.reqs, q.state = .ready → q.operation = .read := fun q hq hready => (h.read_ready q hq hready).1
  have hapart : io.reqControl.reqs.Pairwise fun r q => r.state = .ready → q.state = .ready →
      Apart r.buffer r.bufferLen q.buffer q.bufferLen := h.apart.imp fun hab _ _ => hab
  have hbyte : ∀ q ∈ io.reqControl.reqs, q.state = .ready → ∀ addr, q.Covers addr →
      q.byteAt (io.complete out).mem addr = (w.disks q.col q.row).data addr := by
    intro q hq hready addr hcov
    rw [← h.base.disks]
    exact transferAll_read_bytes hread hapart hq hready (hok q hq hready) hcov
  have hold : ∀ q ∈ readList w, g q ∈ io.reqControl.reqs := by
    intro q hq
    rw [h.reqs]
    exact List.mem_append_left _ (List.mem_map.2 ⟨q, hq, rfl⟩)
  have hnew : ∀ q ∈ restList w lo (hi - lo) ++ parityList w lo (hi - lo), q.mark p w.disks ∈ io.reqControl.reqs := by
    intro q hq
    rw [h.reqs]
    exact List.mem_append_right _ (List.mem_map.2 ⟨q, hq, rfl⟩)
  refine ⟨h.mem, h.lost, ?_, fun q hq hon hgone => ?_, fun q hq hnot => ?_, fun q hq hnot addr hcov => ?_, fun q hq addr hcov => ?_⟩
  · show io.reqControl.reqs.map (complete out) = _
    rw [h.reqs, List.map_append, List.map_map, List.map_map]
    congr 1
    apply List.map_congr_left
    intro q hq
    have hready : (q.mark p w.disks).state = .ready := if_pos (h.valid q hq)
    exact complete_ok hready (hok _ (hnew q hq) hready)
  · obtain ⟨st, hst, hlost, -⟩ := h.kept q hq
    obtain ⟨hne, hne'⟩ := hlost hon
    rw [hst, complete, if_neg hne] at hgone
    exact hgone.elim hne hne'
  · obtain ⟨st, hst, -, hkept⟩ := h.kept q hq
    rcases hkept hnot with rfl | ⟨rfl, -⟩
    · have hready : (g q).state = .ready := by rw [hst]
      rw [complete_ok hready (hok _ (hold q hq) hready), hst]
      rfl
    · rw [hst]
      rfl
  · obtain ⟨st, hst, -, hkept⟩ := h.kept q hq
    rcases hkept hnot with rfl | ⟨rfl, hbytes⟩
    · have hthis := hbyte (g q) (hold q hq) (by rw [hst]) addr
      rw [hst] at hthis
      exact hthis hcov
    · rw [← hbytes addr hcov]
      refine (transferAll_reads hread).2 _ _ fun q' hq' hready hin => ?_
      have : Std.Symm fun r q : BlockRequest => Apart r.buffer r.bufferLen q.buffer q.bufferLen := ⟨fun _ _ hab => hab.symm⟩
      have hne : g q ≠ q' := by
        rintro rfl
        rw [hst] at hready
        cases hready
      have hab := h.apart.forall (hold q hq) hq' hne
      rw [hst] at hab
      exact hab.not_inRange hcov.inRange hin
  · have hthis := hbyte _ (hnew q hq) (if_pos (h.valid q hq)) addr
    exact hthis (covers_mark.2 hcov)

theorem ok_done (q : BlockRequest) : q.done.Ok := .inr rfl

/-- **What the requests have for a byte that is lost.** -/
theorem Rebuilt.sum {reqs : List BlockRequest} (h : Rebuilt w r lo hi g reqs mem) {o : Nat} (ho : o < p.bytesPerStripeUnit)
    (hlo : lo ≤ o / p.bytesPerSector) (hhi : o / p.bytesPerSector < hi) :
    reqSum reqs (fun r => r.byteAt mem (p.height w.k * p.bytesPerStripeUnit + o)) (p.height w.k * p.bytesPerStripeUnit + o) =
      w.old w.d o := by
  have hs := sector_lt ho
  have hlost := h.lost
  have hle := hlost.le
  have hwrites : w.Writes w.d (o / p.bytesPerSector) := by
    have hlo' := hlost.lo_eq
    have hhi' := hlost.hi_eq
    constructor
    · omega
    · omega
  have hkept : reqSum ((readList w).map g) (fun r => r.byteAt mem (p.height w.k * p.bytesPerStripeUnit + o))
      (p.height w.k * p.bytesPerStripeUnit + o) =
        ∑ u ∈ range p.numDataCol, if w.Writes u (o / p.bytesPerSector) ∧ u ≠ w.d then w.old u o else 0 := by
    apply reqSum_units
    · intro u hu q hq
      have hmem : q ∈ readList w := List.mem_filterMap.2 ⟨u, List.mem_range.2 hu, hq⟩
      obtain ⟨a, b, hab, hb, heq, ha', hb'⟩ := dataRequest_some hq
      have hspan : q.Covers (p.height w.k * p.bytesPerStripeUnit + o) ↔ w.Writes u (o / p.bytesPerSector) := by
        rw [heq, covers_unitRequest, ha', hb', ← inSpan_iff hs]
        exact ⟨fun h => ⟨h.1, h.2.1⟩, fun h => ⟨h.1, h.2, Nat.zero_le _, by omega⟩⟩
      have hunit : OnUnit p w.k w.d q ↔ u = w.d := by
        rw [heq]
        exact onUnit_unitRequest (Nat.le_of_lt hu)
      by_cases hon : OnUnit p w.k w.d q
      · have hud := hunit.1 hon
        exact ⟨⟨fun hok => absurd hok.1 (h.gone _ hmem hon), fun hne => absurd hud hne.2⟩, fun hne => absurd hud hne.2⟩
      · have hud : u ≠ w.d := mt hunit.2 hon
        have hq' : OnUnit p w.k u q := by rw [heq]; exact ⟨rfl, rfl⟩
        rw [h.kept _ hmem hon]
        refine ⟨⟨fun hok => ⟨hspan.1 hok.2, hud⟩, fun hw => ⟨ok_done _, hspan.2 hw.1⟩⟩, fun hw => ?_⟩
        exact (h.bytes _ hmem hon _ (hspan.2 hw.1)).trans (data_eq_old hq' (w.valid u (Nat.le_of_lt hu) hud))
    · rintro u hu hnone ⟨hw, -⟩
      exact not_inSpan_of_none hnone hs ⟨hw.1, hw.2, Nat.zero_le _, by omega⟩
  have hrest : reqSum ((restList w lo (hi - lo) ++ parityList w lo (hi - lo)).map BlockRequest.done)
      (fun r => r.byteAt mem (p.height w.k * p.bytesPerStripeUnit + o)) (p.height w.k * p.bytesPerStripeUnit + o) =
        (∑ u ∈ range p.numDataCol, if w.Writes u (o / p.bytesPerSector) then 0 else w.old u o) + w.old p.numDataCol o := by
    have hvalid := fun q hq => hlost.valid_rest (r := q) hq
    have hmark : reqSum ((restList w lo (hi - lo) ++ parityList w lo (hi - lo)).map BlockRequest.done)
        (fun r => r.byteAt mem (p.height w.k * p.bytesPerStripeUnit + o)) (p.height w.k * p.bytesPerStripeUnit + o) =
          reqSum ((restList w lo (hi - lo) ++ parityList w lo (hi - lo)).map (mark p w.disks))
            (fun r => (w.disks r.col r.row).data (p.height w.k * p.bytesPerStripeUnit + o))
            (p.height w.k * p.bytesPerStripeUnit + o) :=
      reqSum_map_congr (fun q hq => and_congr_left fun _ => ⟨fun _ => mark_of_valid (hvalid q hq), fun _ => ok_done q⟩)
        fun q hq hcov => h.rest q hq _ hcov
    rw [hmark, List.map_append, reqSum_append,
      reqSum_rest (fun q hq => hvalid q (List.mem_append_left _ hq)) ho,
      reqSum_parityList (by omega) (fun q hq => hvalid q (List.mem_append_right _ hq)), if_pos ⟨hlo, by omega⟩,
      if_pos ⟨hlo, by omega⟩]
  rw [h.reqs_eq, reqSum_append, hkept, hrest,
    sum_rebuilt (fun u => w.Writes u (o / p.bytesPerSector)) hlost.data hwrites]
  exact ((w.consistent o ho).eq_others w.d_le).symm

end rebuilding

/-- The parts of the first and the last unit in the range have no gap between them, or neither is unit `d`. -/
def Clear (p : Params) (f t d : Nat) : Prop :=
  d ≠ f / p.sectorsPerStripeUnit ∧ d ≠ (t - 1) / p.sectorsPerStripeUnit ∨
    f / p.sectorsPerStripeUnit = (t - 1) / p.sectorsPerStripeUnit ∨
      f % p.sectorsPerStripeUnit ≤ (t - 1) % p.sectorsPerStripeUnit + 1

instance (p : Params) (f t d : Nat) : Decidable (Clear p f t d) := instDecidableOr

section clear
variable {p : Params} {w : Task p} {io : StripeIo} {out : Outcome} {mem : Mem} {g : BlockRequest → BlockRequest}
  {r : BlockRequest} {lo hi : Nat}

variable {f t u : Nat}

theorem unit_between {S : Nat} (hS : 0 < S) (hf : f < (u + 1) * S) (ht : u * S < t) : f / S ≤ u ∧ u ≤ (t - 1) / S := by
  constructor
  · exact Nat.lt_succ_iff.1 ((Nat.div_lt_iff_lt_mul hS).2 hf)
  · rw [Nat.le_div_iff_mul_le hS]
    omega

theorem part_eq {S : Nat} (hS : 0 < S) (hf : f < (u + 1) * S) (ht : u * S < t) :
    f - u * S = (if u = f / S then f % S else 0) ∧
      min t ((u + 1) * S) - u * S = if u = (t - 1) / S then (t - 1) % S + 1 else S := by
  have hfdiv := Nat.div_add_mod' f S
  have htdiv := Nat.div_add_mod' (t - 1) S
  have hfmod := Nat.mod_lt f hS
  have htmod := Nat.mod_lt (t - 1) hS
  obtain ⟨hle, hge⟩ := unit_between hS hf ht
  rw [Nat.succ_mul]
  constructor
  · split
    · rename_i heq
      rw [heq]
      omega
    · have hmul : (f / S + 1) * S ≤ u * S := Nat.mul_le_mul_right S (by omega)
      rw [Nat.succ_mul] at hmul
      omega
  · split
    · rename_i heq
      rw [heq]
      omega
    · have hmul : (u + 1) * S ≤ (t - 1) / S * S := Nat.mul_le_mul_right S (by omega)
      rw [Nat.succ_mul] at hmul
      omega

theorem Clear.meets {d v : Nat} (h : Clear p f t d) (hd : f < (d + 1) * p.sectorsPerStripeUnit)
    (hd' : d * p.sectorsPerStripeUnit < t) (hv : f < (v + 1) * p.sectorsPerStripeUnit) (hv' : v * p.sectorsPerStripeUnit < t)
    (hne : v ≠ d) :
    f - v * p.sectorsPerStripeUnit ≤ min t ((d + 1) * p.sectorsPerStripeUnit) - d * p.sectorsPerStripeUnit ∧
      f - d * p.sectorsPerStripeUnit ≤ min t ((v + 1) * p.sectorsPerStripeUnit) - v * p.sectorsPerStripeUnit := by
  have hS := p.sectors_pos
  have hmod := Nat.mod_lt f hS
  obtain ⟨hd1, hd2⟩ := part_eq hS hd hd'
  obtain ⟨hv1, hv2⟩ := part_eq hS hv hv'
  rw [hd1, hd2, hv1, hv2]
  rw [Clear] at h
  split <;> split <;> split <;> split <;> omega

theorem reaches_of_meets {a b : Nat} {q : Ptr} {dest : Ptr} {state : RequestState} (hab : a < b)
    (hb : b ≤ p.sectorsPerStripeUnit) (hlohi : lo ≤ hi) (hmeets : a ≤ hi) (hmet : lo ≤ b)
    (hapart : Apart q ((b - a) * p.bytesPerSector) dest (p.sectorToByte (hi - lo))) :
    Reaches p (p.height w.k) (p.sectorToByte lo) (p.sectorToByte (hi - lo)) dest
      { unitRequest p w.k .read u a b q with state := state } := by
  have hin : InUnit p (p.height w.k) (unitRequest p w.k .read u a b q) := unitRequest_inUnit hab hb
  refine ⟨⟨hin.pos, hin.first, hin.last⟩, ?_, ?_, ?_⟩
  · rw [unitRequest_start, Nat.add_assoc, sectorToByte_add, Nat.add_sub_cancel' hlohi, sectorToByte_eq]
    exact Nat.add_le_add_left (Nat.mul_le_mul_right _ hmeets) _
  · rw [unitRequest_start, unitRequest_len, Nat.add_assoc, ← Nat.add_mul, Nat.add_sub_cancel' (Nat.le_of_lt hab),
      sectorToByte_eq]
    exact Nat.add_le_add_left (Nat.mul_le_mul_right _ hmet) _
  · rw [unitRequest_len]
    exact hapart

variable {reqs : List BlockRequest} {outs : List Outcome}

theorem Rebuilt.reaches (h : Rebuilt w r lo hi g reqs mem) (hclear : Clear p w.f w.t w.d) :
    ∀ q ∈ reqs, q.Ok → Reaches p (p.height w.k) (p.sectorToByte lo) (p.sectorToByte (hi - lo)) r.buffer q := by
  have hlost := h.lost
  have hlt := hlost.lt
  have hlo := hlost.lo_eq
  have hhi := hlost.hi_eq
  obtain ⟨q₀, hr, hbuf₀⟩ := hlost.request
  rw [h.reqs_eq]
  intro q' hq' hok
  rcases mem_append.1 hq' with hmem | hmem
  · obtain ⟨q, hq, rfl⟩ := mem_map.1 hmem
    by_cases hon : OnUnit p w.k w.d q
    · exact absurd hok (h.gone q hq hon)
    · rw [h.kept q hq hon]
      have hne : q ≠ r := by
        rintro rfl
        exact hon (by rw [hr]; exact ⟨rfl, rfl⟩)
      have : Std.Symm fun r q : BlockRequest => Apart r.buffer r.bufferLen q.buffer q.bufferLen := ⟨fun _ _ hab => hab.symm⟩
      have hapart := apart_readList.forall hq h.mem_range hne
      obtain ⟨v, hv, a, b, q₁, hab, hb, rfl, -, -, -, ha', hb'⟩ := mem_readList hq
      rw [onUnit_unitRequest (Nat.le_of_lt hv)] at hon
      obtain ⟨hmeets, hmet⟩ := hclear.meets (v := v) (by omega) (by omega) (by omega) (by omega) hon
      rw [unitRequest_len, hr] at hapart
      rw [hr]
      exact reaches_of_meets hab hb (Nat.le_of_lt hlt) (by omega) (by omega) hapart
  · obtain ⟨q, hq, rfl⟩ := mem_map.1 hmem
    obtain ⟨v, hv, hne, a, b, q₁, hab, hb, ha', hb', rfl, hbuf⟩ := hlost.rest hq
    refine reaches_of_meets hab hb (Nat.le_of_lt hlt) (by omega) (by omega) (.inl ?_)
    rw [hr]
    exact fun heq => hbuf (heq.trans hbuf₀)

/-- The lost data are computed into their place in the buffer. -/
def rebuildCalls (p : Params) (reqs : List BlockRequest) (r : BlockRequest) : List XorCall :=
  xorRangeRequests p reqs r.buffer r.startAddress r.bufferLen

theorem Rebuilding.step_eq (h : Rebuilding w io g r lo hi) (hout : w.OnlyLoses out) :
    (io.step p out).status = .done 0 ∧
      (io.step p out).xors = rebuildCalls p (io.complete out).reqControl.reqs r ∧
        (io.step p out).mem = xorAll io.address (rebuildCalls p (io.complete out).reqControl.reqs r)
          ((io.complete out).mem.fill r.buffer r.bufferLen fun _ => 0) := by
  obtain ⟨st, hst, -⟩ := h.kept r h.mem
  have hfailed : ((io.complete out).failDisks out).reqControl.failedReq = some (g r) := h.failedReq
  rw [StripeIo.step, h.status]
  simp only [h.none_fail hout, length_nil, StripeIo.callDone, StripeIo.reconstructData, hfailed, hst]
  refine ⟨trivial, ?_, rfl⟩
  show io.xors ++ _ = _
  rw [h.base.xors]
  rfl

theorem Lost.request_eq (h : Lost w r lo hi) : r.startAddress = p.height w.k * p.bytesPerStripeUnit + p.sectorToByte lo ∧
    r.bufferLen = p.sectorToByte (hi - lo) ∧ p.stripeUnitOffset r.startAddress = p.sectorToByte lo := by
  obtain ⟨q, rfl, -⟩ := h.request
  have hlt := h.lt
  have hle := h.le
  refine ⟨?_, rfl, stripeUnitOffset_unit w.k (by omega)⟩
  rw [sectorToByte_eq]
  exact unitRequest_start

/-- **The lost data are computed**, where the parts meet. -/
theorem Rebuilt.got (h : Rebuilt w r lo hi g reqs mem) (hclear : Clear p w.f w.t w.d)
    (address : Buf → Int) : w.Got (xorAll address (rebuildCalls p reqs r) (mem.fill r.buffer r.bufferLen fun _ => 0)) := by
  have hU := p.bytesPerStripeUnit_pos
  have hlost := h.lost
  obtain ⟨hstart, hlen, hoff⟩ := hlost.request_eq
  have hreach := h.reaches hclear
  rw [← hoff, ← hlen] at hreach
  refine got_of_bytes fun q hq u hu hon o ho hcov => ?_
  by_cases hqr : q = r
  · rw [hqr] at hcov hon ⊢
    have hud : u = w.d := by
      obtain ⟨q₀, heq, -⟩ := hlost.request
      rw [heq] at hon
      exact unitPlace_injective (Nat.le_of_lt hu) w.d_le hon.1.symm
    rw [hud]
    rw [BlockRequest.Covers, hstart, hlen] at hcov
    obtain ⟨i, rfl⟩ : ∃ i, o = p.sectorToByte lo + i := ⟨o - p.sectorToByte lo, by omega⟩
    have hi' : i < r.bufferLen := by omega
    have hbyte : xorAll address (rebuildCalls p reqs r) (mem.fill r.buffer r.bufferLen fun _ => 0) r.buffer.buf (r.buffer.off + i) = _ :=
      xorRange_apply hU hreach hi'
    have hzero : mem.fill r.buffer r.bufferLen (fun _ => 0) r.buffer.buf (r.buffer.off + i) = 0 :=
      if_pos ⟨rfl, by omega, by omega⟩
    have hsame : reqSum reqs (fun q => q.byteAt (mem.fill r.buffer r.bufferLen fun _ => 0)
        (p.height w.k * p.bytesPerStripeUnit + (p.sectorToByte lo + i))) (p.height w.k * p.bytesPerStripeUnit + (p.sectorToByte lo + i)) =
          reqSum reqs (fun q => q.byteAt mem (p.height w.k * p.bytesPerStripeUnit + (p.sectorToByte lo + i)))
            (p.height w.k * p.bytesPerStripeUnit + (p.sectorToByte lo + i)) :=
      reqSum_congr fun q hq hok hcov' => if_neg ((hreach q hq hok).apart.not_inRange hcov'.inRange)
    have hsector : lo ≤ (p.sectorToByte lo + i) / p.bytesPerSector ∧ (p.sectorToByte lo + i) / p.bytesPerSector < hi := by
      have hB := p.bytesPerSector_pos
      have hlen' := hi'
      rw [hlen, sectorToByte_eq, Nat.sub_mul] at hlen'
      rw [sectorToByte_eq, Nat.le_div_iff_mul_le hB, Nat.div_lt_iff_lt_mul hB]
      omega
    rw [hoff, Nat.add_assoc, hzero, zero_add, hsame, h.sum ho hsector.1 hsector.2] at hbyte
    rw [byteAt, ← hbyte, hstart]
    congr 1
    omega
  · have hnot : ¬ OnUnit p w.k w.d q := by
      intro hon'
      have : Std.Symm fun r q : BlockRequest => ¬ (r.col = q.col ∧ r.row = q.row) :=
        ⟨fun a b hab heq => hab ⟨heq.1.symm, heq.2.symm⟩⟩
      obtain ⟨q₀, heq, -⟩ := hlost.request
      have hon₀ : OnUnit p w.k w.d r := by rw [heq]; exact ⟨rfl, rfl⟩
      exact distinct_readList.forall hq h.mem_range hqr ⟨hon'.1.trans hon₀.1.symm, hon'.2.trans hon₀.2.symm⟩
    have hne : u ≠ w.d := fun hud => hnot (hud ▸ hon)
    have : Std.Symm fun r q : BlockRequest => Apart r.buffer r.bufferLen q.buffer q.bufferLen := ⟨fun _ _ hab => hab.symm⟩
    have hout := (apart_readList.forall hq h.mem_range hqr).not_inRange hcov.inRange
    rw [← data_eq_old hon (w.valid u (Nat.le_of_lt hu) hne), ← h.bytes q hq hnot _ hcov, byteAt, byteAt,
      rebuildCalls, xorAll_outside (xorRange_fits hU hreach) hout]
    exact if_neg hout

theorem Rebuilt.inside (h : Rebuilt w r lo hi g reqs mem) (hclear : Clear p w.f w.t w.d) :
    ∀ call ∈ rebuildCalls p reqs r, call.Inside := by
  obtain ⟨-, hlen, hoff⟩ := h.lost.request_eq
  have hreach := h.reaches hclear
  rw [← hoff, ← hlen] at hreach
  intro call hcall
  obtain ⟨q, hq, hok, rfl⟩ := mem_xorRangeRequests hcall
  exact (hreach q hq hok).inside (Nat.mod_lt _ p.bytesPerStripeUnit_pos)

theorem readList_end {v : Nat} (hv : v = w.f / p.sectorsPerStripeUnit ∨ v = (w.t - 1) / p.sectorsPerStripeUnit) :
    ∃ a b q, unitRequest p w.k .read v a b q ∈ readList w ∧ v < p.numDataCol ∧ a < b ∧ b ≤ p.sectorsPerStripeUnit ∧
      (v = w.f / p.sectorsPerStripeUnit → a = w.f % p.sectorsPerStripeUnit) ∧
        (v = (w.t - 1) / p.sectorsPerStripeUnit → b = (w.t - 1) % p.sectorsPerStripeUnit + 1) := by
  have hS := p.sectors_pos
  have hB := p.bytesPerSector_pos
  have hft := w.f_lt
  have htD := w.t_le
  have hfdiv := Nat.div_add_mod' w.f p.sectorsPerStripeUnit
  have htdiv := Nat.div_add_mod' (w.t - 1) p.sectorsPerStripeUnit
  obtain ⟨s, hs, hw, hv'⟩ : ∃ s, s < p.sectorsPerStripeUnit ∧ w.Writes v s ∧ v < p.numDataCol := by
    rcases hv with rfl | rfl
    · exact ⟨_, Nat.mod_lt w.f hS, ⟨by omega, by omega⟩, Params.unit_lt w.f_lt_data⟩
    · exact ⟨_, Nat.mod_lt (w.t - 1) hS, ⟨by omega, by omega⟩, Params.unit_lt (by omega)⟩
  have ho : s * p.bytesPerSector < p.bytesPerStripeUnit := by
    rw [bytesPerStripeUnit_eq]
    exact Nat.mul_lt_mul_of_pos_right hs hB
  obtain ⟨q, hq, hon, -⟩ := readList_covers hv' ho (by rwa [Nat.mul_div_cancel _ hB])
  obtain ⟨u, hu, a, b, q₀, hab, hb, rfl, -, -, -, ha', hb'⟩ := mem_readList hq
  obtain rfl : u = v := unitPlace_injective (Nat.le_of_lt hu) (Nat.le_of_lt hv') hon.1
  obtain ⟨hpart, hpart'⟩ := part_eq hS (f := w.f) (t := w.t) (u := u) (by omega) (by omega)
  refine ⟨a, b, q₀, hq, hv', hab, hb, fun heq => ?_, fun heq => ?_⟩
  · rw [ha', hpart, if_pos heq]
  · rw [hb', hpart', if_pos heq]

/-- **A length that is negative**, where the parts do not meet. -/
theorem Rebuilt.negative (h : Rebuilt w r lo hi g reqs mem) (hclear : ¬ Clear p w.f w.t w.d) :
    ∃ call ∈ rebuildCalls p reqs r, call.numBytes < 0 := by
  have hB := p.bytesPerSector_pos
  have hlost := h.lost
  have hlt := hlost.lt
  obtain ⟨hstart, hlen, hoff⟩ := hlost.request_eq
  obtain ⟨hd, hne, hgap⟩ : (w.d = w.f / p.sectorsPerStripeUnit ∨ w.d = (w.t - 1) / p.sectorsPerStripeUnit) ∧
      w.f / p.sectorsPerStripeUnit ≠ (w.t - 1) / p.sectorsPerStripeUnit ∧
        (w.t - 1) % p.sectorsPerStripeUnit + 1 < w.f % p.sectorsPerStripeUnit := by
    rw [Clear] at hclear
    omega
  -- the request at the other end of the range
  obtain ⟨v, hv, hvd⟩ : ∃ v, (v = w.f / p.sectorsPerStripeUnit ∨ v = (w.t - 1) / p.sectorsPerStripeUnit) ∧ v ≠ w.d := by
    rcases hd with hd | hd
    · exact ⟨_, .inr rfl, by omega⟩
    · exact ⟨_, .inl rfl, by omega⟩
  obtain ⟨a, b, q, hq, hvn, hab, hb, ha', hb'⟩ := readList_end hv
  have hmeet : b < lo ∨ hi < a := by
    have hlo := hlost.lo_eq
    have hhi := hlost.hi_eq
    obtain ⟨hpart, hpart'⟩ := part_eq p.sectors_pos (f := w.f) (t := w.t) (u := w.d) (by omega) (by omega)
    rw [hpart] at hlo
    rw [hpart'] at hhi
    rcases hd with hd | hd
    · rw [if_pos hd] at hlo
      omega
    · rw [if_pos hd] at hhi
      omega
  have hnot : ¬ OnUnit p w.k w.d (unitRequest p w.k .read v a b q) := mt (onUnit_unitRequest (Nat.le_of_lt hvn)).1 hvd
  refine ⟨_, mem_filterMap.2 ⟨(unitRequest p w.k .read v a b q).done, ?_, if_pos (ok_done _)⟩, ?_⟩
  · rw [h.reqs_eq, ← h.kept _ hq hnot]
    exact mem_append_left _ (mem_map.2 ⟨_, hq, rfl⟩)
  · have hso : (unitRequest p w.k .read v a b q).done.startAddress = p.height w.k * p.bytesPerStripeUnit + a * p.bytesPerSector :=
      (unitRequest_start : (unitRequest p w.k .read v a b q).startAddress = _)
    have hlen' : (unitRequest p w.k .read v a b q).done.bufferLen = (b - a) * p.bytesPerSector :=
      (unitRequest_len : (unitRequest p w.k .read v a b q).bufferLen = _)
    have ha : a * p.bytesPerSector < p.bytesPerStripeUnit := by
      rw [bytesPerStripeUnit_eq]
      exact Nat.mul_lt_mul_of_pos_right (by omega) hB
    have hro : p.stripeUnitOffset r.startAddress < p.bytesPerStripeUnit := Nat.mod_lt _ p.bytesPerStripeUnit_pos
    rw [xorRangeRequest_eq hso ha hro, hlen', hlen, hoff, sectorToByte_eq,
      sectorToByte_eq, Nat.sub_mul, Nat.sub_mul]
    have hab' : a * p.bytesPerSector < b * p.bytesPerSector := Nat.mul_lt_mul_of_pos_right hab hB
    have hlohi : lo * p.bytesPerSector < hi * p.bytesPerSector := Nat.mul_lt_mul_of_pos_right hlt hB
    simp only
    rcases hmeet with hmeet | hmeet
    · have := Nat.mul_lt_mul_of_pos_right hmeet hB
      omega
    · have := Nat.mul_lt_mul_of_pos_right hmeet hB
      omega

/-- What a read is to leave: the range in the buffer when it succeeds, and sound calls. -/
def Task.ReadRight (w : Task p) (io : StripeIo) : Prop := (io.status = .done 0 → w.Got io.mem) ∧ ∀ call ∈ io.xors, call.Inside

theorem Task.Got.of_fail (h : w.fail.Got mem) : w.Got mem := by
  intro u hu o ho hw
  exact (h u hu o ho hw).trans (fail_old (Nat.le_of_lt hu) ho)

theorem readRight_of_waiting {proc : DoneProc} (hstatus : io.status = .waiting proc) (hxors : io.xors = []) : w.ReadRight io := by
  refine ⟨fun hdone => (nomatch hstatus.symm.trans hdone), fun call hcall => ?_⟩
  rw [hxors] at hcall
  nomatch hcall

theorem Rebuilding.run (h : Rebuilding w io g r lo hi) (hclear : Clear p w.f w.t w.d)
    (houts : ∀ out ∈ outs, w.OnlyLoses out) : w.ReadRight (io.run p outs) := by
  cases outs with
  | nil => exact readRight_of_waiting h.status h.base.xors
  | cons out outs =>
    have hout := houts out mem_cons_self
    obtain ⟨hdone, hxors, hmem⟩ := h.step_eq hout
    have hrebuilt := h.rebuilt hout
    rw [StripeIo.run, foldl_cons, ← StripeIo.run, run_done hdone, Task.ReadRight, hxors, hmem]
    exact ⟨fun _ => hrebuilt.got hclear _, hrebuilt.inside hclear⟩

/-- **Every run of a read** of a clear range. -/
theorem read_run (h : Reading w io ∨ ∃ g r lo hi, Rebuilding w io g r lo hi) (hclear : Clear p w.f w.t w.d)
    (houts : ∀ out ∈ outs, w.OnlyLoses out) : w.ReadRight (io.run p outs) := by
  rcases h with hreading | ⟨g, r, lo, hi, hrebuilding⟩
  · cases outs with
    | nil => exact readRight_of_waiting hreading.status hreading.base.xors
    | cons out outs =>
      obtain ⟨hout, hrest⟩ := forall_mem_cons.1 houts
      rw [StripeIo.run, foldl_cons, ← StripeIo.run]
      rcases hreading.step hout with ⟨hdone, hxors, hgot, -⟩ | ⟨w', g, r, lo, hi, rfl | rfl, hrebuilding⟩
      · rw [run_done hdone, Task.ReadRight, hxors]
        exact ⟨fun _ => hgot, fun call hcall => by cases hcall⟩
      · exact hrebuilding.run hclear hrest
      · obtain ⟨hgot, hinside⟩ := hrebuilding.run hclear fun out hmem => ⟨(hrest out hmem).requests, (hrest out hmem).disks⟩
        exact ⟨fun hdone => (hgot hdone).of_fail, hinside⟩
  · exact hrebuilding.run hclear houts

/-- Every request for the disk of unit `d` fails. -/
def loseDisk (p : Params) (k d : Nat) : Outcome where
  fails r := r.col = (p.unitPlace k d).col ∧ r.row = (p.unitPlace k d).row
  leaves _ _ := 0
  last _ := false
  failDisk _ _ := false

theorem loseDisk_fails {k d : Nat} {q : BlockRequest} : (loseDisk p k d).fails q = true ↔ OnUnit p k d q := decide_eq_true_iff

theorem loseDisk_onlyLoses (w : Task p) : w.OnlyLoses (loseDisk p w.k w.d) :=
  ⟨fun _ hfails => loseDisk_fails.1 hfails, fun _ _ => nofun⟩

/-- **A range that is not clear** is read with a negative length when the disk is lost. -/
theorem read_negative (h : Reading w io ∨ ∃ g r lo hi, Rebuilding w io g r lo hi) (hclear : ¬ Clear p w.f w.t w.d) :
    ∃ call ∈ (io.run p [loseDisk p w.k w.d, loseDisk p w.k w.d]).xors, call.numBytes < 0 := by
  have hlose := loseDisk_onlyLoses w
  show ∃ call ∈ ((io.step p (loseDisk p w.k w.d)).step p (loseDisk p w.k w.d)).xors, call.numBytes < 0
  rcases h with hreading | ⟨g, r, lo, hi, hrebuilding⟩
  · rcases hreading.step hlose with ⟨-, -, -, hok⟩ | ⟨w', g, r, lo, hi, hw', hrebuilding⟩
    · have hend : w.d = w.f / p.sectorsPerStripeUnit ∨ w.d = (w.t - 1) / p.sectorsPerStripeUnit := by
        rw [Clear] at hclear
        omega
      obtain ⟨a, b, q, hq, -⟩ := readList_end hend
      have hfails : (loseDisk p w.k w.d).fails ((unitRequest p w.k .read w.d a b q).mark p w.disks) = true :=
        loseDisk_fails.2 ⟨rfl, rfl⟩
      rw [hok _ hq] at hfails
      nomatch hfails
    · have hout : w'.OnlyLoses (loseDisk p w.k w.d) := by rcases hw' with rfl | rfl <;> exact ⟨hlose.requests, hlose.disks⟩
      obtain ⟨-, hxors, -⟩ := hrebuilding.step_eq hout
      rw [hxors]
      apply (hrebuilding.rebuilt hout).negative
      rcases hw' with rfl | rfl <;> exact hclear
  · obtain ⟨hdone, hxors, -⟩ := hrebuilding.step_eq hlose
    have hstep : ∀ io' : StripeIo, io'.status = .done 0 → io'.step p (loseDisk p w.k w.d) = io' := fun io' hd => by
      rw [StripeIo.step, hd]
    rw [hstep _ hdone, hxors]
    exact (hrebuilding.rebuilt hlose).negative hclear

end clear

/-- Of all that happens, only disk `d` of the stripe fails a request or is failed. -/
structure LosesDisk (p : Params) (k d : Nat) (out : Outcome) : Prop where
  requests : ∀ r, out.fails r = true → OnUnit p k d r
  disks : ∀ col row, out.failDisk col row = true → col = (p.unitPlace k d).col ∧ row = (p.unitPlace k d).row

/-- A read that succeeds leaves the range's contents in the buffer, and every call of `Xor2` stays inside its
    buffers. -/
def ReadRight (p : Params) (k f t : Nat) (disks : Disks) (io : StripeIo) : Prop :=
  (io.status = .done 0 →
    ∀ u < p.numDataCol, ∀ s < p.sectorsPerStripeUnit, f ≤ u * p.sectorsPerStripeUnit + s → u * p.sectorsPerStripeUnit + s < t →
      ∀ i < p.bytesPerSector,
        io.mem .user (p.sectorToByte (u * p.sectorsPerStripeUnit + s - f) + i : Nat) = logical p disks k u (p.sectorToByte s + i)) ∧
    ∀ call ∈ io.xors, call.Inside

/-- `InitiateStripeRead` of a range, up to its end or before it. -/
def readStripe (p : Params) (k f t : Nat) (address : Buf → Int) (mem : Mem) (disks : Disks) (outs : List Outcome) : StripeIo :=
  ((StripeIo.make (k * p.dataSectorsPerStripe + f) (k * p.dataSectorsPerStripe + t) address mem disks).initiateStripeRead p).run p outs

/-- Two data disks and one of parity, with three sectors in a unit. -/
def longUnits : Params where
  geometry :=
    { numRow := 1
      numCol := 3
      sectorsPerStripeUnit := 3
      stripeUnitsPerDisk := 2
      parityConfig := 'R'
      numRow_pos := Nat.one_pos
      numCol_two := two_le_three
      sectors_pos := three_pos
      units_pos := Nat.two_pos
      numRow_int := one_int
      numCol_int := three_int
      sectors_int := three_int
      units_int := two_int }
  logBytesPerSector := 9
  withParity := rotated

theorem firstLost_oneLost : OneLost longUnits firstLost 0 0 := by
  refine ⟨fun u _ => ?_, by decide⟩
  rw [firstLost]
  split
  · exact ⟨fun h => absurd h (Nat.lt_irrefl 0), Nat.dvd_zero _⟩
  · exact ⟨fun _ => rfl, ⟨2, rfl⟩⟩

theorem losesDisk_nothingFails (p : Params) (k d : Nat) : LosesDisk p k d nothingFails := ⟨fun _ => nofun, fun _ _ => nofun⟩

end SpriteKernel.DevRaid.Initiate
