import SpriteKernel.DevRaid.StripeWrite

/- The runs of a stripe write. Before the write the requests are those of a `Plan` (`Planned`), whichever algorithm
   made it after whatever failure, or the write has failed, the disks as they were. In the write phase (`Writing`)
   every unit that changes has a request with its new contents. -/
namespace SpriteKernel.DevRaid.Initiate
open Striping Parity Finset Params

/-- The fields that do not change before the write phase. -/
structure Base {p : Params} (w : Task p) (io : StripeIo) : Prop where
  first : io.firstSector = w.k * p.dataSectorsPerStripe + w.f
  nth : io.nthSector = w.k * p.dataSectorsPerStripe + w.t
  buffer : io.buffer = ⟨.user, 0⟩
  readBuf : io.readBuf = ⟨.readBuf, 0⟩
  parityBuf : io.parityBuf = ⟨.parityBuf, 0⟩
  user : ∀ off, io.mem .user off = w.user off
  disks : io.disks = w.disks

structure Planned {p : Params} (w : Task p) (io : StripeIo) : Prop where
  base : Base w io
  status : io.status = .waiting .oldInfoRead
  plan : ∃ rs rn l, Plan w rs rn l ∧ io.reqControl.reqs = l.map (BlockRequest.mark p w.disks) ∧
    (∀ r ∈ l, r.Valid p w.disks) ∧ p.stripeUnitOffset io.rangeOff = p.sectorToByte rs ∧ io.rangeLen = p.sectorToByte rn ∧
      (io.recoverProc = .stripeIOFailure ∨ (rn = p.sectorsPerStripeUnit → ∀ r ∈ l, AtEnd p w.k r))

/-- The write has failed, and has not written. -/
structure Failed {p : Params} (w : Task p) (io : StripeIo) : Prop where
  status : ∃ m, io.status = .done m ∧ m ≠ 0
  disks : io.disks = w.disks

def Before {p : Params} (w : Task p) (io : StripeIo) : Prop := Planned w io ∨ Failed w io

section sectors
variable {p : Params}

theorem sectorToByte_add (a b : Nat) : p.sectorToByte a + p.sectorToByte b = p.sectorToByte (a + b) := by
  rw [sectorToByte_eq, sectorToByte_eq, sectorToByte_eq, Nat.add_mul]

theorem sectorToByte_sub (a b : Nat) : p.sectorToByte a - p.sectorToByte b = p.sectorToByte (a - b) := by
  rw [sectorToByte_eq, sectorToByte_eq, sectorToByte_eq, Nat.sub_mul]

theorem sectorToByte_inj {a b : Nat} : p.sectorToByte a = p.sectorToByte b ↔ a = b := by
  rw [sectorToByte_eq, sectorToByte_eq]
  exact Nat.mul_left_inj (Nat.ne_of_gt p.bytesPerSector_pos)

theorem rangeSectors_eq {ro rs : Nat} (h : p.stripeUnitOffset ro = p.sectorToByte rs) :
    p.byteToSector (p.stripeUnitOffset ro) = rs := by
  rw [h, byteToSector_sectorToByte]

theorem stripeUnitOffset_unit (k : Nat) {lo : Nat} (h : lo < p.sectorsPerStripeUnit) :
    p.stripeUnitOffset (p.sectorToByte (p.height k * p.sectorsPerStripeUnit + lo)) = p.sectorToByte lo := by
  rw [stripeUnitOffset_sectorToByte, Nat.mul_add_mod_of_lt h]

end sectors

section initiate
variable {p : Params} {w : Task p} {io : StripeIo} {rs rn : Nat}

theorem Task.f_lt_data (w : Task p) : w.f < p.dataSectorsPerStripe := Nat.lt_of_lt_of_le w.f_lt w.t_le

variable {ro rl : Nat}

theorem Base.addRest (h : Base w io) (hro : p.stripeUnitOffset ro = p.sectorToByte rs)
    (hrl : rl = p.sectorToByte rn) (rc : RequestControl) :
    io.addRest p ro rl rc = addRequests p w.disks rc (restList w rs rn) := by
  have hf := w.f_lt_data
  have hsub : w.k * p.dataSectorsPerStripe + w.f - w.k * p.dataSectorsPerStripe = w.f := by omega
  rw [StripeIo.addRest, h.first, h.nth, h.readBuf, h.disks, Params.firstSectorOfStripe_eq hf, Params.nthSectorOfStripe_eq hf,
    hsub, hrl, addDataRangeRequests_eq (Nat.le_refl _), addDataRangeRequests_first (Nat.le_of_lt hf), ← addRequests_append,
    rangeSectors_eq hro, byteToSector_sectorToByte]
  rfl

theorem Base.addWritten (h : Base w io) (hro : p.stripeUnitOffset ro = p.sectorToByte rs)
    (hrl : rl = p.sectorToByte rn) (buffer : Ptr) (rc : RequestControl) :
    addDataRangeRequests p io.disks .read io.firstSector io.nthSector buffer ro rl rc =
      addRequests p w.disks rc (dataList p w.k w.f w.t buffer rs rn) := by
  rw [h.first, h.nth, h.disks, hrl, addDataRangeRequests_eq w.t_le, rangeSectors_eq hro, byteToSector_sectorToByte]
  rfl

theorem Base.addParity (h : Base w io) (hro : p.stripeUnitOffset ro = p.sectorToByte rs)
    (hrl : rl = p.sectorToByte rn) (rc : RequestControl) :
    addParityRangeRequest p io.disks .read io.firstSector io.parityBuf ro rl rc =
      addRequests p w.disks rc (parityList w rs rn) := by
  rw [h.first, h.parityBuf, h.disks, hrl, addParityRangeRequest_eq w.f_lt_data, rangeSectors_eq hro,
    byteToSector_sectorToByte]
  rfl

variable {l : List BlockRequest} {rc : RequestControl}

theorem Base.planned (h : Base w io) (hplan : Plan w rs rn l)
    (hreqs : io.reqControl = addRequests p w.disks rc.reset l) (hzero : io.reqControl.numFailed = 0)
    (hro : p.stripeUnitOffset io.rangeOff = p.sectorToByte rs) (hrl : io.rangeLen = p.sectorToByte rn)
    (hend : io.recoverProc = .stripeIOFailure ∨ (rn = p.sectorsPerStripeUnit → ∀ r ∈ l, AtEnd p w.k r)) :
    Planned w (io.initiateIORequests .oldInfoRead) where
  base := ⟨h.first, h.nth, h.buffer, h.readBuf, h.parityBuf, h.user, h.disks⟩
  status := rfl
  plan := by
    refine ⟨rs, rn, l, hplan, ?_, ?_, hro, hrl, hend⟩
    · show io.reqControl.reqs = _
      rw [hreqs, addRequests_reqs]
      rfl
    · rw [hreqs] at hzero
      exact (numFailed_eq_zero rfl).1 hzero

theorem Base.failed (h : Base w io) : Failed w io.initiateStripeIOFailure := ⟨⟨2, rfl, by decide⟩, h.disks⟩

/-- The two ranges of a split write, where the request that has failed is at an end of
    its unit. -/
theorem split_ranges {S fs fn : Nat} (hpos : 0 < fn) (hlt : fn < S) (hend : fs = 0 ∨ fs + fn = S) :
    (fs + fn) % S + (S - fn) ≤ S ∧
      ∀ s < S, (fs ≤ s ∧ s < fs + fn) ↔ ¬ ((fs + fn) % S ≤ s ∧ s < (fs + fn) % S + (S - fn)) := by
  rcases hend with rfl | hend
  · rw [Nat.zero_add, Nat.mod_eq_of_lt hlt]
    exact ⟨by omega, fun s hs => by omega⟩
  · rw [hend, Nat.mod_self]
    exact ⟨by omega, fun s hs => by omega⟩

theorem mod_sector (a : Nat) : p.stripeUnitOffset (p.sectorToByte a) = p.sectorToByte (a % p.sectorsPerStripeUnit) :=
  stripeUnitOffset_sectorToByte a

theorem Base.split (h : Base w io) (fs fn : Nat) (hpos : 0 < fn) (hlt : fn < p.sectorsPerStripeUnit)
    (hend : fs = 0 ∨ fs + fn = p.sectorsPerStripeUnit) {off len : Nat} (hoff : off = p.sectorToByte fs)
    (hlen : len = p.sectorToByte fn) :
    let rangeOff := p.stripeUnitOffset (off + len)
    let rangeLen := p.bytesPerStripeUnit - len
    let io' := { io with recoverProc := .stripeIOFailure, rangeOff := 0, rangeLen := p.bytesPerStripeUnit }
    let rc := io'.addRest p off len io'.reqControl.reset
    let rc := addDataRangeRequests p io'.disks .read io'.firstSector io'.nthSector
      (io'.readBuf.add (p.sectorToByte (p.dataSectorsPerStripe - (io'.nthSector - io'.firstSector)))) rangeOff rangeLen rc
    let rc := addParityRangeRequest p io'.disks .read io'.firstSector io'.parityBuf rangeOff rangeLen rc
    Before w
      (if rc.numFailed = 0 then { io' with reqControl := rc }.initiateIORequests .oldInfoRead
      else { io' with reqControl := rc }.initiateStripeIOFailure) := by
  intro rangeOff rangeLen io' rc₁ rc₂ rc₃
  have hbase : Base w io' := ⟨h.first, h.nth, h.buffer, h.readBuf, h.parityBuf, h.user, h.disks⟩
  have hfs : fs < p.sectorsPerStripeUnit := by omega
  have hro : p.stripeUnitOffset off = p.sectorToByte fs := by rw [hoff, mod_sector, Nat.mod_eq_of_lt hfs]
  have hRO : p.stripeUnitOffset rangeOff = p.sectorToByte ((fs + fn) % p.sectorsPerStripeUnit) := by
    show p.stripeUnitOffset (p.stripeUnitOffset (off + len)) = _
    rw [hoff, hlen, sectorToByte_add, mod_sector, mod_sector, Nat.mod_mod]
  have hRL : rangeLen = p.sectorToByte (p.sectorsPerStripeUnit - fn) := by
    show p.sectorToByte p.sectorsPerStripeUnit - len = _
    rw [hlen, sectorToByte_sub]
  obtain ⟨hle, hsplit⟩ := split_ranges hpos hlt hend
  have hrc : rc₃ = addRequests p w.disks io.reqControl.reset
      (restList w fs fn ++
        dataList p w.k w.f w.t
          ((⟨.readBuf, 0⟩ : Ptr).add (p.sectorToByte (p.dataSectorsPerStripe - (w.t - w.f))))
          ((fs + fn) % p.sectorsPerStripeUnit) (p.sectorsPerStripeUnit - fn) ++
        parityList w ((fs + fn) % p.sectorsPerStripeUnit) (p.sectorsPerStripeUnit - fn)) := by
    have hsub : io'.nthSector - io'.firstSector = w.t - w.f := by
      rw [hbase.first, hbase.nth]
      omega
    show addParityRangeRequest p io'.disks .read io'.firstSector io'.parityBuf rangeOff rangeLen rc₂ = _
    rw [hbase.addParity hRO hRL, addRequests_append, addRequests_append]
    congr 1
    show addDataRangeRequests p io'.disks .read io'.firstSector io'.nthSector _ rangeOff rangeLen rc₁ = _
    rw [hbase.addWritten hRO hRL, hsub, hbase.readBuf]
    congr 1
    exact hbase.addRest hro hlen _
  have hbase' : Base w { io' with reqControl := rc₃ } :=
    ⟨h.first, h.nth, h.buffer, h.readBuf, h.parityBuf, h.user, h.disks⟩
  split
  · rename_i hzero
    refine .inl (hbase'.planned (plan_split hle hsplit) hrc hzero ?_ rfl (.inl rfl))
    show 0 % _ = p.sectorToByte 0
    rw [Nat.zero_mod, sectorToByte_eq, Nat.zero_mul]
  · exact .inr hbase'.failed

variable {r : BlockRequest}

/-- **`InitiateSplitStripeWrite`** after any failed request at the end of a unit. -/
theorem Base.initiateSplit (h : Base w io) (hr : AtEnd p w.k r) (hne : r.bufferLen ≠ p.bytesPerStripeUnit) :
    Before w (io.initiateSplitStripeWrite p r) := by
  obtain ⟨lo, hi, hlt, hhi, hstart, hlen, hend⟩ := hr
  have hne' : hi - lo ≠ p.sectorsPerStripeUnit := by
    intro heq
    rw [hlen, heq] at hne
    exact hne rfl
  have hoff : p.stripeUnitOffset r.startAddress = p.sectorToByte lo := by
    rw [hstart]
    exact stripeUnitOffset_unit w.k (by omega)
  rw [StripeIo.initiateSplitStripeWrite]
  by_cases hproc : io.recoverProc = .readModifyWrite
  · simp only [if_pos hproc]
    refine h.split (hi % p.sectorsPerStripeUnit) (p.sectorsPerStripeUnit - (hi - lo)) (by omega) (by omega) ?_ ?_ ?_
    · rcases hend with rfl | rfl
      · rw [Nat.mod_eq_of_lt (by omega)]
        omega
      · left
        exact Nat.mod_self _
    · rw [hoff, hlen, sectorToByte_add, mod_sector]
      congr 2
      omega
    · rw [hlen]
      exact sectorToByte_sub _ _
  · simp only [if_neg hproc]
    exact h.split lo (hi - lo) (by omega) (by omega) (by omega) hoff hlen

/-- What a procedure that `recoverProc` may be does. -/
def Recovers (w : Task p) (call : RecoverProc → StripeIo → StripeIo) : Prop :=
  ∀ proc io, Base w io → Before w (call proc io)

variable {call : RecoverProc → StripeIo → StripeIo}

theorem Base.recover (h : Base w io) (hcall : Recovers w call) (hr : io.rangeLen = p.bytesPerStripeUnit → AtEnd p w.k r) : Before w (io.recover p call r) := by
  rw [StripeIo.recover]
  split
  · rename_i hsplit
    exact h.initiateSplit (hr hsplit.1) hsplit.2.1
  · exact hcall _ _ ⟨h.first, h.nth, h.buffer, h.readBuf, h.parityBuf, h.user, h.disks⟩

/-- The requests of a plan have been added: they go on, or one of them is not valid. -/
theorem Base.added (h : Base w io) (hplan : Plan w rs rn l) (hreqs : io.reqControl = addRequests p w.disks rc.reset l)
    (hro : p.stripeUnitOffset io.rangeOff = p.sectorToByte rs) (hrl : io.rangeLen = p.sectorToByte rn)
    (hend : rn = p.sectorsPerStripeUnit → ∀ r ∈ l, AtEnd p w.k r) {k : BlockRequest → StripeIo}
    (hk : ∀ r, (io.rangeLen = p.bytesPerStripeUnit → AtEnd p w.k r) → Before w (k r)) :
    Before w
      (match io.reqControl.numFailed, io.reqControl.failedReq with
      | 0, _ => io.initiateIORequests .oldInfoRead
      | _, none => io
      | _, some r => k r) := by
  by_cases hzero : io.reqControl.numFailed = 0
  · rw [hzero]
    exact .inl (h.planned hplan hreqs hzero hro hrl (.inr hend))
  · have hinvalid : ∃ r ∈ l, ¬ r.Valid p w.disks := by
      by_contra hall
      apply hzero
      rw [hreqs]
      refine (numFailed_eq_zero rfl).2 fun r hr => ?_
      by_contra hr'
      exact hall ⟨r, hr, hr'⟩
    obtain ⟨r, hr, -, hfailed⟩ := addRequests_failedReq rc.reset hinvalid
    rw [← hreqs] at hfailed
    obtain ⟨m, hm⟩ := Nat.exists_eq_succ_of_ne_zero hzero
    rw [hm, hfailed]
    apply hk
    intro hU
    have hS : rn = p.sectorsPerStripeUnit := sectorToByte_inj.1 (hrl.symm.trans hU)
    exact hend hS r hr

/-! `InitiateReconstructWrite`. -/

theorem stripe_unit (x : Nat) :
    p.sectorToStripeUnitID (w.k * p.dataSectorsPerStripe + x) = w.k * p.numDataCol + x / p.sectorsPerStripeUnit := by
  rw [Params.sectorToStripeUnitID, dataSectors_eq, ← Nat.mul_assoc, Nat.mul_comm _ p.sectorsPerStripeUnit,
    Nat.mul_add_div p.sectors_pos]

variable {u : Nat}

theorem Task.oneUnit (hf : u * p.sectorsPerStripeUnit ≤ w.f) (ht : w.t ≤ (u + 1) * p.sectorsPerStripeUnit) :
    w.Range (w.f - u * p.sectorsPerStripeUnit) (w.t - w.f) := by
  have hlt := w.f_lt
  rw [Nat.succ_mul] at ht
  refine ⟨by omega, by omega, fun v hv hv' => ?_⟩
  have huv : v = u := by
    rcases Nat.lt_trichotomy v u with h | h | h
    · have hle : (v + 1) * p.sectorsPerStripeUnit ≤ u * p.sectorsPerStripeUnit := Nat.mul_le_mul_right _ h
      omega
    · exact h
    · have hle : (u + 1) * p.sectorsPerStripeUnit ≤ v * p.sectorsPerStripeUnit := Nat.mul_le_mul_right _ h
      rw [Nat.succ_mul] at hle
      omega
  rw [huv, Nat.succ_mul]
  omega

theorem atEnd_restList (hrs : rs = 0) (hrn : rn = p.sectorsPerStripeUnit) (hr : r ∈ restList w rs rn) :
    AtEnd p w.k r := by
  have hfirst : ∀ u < p.numDataCol, (u + 1) * p.sectorsPerStripeUnit ≤ p.dataSectorsPerStripe :=
    fun u hu => Nat.mul_le_mul_right _ hu
  rcases List.mem_append.1 hr with hd | hd
  · obtain ⟨u, hu, lo, hi, q, hlt, -, -, hle, rfl, -, hlo, hhi⟩ := shape_dataList hd
    exact ⟨lo, hi, hlt, hle, rfl, rfl, .inl (by omega)⟩
  · obtain ⟨u, hu, lo, hi, q, hlt, -, -, hle, rfl, -, hlo, hhi⟩ := shape_dataList hd
    refine ⟨lo, hi, hlt, hle, rfl, rfl, .inr ?_⟩
    have := hfirst u hu
    rw [Nat.succ_mul] at this hhi
    omega

theorem wholeUnit_eq : p.stripeUnitOffset 0 = p.sectorToByte 0 ∧ p.bytesPerStripeUnit = p.sectorToByte p.sectorsPerStripeUnit := by
  refine ⟨?_, rfl⟩
  rw [Params.stripeUnitOffset, Nat.zero_mod, sectorToByte_eq, Nat.zero_mul]

theorem Base.reconstructRange (h : Base w io) : ∃ rs rn, w.Range rs rn ∧
    p.stripeUnitOffset (io.reconstructRange p).1 = p.sectorToByte rs ∧ (io.reconstructRange p).2 = p.sectorToByte rn := by
  have hlt := w.f_lt
  have hlast : w.k * p.dataSectorsPerStripe + w.t - 1 = w.k * p.dataSectorsPerStripe + (w.t - 1) := by omega
  rw [StripeIo.reconstructRange, h.first, h.nth, hlast, stripe_unit, stripe_unit]
  split
  · have hdiv := Nat.div_add_mod' w.f p.sectorsPerStripeUnit
    have hmod := Nat.mod_lt (w.t - 1) p.sectors_pos
    have hdiv' := Nat.div_add_mod' (w.t - 1) p.sectorsPerStripeUnit
    have hunit : (w.t - 1) / p.sectorsPerStripeUnit = w.f / p.sectorsPerStripeUnit := by omega
    rw [hunit] at hdiv'
    refine ⟨_, _, w.oneUnit (u := w.f / p.sectorsPerStripeUnit) (by omega) (by rw [Nat.succ_mul]; omega), ?_, ?_⟩
    · rw [mod_sector, Params.stripe_mod]
      congr 1
      omega
    · show p.sectorToByte _ = _
      congr 1
      omega
  · exact ⟨0, _, w.wholeRange, wholeUnit_eq⟩

theorem Base.reconstructWrite (h : Base w io) (hcall : Recovers w call) :
    Before w (io.initiateReconstructWrite p call) := by
  obtain ⟨rs, rn, hregion, hro, hrl⟩ := h.reconstructRange
  have hle := hregion.le
  obtain ⟨io', hio⟩ : ∃ io' : StripeIo, io' =
      { io with
        rangeOff := (io.reconstructRange p).1
        rangeLen := (io.reconstructRange p).2
        reqControl := io.addRest p (io.reconstructRange p).1 (io.reconstructRange p).2 io.reqControl.reset } := ⟨_, rfl⟩
  have hbase : Base w io' := by
    rw [hio]
    exact ⟨h.first, h.nth, h.buffer, h.readBuf, h.parityBuf, h.user, h.disks⟩
  have hreqs : io'.reqControl = addRequests p w.disks io.reqControl.reset (restList w rs rn) := by
    rw [hio]
    exact h.addRest hro hrl _
  have hadded := hbase.added (plan_reconstruct hregion) hreqs (by rw [hio]; exact hro) (by rw [hio]; exact hrl)
    (fun hrn r hr => atEnd_restList (by omega) hrn hr) (k := io'.recover p call) (fun r hr => hbase.recover hcall hr)
  rw [hio] at hadded
  exact hadded

/-! `InitiateReadModifyWrite`. -/

theorem dataList_one (hu : u < p.numDataCol) (hf : u * p.sectorsPerStripeUnit ≤ w.f)
    (ht : w.t ≤ (u + 1) * p.sectorsPerStripeUnit) (buffer : Ptr) :
    dataList p w.k w.f w.t buffer rs rn = (dataRequest p w.k .read w.f w.t buffer rs rn u).toList := by
  rw [dataList, filterMap_range_split (g := fun _ => none) hu]
  · simp
  · intro v hv
    have hle : (v + 1) * p.sectorsPerStripeUnit ≤ u * p.sectorsPerStripeUnit := Nat.mul_le_mul_right _ hv
    exact ⟨dataRequest_eq_none (.inl (by omega)), rfl⟩
  · rfl
  · intro v hv
    have hle : (u + 1) * p.sectorsPerStripeUnit ≤ v * p.sectorsPerStripeUnit := Nat.mul_le_mul_right _ hv
    exact dataRequest_eq_none (.inr (.inl (by omega)))

/-- A request of a read modify write is at the end of its unit, or the only one. -/
theorem atEnd_dataList {buffer : Ptr} (hr : r ∈ dataList p w.k w.f w.t buffer 0 p.sectorsPerStripeUnit) :
    AtEnd p w.k r ∨ dataList p w.k w.f w.t buffer 0 p.sectorsPerStripeUnit = [r] := by
  obtain ⟨u, hu, hreq⟩ := mem_dataList hr
  obtain ⟨lo, hi, hlt, hhi, heq, hlo, hhi'⟩ := dataRequest_some hreq
  by_cases hend : lo = 0 ∨ hi = p.sectorsPerStripeUnit
  · left
    rw [heq]
    exact ⟨lo, hi, hlt, hhi, rfl, rfl, hend⟩
  · right
    rw [Nat.succ_mul] at hhi'
    rw [dataList_one hu (by omega) (by rw [Nat.succ_mul]; omega), hreq]
    rfl

theorem written_dataRequest (hf : w.f < (u + 1) * p.sectorsPerStripeUnit) (ht : u * p.sectorsPerStripeUnit < w.t)
    (h : w.Range rs rn) (operation : Operation) (buffer : Ptr) :
    u < p.numDataCol ∧
      dataRequest p w.k operation w.f w.t buffer rs rn u =
        some
          (unitRequest p w.k operation u (max w.f (u * p.sectorsPerStripeUnit) - u * p.sectorsPerStripeUnit)
            (min w.t ((u + 1) * p.sectorsPerStripeUnit) - u * p.sectorsPerStripeUnit)
            (buffer.add (p.sectorToByte (max w.f (u * p.sectorsPerStripeUnit) - w.f)))) := by
  have hlt := w.f_lt
  obtain ⟨hlo, hhi⟩ := h.holds u hf ht
  constructor
  · by_contra hle
    have := Nat.mul_le_mul_right p.sectorsPerStripeUnit (Nat.not_lt.1 hle)
    have ht' := w.t_le
    rw [dataSectors_eq] at ht'
    omega
  · have hpos := p.sectors_pos
    have hsucc : u * p.sectorsPerStripeUnit < (u + 1) * p.sectorsPerStripeUnit := by
      rw [Nat.succ_mul]
      omega
    rw [dataRequest, Nat.max_eq_left hlo, Nat.min_eq_left hhi, if_pos]
    omega

theorem modifyRange_of_ne (h : ¬ ∃ r, l = [r]) :
    StripeIo.modifyRange p (l.map (BlockRequest.mark p w.disks)) = (0, p.bytesPerStripeUnit) := by
  match l with
  | [] => rfl
  | [r] => exact absurd ⟨r, rfl⟩ h
  | _ :: _ :: _ => rfl

theorem modifyRange_eq :
    ∃ rs rn, w.Range rs rn ∧
      p.stripeUnitOffset
          (StripeIo.modifyRange p
            ((dataList p w.k w.f w.t ⟨.readBuf, 0⟩ 0 p.sectorsPerStripeUnit).map (BlockRequest.mark p w.disks))).1 =
        p.sectorToByte rs ∧
      (StripeIo.modifyRange p
          ((dataList p w.k w.f w.t ⟨.readBuf, 0⟩ 0 p.sectorsPerStripeUnit).map (BlockRequest.mark p w.disks))).2 =
        p.sectorToByte rn ∧
      (rn = p.sectorsPerStripeUnit →
        ∀ r ∈ dataList p w.k w.f w.t ⟨.readBuf, 0⟩ 0 p.sectorsPerStripeUnit, AtEnd p w.k r) := by
  by_cases hone : ∃ r, dataList p w.k w.f w.t ⟨.readBuf, 0⟩ 0 p.sectorsPerStripeUnit = [r]
  · obtain ⟨r, hl⟩ := hone
    obtain ⟨u, hu, hreq⟩ := mem_dataList (hl ▸ List.mem_cons_self : r ∈ dataList p w.k w.f w.t ⟨.readBuf, 0⟩ 0 p.sectorsPerStripeUnit)
    obtain ⟨lo, hi, hlt, hhi, heq, hlo, hhi'⟩ := dataRequest_some hreq
    rw [hl]
    refine ⟨lo, hi - lo, ⟨by omega, by omega, fun v hv hv' => ?_⟩, ?_, ?_, fun hrn q hq => ?_⟩
    · have hv'' := (written_dataRequest hv hv' w.wholeRange .read ⟨.readBuf, 0⟩)
      have hmem := List.mem_filterMap.2 ⟨v, List.mem_range.2 hv''.1, hv''.2⟩
      rw [← dataList, hl] at hmem
      have hcol := congrArg BlockRequest.col (List.mem_singleton.1 hmem)
      rw [heq] at hcol
      have huv := Params.unitPlace_injective (Nat.le_of_lt hv''.1) (Nat.le_of_lt hu) hcol
      rw [huv]
      rw [Nat.succ_mul] at hhi' ⊢
      omega
    · rw [heq]
      exact stripeUnitOffset_unit w.k (by omega)
    · rw [heq]
      rfl
    · rw [List.mem_singleton.1 hq, heq]
      exact ⟨lo, hi, hlt, hhi, rfl, rfl, by omega⟩
  · refine ⟨0, _, w.wholeRange, ?_, ?_, fun _ r hr => ?_⟩
    · rw [modifyRange_of_ne hone]
      exact wholeUnit_eq.1
    · rw [modifyRange_of_ne hone]
      rfl
    · exact (atEnd_dataList hr).resolve_right fun hl => hone ⟨r, hl⟩

theorem Base.readModifyWrite (h : Base w io) (hcall : Recovers w call) :
    Before w (io.initiateReadModifyWrite p call) := by
  obtain ⟨rs, rn, hregion, hro, hrl, hend⟩ := modifyRange_eq (w := w)
  have hle := hregion.le
  have hdata : addDataRequests p io.disks .read io.firstSector io.nthSector io.readBuf io.reqControl.reset =
      addRequests p w.disks io.reqControl.reset (dataList p w.k w.f w.t ⟨.readBuf, 0⟩ 0 p.sectorsPerStripeUnit) := by
    rw [addDataRequests, h.addWritten wholeUnit_eq.1 wholeUnit_eq.2, h.readBuf]
  have hreqs : (addRequests p w.disks io.reqControl.reset
      (dataList p w.k w.f w.t ⟨.readBuf, 0⟩ 0 p.sectorsPerStripeUnit)).reqs =
        (dataList p w.k w.f w.t ⟨.readBuf, 0⟩ 0 p.sectorsPerStripeUnit).map (BlockRequest.mark p w.disks) := by
    rw [addRequests_reqs]
    rfl
  rw [StripeIo.initiateReadModifyWrite]
  simp only [hdata, hreqs]
  obtain ⟨range, hrange⟩ : ∃ range, range =
      StripeIo.modifyRange p ((dataList p w.k w.f w.t ⟨.readBuf, 0⟩ 0 p.sectorsPerStripeUnit).map (BlockRequest.mark p w.disks)) :=
    ⟨_, rfl⟩
  rw [← hrange] at hro hrl ⊢
  rw [h.addParity hro hrl, ← addRequests_append]
  obtain ⟨io', hio⟩ : ∃ io' : StripeIo, io' =
      { io with
        rangeOff := range.1
        rangeLen := range.2
        reqControl := addRequests p w.disks io.reqControl.reset
          (dataList p w.k w.f w.t ⟨.readBuf, 0⟩ 0 p.sectorsPerStripeUnit ++ parityList w rs rn) } := ⟨_, rfl⟩
  have hbase : Base w io' := by
    rw [hio]
    exact ⟨h.first, h.nth, h.buffer, h.readBuf, h.parityBuf, h.user, h.disks⟩
  have hadded := hbase.added (plan_modify hregion) (show io'.reqControl = addRequests p w.disks io.reqControl.reset _ by rw [hio])
    (by rw [hio]; exact hro)
    (by rw [hio]; exact hrl)
    (fun hrn r hr => by
      rcases List.mem_append.1 hr with hd | hp
      · exact hend hrn r hd
      · obtain ⟨hpos, rfl⟩ := shape_parityList hp
        exact ⟨rs, rs + rn, by omega, hle, rfl, rfl, by omega⟩)
    (k := fun r =>
      if io'.needsSplit p r then { io' with recoverProc := .stripeIOFailure }.initiateSplitStripeWrite p r
      else call io'.recoverProc { io' with recoverProc := .stripeIOFailure })
    (fun r hr => by
      have hbase' : Base w { io' with recoverProc := .stripeIOFailure } :=
        ⟨hbase.first, hbase.nth, hbase.buffer, hbase.readBuf, hbase.parityBuf, hbase.user, hbase.disks⟩
      split
      · rename_i hsplit
        exact hbase'.initiateSplit (hr hsplit.1) hsplit.2.1
      · exact hcall _ _ hbase')
  rw [hio] at hadded
  exact hadded

theorem recovers (n : Nat) : Recovers w (StripeIo.callRecover p n) := by
  induction n with
  | zero =>
    intro proc io h
    cases proc with
    | readModifyWrite => exact .inr h.failed
    | reconstructWrite => exact .inr h.failed
    | stripeIOFailure => exact .inr h.failed
  | succ n ih =>
    intro proc io h
    cases proc with
    | readModifyWrite => exact h.readModifyWrite ih
    | reconstructWrite => exact h.reconstructWrite ih
    | stripeIOFailure => exact .inr h.failed

end initiate

end SpriteKernel.DevRaid.Initiate
