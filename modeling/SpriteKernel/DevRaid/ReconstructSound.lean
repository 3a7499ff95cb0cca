import SpriteKernel.DevRaid.Reconstruct

/- What a reconstruction keeps beside the reads and writes of stripes (`Inv`): every stripe
   that is not locked is consistent, and of the one that is locked the unit that is to be
   written is in the buffer. -/
namespace SpriteKernel.DevRaid.Initiate
open Striping Parity Finset BlockRequest Params

section units
variable {p : Params} {k d col row : Nat} {disks disks' : Disks}

/-- Unit `d` of stripe `k` is on the disk that is reconstructed. -/
structure OnDisk (p : Params) (col row k d : Nat) : Prop where
  le : d ≤ p.numDataCol
  col_eq : (p.unitPlace k d).col = col
  row_eq : k % p.geometry.numRow = row

theorem exists_onDisk (hcol : col < p.geometry.numCol) (hrow : k % p.geometry.numRow = row) : ∃ d, OnDisk p col row k d := by
  obtain ⟨d, hd, hrot⟩ := exists_rot (k := k) hcol
  have hnum := p.numCol_eq
  exact ⟨d, by omega, hrot, hrow⟩

theorem unitPlace_col_lt {u : Nat} (hu : u ≤ p.numDataCol) : (p.unitPlace k u).col < p.geometry.numCol :=
  rot_lt (Params.unit_lt_numCol hu)

theorem OnDisk.col_ne (h : OnDisk p col row k d) {u : Nat} (hu : u ≤ p.numDataCol) (hne : u ≠ d) : (p.unitPlace k u).col ≠ col :=
  fun heq => hne (unitPlace_injective hu h.le (heq.trans h.col_eq.symm))

theorem consistent_of_invalid (hd : d ≤ p.numDataCol) (hvalid : ∀ u ≤ p.numDataCol, u ≠ d → UnitValid p disks k u)
    (h : ¬ UnitValid p disks k d) : Consistent p disks k := by
  intro o _
  refine codeword_of_others hd ?_
  rw [logical, if_neg h]
  apply others_congr
  intro v hv hvd
  rw [logical, if_pos (hvalid v hv hvd)]

theorem consistent_iff (hvalid : ∀ u ≤ p.numDataCol, UnitValid p disks k u) :
    Consistent p disks k ↔ ∀ o < p.bytesPerStripeUnit, Codeword p.numDataCol fun u => unitByte p disks k u o := by
  have hsame : ∀ o, (Codeword p.numDataCol fun u => logical p disks k u o) ↔ Codeword p.numDataCol fun u => unitByte p disks k u o := by
    intro o
    have hlogical : ∀ u ∈ range (p.numDataCol + 1), logical p disks k u o = unitByte p disks k u o :=
      fun u hu => if_pos (hvalid u (Nat.lt_succ_iff.1 (mem_range.1 hu)))
    rw [Codeword, Codeword, sum_congr rfl hlogical]
  exact ⟨fun h o ho => (hsame o).1 (h o ho), fun h o ho => (hsame o).2 (h o ho)⟩

/-- A stripe whose contents stay is consistent as before, also when the disk of a unit is
    failed. -/
theorem consistent_of_same (hd : d ≤ p.numDataCol) (hvalid : ∀ u ≤ p.numDataCol, u ≠ d → UnitValid p disks k u)
    (hvalid' : ∀ u ≤ p.numDataCol, u ≠ d → UnitValid p disks' k u) (hdvalid : UnitValid p disks' k d → UnitValid p disks k d)
    (hsame : ∀ u ≤ p.numDataCol, ∀ o < p.bytesPerStripeUnit, unitByte p disks' k u o = unitByte p disks k u o)
    (h : Consistent p disks k) : Consistent p disks' k := by
  by_cases hall : UnitValid p disks' k d
  · have hvalid₁ : ∀ u ≤ p.numDataCol, UnitValid p disks k u := by
      intro u hu
      by_cases hud : u = d
      · rw [hud]
        exact hdvalid hall
      · exact hvalid u hu hud
    have hvalid₂ : ∀ u ≤ p.numDataCol, UnitValid p disks' k u := by
      intro u hu
      by_cases hud : u = d
      · rw [hud]
        exact hall
      · exact hvalid' u hu hud
    rw [consistent_iff hvalid₁] at h
    rw [consistent_iff hvalid₂]
    intro o ho
    refine Eq.trans (sum_congr rfl fun u hu => ?_) (h o ho)
    exact hsame u (Nat.lt_succ_iff.1 (mem_range.1 hu)) o ho
  · exact consistent_of_invalid hd hvalid' hall

def wholeRequest (p : Params) (k u : Nat) : BlockRequest :=
  unitRequest p k .read u 0 p.sectorsPerStripeUnit
    (if u < p.numDataCol then ⟨.readBuf, u * p.bytesPerStripeUnit⟩ else ⟨.parityBuf, 0⟩)

/-- All units of the stripe. -/
def wholeList (p : Params) (k : Nat) : List BlockRequest := (List.range (p.numDataCol + 1)).map (wholeRequest p k)

theorem wholeList_eq (p : Params) (k : Nat) :
    dataList p k 0 p.dataSectorsPerStripe ⟨.readBuf, 0⟩ 0 p.sectorsPerStripeUnit ++
        (parityRequest p k .read ⟨.parityBuf, 0⟩ 0 p.sectorsPerStripeUnit).toList = wholeList p k := by
  have hS := p.sectors_pos
  rw [wholeList, List.range_succ, List.map_append, dataList]
  congr 1
  · rw [← List.filterMap_eq_map]
    apply List.filterMap_congr
    intro u hu
    have hu := List.mem_range.1 hu
    have hle : (u + 1) * p.sectorsPerStripeUnit ≤ p.dataSectorsPerStripe := Nat.mul_le_mul_right _ hu
    have hsucc : (u + 1) * p.sectorsPerStripeUnit = u * p.sectorsPerStripeUnit + p.sectorsPerStripeUnit := Nat.succ_mul _ _
    have hlo : max (max 0 (u * p.sectorsPerStripeUnit) - u * p.sectorsPerStripeUnit) 0 = 0 := by omega
    have hhi : min (min p.dataSectorsPerStripe ((u + 1) * p.sectorsPerStripeUnit) - u * p.sectorsPerStripeUnit)
        (0 + p.sectorsPerStripeUnit) = p.sectorsPerStripeUnit := by omega
    have hbuf : (⟨.readBuf, 0⟩ : Ptr).add (p.sectorToByte (max 0 (u * p.sectorsPerStripeUnit) - 0)) =
        ⟨.readBuf, u * p.bytesPerStripeUnit⟩ := by
      rw [Ptr.add, Nat.sub_zero, Nat.zero_max, Int.zero_add, Params.sectorToByte_eq, Nat.mul_assoc, ← Params.bytesPerStripeUnit_eq,
        Nat.cast_mul]
    rw [dataRequest, hlo, hhi, if_pos hS, hbuf]
    simp only [Function.comp, wholeRequest, if_pos hu]
  · rw [parityRequest, if_pos hS, Nat.zero_add]
    simp only [Option.toList_some, List.map_cons, List.map_nil, wholeRequest, if_neg (Nat.lt_irrefl _)]

theorem wholeRequest_start (u : Nat) : (wholeRequest p k u).startAddress = p.height k * p.bytesPerStripeUnit := by
  rw [wholeRequest, unitRequest_start, Nat.zero_mul, Nat.add_zero]

theorem wholeRequest_len (u : Nat) : (wholeRequest p k u).bufferLen = p.bytesPerStripeUnit := rfl

theorem wholeRequest_covers {u o : Nat} (ho : o < p.bytesPerStripeUnit) :
    (wholeRequest p k u).Covers (p.height k * p.bytesPerStripeUnit + o) := by
  rw [BlockRequest.Covers, wholeRequest_start, wholeRequest_len]
  omega

theorem wholeRequest_inUnit (u : Nat) : InUnit p (p.height k) (wholeRequest p k u) :=
  unitRequest_inUnit p.sectors_pos (Nat.le_refl _)

theorem wholeRequest_apart {u v : Nat} (hu : u ≤ p.numDataCol) (hv : v ≤ p.numDataCol) (h : u ≠ v) :
    Apart (wholeRequest p k u).buffer p.bytesPerStripeUnit (wholeRequest p k v).buffer p.bytesPerStripeUnit := by
  have hmul : ∀ a b : Nat, a < b → (a : Int) * p.bytesPerStripeUnit + p.bytesPerStripeUnit ≤ b * p.bytesPerStripeUnit := by
    intro a b hab
    have hle : (a + 1) * p.bytesPerStripeUnit ≤ b * p.bytesPerStripeUnit := Nat.mul_le_mul_right _ hab
    rw [Nat.succ_mul] at hle
    exact_mod_cast hle
  show Apart (if u < p.numDataCol then _ else _) _ (if v < p.numDataCol then _ else _) _
  by_cases hu' : u < p.numDataCol
  · by_cases hv' : v < p.numDataCol
    · rw [if_pos hu', if_pos hv']
      right
      rcases Nat.lt_or_gt_of_ne h with hlt | hlt
      · exact .inl (hmul u v hlt)
      · exact .inr (hmul v u hlt)
    · rw [if_pos hu', if_neg hv']
      exact .inl nofun
  · by_cases hv' : v < p.numDataCol
    · rw [if_neg hu', if_pos hv']
      exact .inl nofun
    · omega

def BlockRequest.inState (r : BlockRequest) (state : RequestState) : BlockRequest := { r with state := state }

/-- The units of the stripe, each in a state. -/
def stated (p : Params) (k : Nat) (state : Nat → RequestState) : List BlockRequest :=
  (List.range (p.numDataCol + 1)).map fun u => (wholeRequest p k u).inState (state u)

theorem mem_stated {state : Nat → RequestState} {r : BlockRequest} :
    r ∈ stated p k state ↔ ∃ u ≤ p.numDataCol, r = (wholeRequest p k u).inState (state u) := by
  rw [stated, List.mem_map]
  constructor
  · rintro ⟨u, hu, rfl⟩
    exact ⟨u, Nat.lt_succ_iff.1 (List.mem_range.1 hu), rfl⟩
  · rintro ⟨u, hu, rfl⟩
    exact ⟨u, List.mem_range.2 (Nat.lt_succ_iff.2 hu), rfl⟩

theorem stated_apart (state : Nat → RequestState) :
    (stated p k state).Pairwise fun r q => Apart r.buffer r.bufferLen q.buffer q.bufferLen := by
  rw [stated, List.pairwise_map]
  apply (List.nodup_range.imp_of_mem ?_)
  intro u v hu hv huv
  exact wholeRequest_apart (k := k) (Nat.lt_succ_iff.1 (List.mem_range.1 hu)) (Nat.lt_succ_iff.1 (List.mem_range.1 hv)) huv

/-- The states before the other units are read, and after. -/
def before (d u : Nat) : RequestState := if u = d then .invalid else .ready
def after (d u : Nat) : RequestState := if u = d then .invalid else .completed

theorem not_ok_after (r : BlockRequest) (d : Nat) : ¬ (r.inState (after d d)).Ok := by
  rw [after, if_pos rfl]
  rintro (h | h)
  · nomatch h
  · nomatch h

/-- **The unit is computed** from the others. -/
theorem computed_unit (hd : d ≤ p.numDataCol) {mem : Mem} {value : Nat → Nat → Byte}
    (hbytes : ∀ u ≤ p.numDataCol, u ≠ d → ∀ o < p.bytesPerStripeUnit,
      (wholeRequest p k u).byteAt mem (p.height k * p.bytesPerStripeUnit + o) = value u o) (address : Buf → Int) {o : Nat}
    (ho : o < p.bytesPerStripeUnit) :
    let r := wholeRequest p k d
    xorAll address (xorRangeRequests p (stated p k (after d)) r.buffer r.startAddress r.bufferLen)
        (mem.fill r.buffer r.bufferLen fun _ => 0) r.buffer.buf (r.buffer.off + o) =
      others p.numDataCol (fun u => value u o) d := by
  intro r
  have hU := p.bytesPerStripeUnit_pos
  have hoff : p.stripeUnitOffset r.startAddress = 0 := by
    rw [wholeRequest_start]
    exact Nat.mul_mod_left _ _
  have hreach : ∀ q ∈ stated p k (after d), q.Ok → Reaches p (p.height k) (p.stripeUnitOffset r.startAddress) r.bufferLen r.buffer q := by
    intro q hq hok
    obtain ⟨u, hu, rfl⟩ := mem_stated.1 hq
    have hne : u ≠ d := by
      rintro rfl
      exact not_ok_after _ _ hok
    have hin := wholeRequest_inUnit (p := p) (k := k) u
    refine ⟨⟨hin.pos, hin.first, hin.last⟩, ?_, ?_, wholeRequest_apart hu hd hne⟩
    · rw [hoff]
      show (wholeRequest p k u).startAddress ≤ _
      rw [wholeRequest_start]
      omega
    · rw [hoff]
      show _ ≤ (wholeRequest p k u).startAddress + _
      rw [wholeRequest_start]
      omega
  have hbyte : xorAll address (xorRangeRequests p (stated p k (after d)) r.buffer r.startAddress r.bufferLen)
      (mem.fill r.buffer r.bufferLen fun _ => 0) r.buffer.buf (r.buffer.off + o) = _ := xorRange_apply hU hreach ho
  have hzero : mem.fill r.buffer r.bufferLen (fun _ => 0) r.buffer.buf (r.buffer.off + o) = 0 :=
    if_pos ⟨rfl, by omega, by show _ < _ + (p.bytesPerStripeUnit : Int); omega⟩
  rw [hoff, hzero, zero_add, Nat.add_zero] at hbyte
  refine hbyte.trans ?_
  have hunits : stated p k (after d) =
      ((List.range (p.numDataCol + 1)).filterMap fun u => some ((wholeRequest p k u).inState (after d u))).map id := by
    rw [List.map_id, stated]
    exact (congrFun List.filterMap_eq_map' _).symm
  rw [hunits]
  refine Eq.trans (b := ∑ u ∈ range (p.numDataCol + 1), if u ≠ d then value u o else 0) (reqSum_units ?_ ?_) ?_
  · intro u hu q hq
    cases hq
    have hu := Nat.lt_succ_iff.1 hu
    refine ⟨⟨fun hok => ?_, fun hne => ⟨?_, (wholeRequest_covers ho : (wholeRequest p k u).Covers _)⟩⟩, fun hne => ?_⟩
    · rintro rfl
      exact not_ok_after _ _ hok.1
    · right
      exact if_neg hne
    · rw [← hbytes u hu hne o ho]
      exact if_neg ((wholeRequest_apart hu hd hne).not_inRange (wholeRequest_covers ho).inRange)
  · exact fun _ _ h => nomatch h
  · rw [others, ← sum_filter]
    apply sum_congr ?_ fun _ _ => rfl
    ext u
    rw [mem_filter, mem_erase, and_comm]

end units

section beside
variable {p : Params} {col row : Nat} {disks old new : Disks} {k d : Nat}

theorem OnDisk.valid_iff (h : OnDisk p col row k d) :
    UnitValid p disks k d ↔ (p.height k + 1) * p.sectorsPerStripeUnit ≤ (disks col row).numValidSector := by
  rw [UnitValid, h.col_eq, unitPlace_row, h.row_eq, unitPlace_sector, Disk.isValid, Nat.succ_mul]

theorem OnDisk.byte_eq (h : OnDisk p col row k d) (o : Nat) :
    unitByte p disks k d o = (disks col row).data (p.height k * p.bytesPerStripeUnit + o) := by
  rw [unitByte_eq, h.col_eq, unitPlace_row, h.row_eq]

def OthersValid (p : Params) (col row : Nat) (disks : Disks) : Prop :=
  ∀ c < p.geometry.numCol, c ≠ col → p.sectorsPerDisk ≤ (disks c row).numValidSector

theorem OthersValid.unit (h : OthersValid p col row disks) (hon : OnDisk p col row k d) (hk : p.height k < p.geometry.units) :
    ∀ u ≤ p.numDataCol, u ≠ d → UnitValid p disks k u := by
  intro u hu hne
  have hle : (p.height k + 1) * p.sectorsPerStripeUnit ≤ p.sectorsPerDisk := Nat.mul_le_mul_right _ hk
  have hvalid := h _ (unitPlace_col_lt hu) (hon.col_ne hu hne)
  rw [UnitValid, Disk.isValid, unitPlace_row, hon.row_eq, unitPlace_sector, ← Nat.succ_mul]
  exact Nat.le_trans hle hvalid

theorem height_ne {k' : Nat} (h : k % p.geometry.numRow = row) (h' : k' % p.geometry.numRow = row) (hne : k' ≠ k) :
    p.height k' ≠ p.height k := by
  intro heq
  apply hne
  rw [← Nat.div_add_mod k' p.geometry.numRow, ← Nat.div_add_mod k p.geometry.numRow, h, h']
  rw [Params.height, Params.height] at heq
  rw [heq]

/-- A byte of a unit at another height is not in the unit at height `b`. -/
theorem outside_unit {a b o U : Nat} (ho : o < U) (hne : a ≠ b) : a * U + o < b * U ∨ b * U + U ≤ a * U + o := by
  rcases Nat.lt_or_gt_of_ne hne with hlt | hlt
  · have hmul := Nat.mul_le_mul_right U (Nat.succ_le_of_lt hlt)
    rw [Nat.succ_mul] at hmul
    omega
  · have hmul := Nat.mul_le_mul_right U (Nat.succ_le_of_lt hlt)
    rw [Nat.succ_mul] at hmul
    omega

/-- Of a disk nothing is valid any more. -/
structure Disk.Lost (disk : Disk) : Prop where
  state : disk.state ≠ .ready
  valid : disk.numValidSector = 0
  saved : disk.saved = 0

theorem Disk.fail_lost (disk : Disk) (h : 0 < disk.numValidSector → disk.state = .ready) (hsaved : disk.saved ≤ disk.numValidSector) :
    disk.fail.Lost := by
  by_cases hready : disk.state = .ready
  · have heq : disk.fail = { disk with state := .failed, saved := 0, numValidSector := 0 } := if_pos hready
    rw [heq]
    exact ⟨nofun, rfl, rfl⟩
  · have heq : disk.fail = disk := if_neg hready
    have hzero : disk.numValidSector = 0 := Nat.eq_zero_of_not_pos fun hpos => hready (h hpos)
    rw [heq]
    exact ⟨hready, hzero, by omega⟩

/-- The row after an operation that writes at height `b` only, and may have failed the disk that is reconstructed. -/
structure Beside (p : Params) (col row b : Nat) (old new : Disks) : Prop where
  others : ∀ c < p.geometry.numCol, c ≠ col → Disk.SameHealth (old c row) (new c row)
  mine : Disk.SameHealth (old col row) (new col row) ∨ (new col row).Lost
  data : ∀ c < p.geometry.numCol, ∀ a, a < b * p.bytesPerStripeUnit ∨ b * p.bytesPerStripeUnit + p.bytesPerStripeUnit ≤ a →
    (new c row).data a = (old c row).data a

variable {b : Nat}

section
variable (h : Beside p col row b old new)
include h

theorem Beside.othersValid (hvalid : OthersValid p col row old) : OthersValid p col row new := by
  intro c hc hne
  rw [(h.others c hc hne).valid]
  exact hvalid c hc hne

theorem Beside.valid_le : (new col row).numValidSector ≤ (old col row).numValidSector := by
  rcases h.mine with hsame | hlost
  · exact Nat.le_of_eq hsame.valid
  · rw [hlost.valid]
    exact Nat.zero_le _

theorem Beside.ready (hready : (new col row).state = .ready) : Disk.SameHealth (old col row) (new col row) := by
  rcases h.mine with hsame | hlost
  · exact hsame
  · exact absurd hready hlost.state

theorem Beside.saved_le {n : Nat} (hle : (old col row).saved ≤ n) : (new col row).saved ≤ n := by
  rcases h.mine with hsame | hlost
  · rw [hsame.saved]
    exact hle
  · rw [hlost.saved]
    exact Nat.zero_le _

theorem Beside.sound (hsound : ∀ c < p.geometry.numCol, (old c row).Sound p) :
    ∀ c < p.geometry.numCol, (new c row).Sound p := by
  have hkeep : ∀ c < p.geometry.numCol, Disk.SameHealth (old c row) (new c row) → (new c row).Sound p := by
    intro c hc hsame
    refine ⟨fun hpos => ?_, ?_⟩
    · rw [hsame.valid] at hpos
      rw [hsame.state]
      exact (hsound c hc).ready hpos
    · rw [hsame.valid]
      exact (hsound c hc).aligned
  intro c hc
  by_cases hne : c = col
  · subst hne
    rcases h.mine with hsame | hlost
    · exact hkeep c hc hsame
    · refine ⟨fun hpos => ?_, ?_⟩
      · rw [hlost.valid] at hpos
        exact absurd hpos (Nat.lt_irrefl 0)
      · rw [hlost.valid]
        exact Nat.dvd_zero _
  · exact hkeep c hc (h.others c hc hne)

theorem Beside.byte_eq (hk : k % p.geometry.numRow = row) (hne : p.height k ≠ b) :
    ∀ u ≤ p.numDataCol, ∀ o < p.bytesPerStripeUnit, unitByte p new k u o = unitByte p old k u o := by
  intro u hu o ho
  rw [unitByte_eq, unitByte_eq, unitPlace_row, hk]
  exact h.data _ (unitPlace_col_lt hu) _ (outside_unit ho hne)

end

theorem consistent_row (hcol : col < p.geometry.numCol) (hvalid : OthersValid p col row old) (hvalid' : OthersValid p col row new)
    (hk : k % p.geometry.numRow = row) (hunits : p.height k < p.geometry.units)
    (hle : (p.height k + 1) * p.sectorsPerStripeUnit ≤ (new col row).numValidSector →
      (p.height k + 1) * p.sectorsPerStripeUnit ≤ (old col row).numValidSector)
    (hbytes : ∀ u ≤ p.numDataCol, ∀ o < p.bytesPerStripeUnit, unitByte p new k u o = unitByte p old k u o)
    (hcons : Consistent p old k) : Consistent p new k := by
  obtain ⟨d, hon⟩ := exists_onDisk hcol hk
  refine consistent_of_same hon.le (hvalid.unit hon hunits) (hvalid'.unit hon hunits) ?_ hbytes hcons
  rw [hon.valid_iff, hon.valid_iff]
  exact hle

theorem Beside.consistent (h : Beside p col row b old new) (hcol : col < p.geometry.numCol) (hvalid : OthersValid p col row old)
    (hk : k % p.geometry.numRow = row) (hunits : p.height k < p.geometry.units) (hne : p.height k ≠ b) (hcons : Consistent p old k) :
    Consistent p new k :=
  consistent_row hcol hvalid (h.othersValid hvalid) hk hunits (fun hle => Nat.le_trans hle h.valid_le) (h.byte_eq hk hne) hcons

theorem consistent_beyond (hcol : col < p.geometry.numCol) (hvalid : OthersValid p col row disks)
    (hk : k % p.geometry.numRow = row) (hunits : p.height k < p.geometry.units)
    (hle : (disks col row).numValidSector ≤ p.height k * p.sectorsPerStripeUnit) : Consistent p disks k := by
  obtain ⟨d, hon⟩ := exists_onDisk hcol hk
  refine consistent_of_invalid hon.le (hvalid.unit hon hunits) ?_
  have hpos := p.sectors_pos
  rw [hon.valid_iff, Nat.succ_mul]
  omega

end beside

def unitWrite (p : Params) (k d : Nat) : BlockRequest := { (wholeRequest p k d).inState .ready with operation := .write }

structure ReadWaits (p : Params) (col row : Nat) (s : Rebuild) (d : Nat) : Prop where
  disk : OnDisk p col row s.control.stripeID d
  units : p.height s.control.stripeID < p.geometry.units
  valid : (s.disks col row).numValidSector ≤ p.height s.control.stripeID * p.sectorsPerStripeUnit
  ready : (s.disks col row).state = .ready →
    (s.disks col row).numValidSector = p.height s.control.stripeID * p.sectorsPerStripeUnit
  reqs : s.control.reqControl.reqs = stated p s.control.stripeID (before d)
  failed : s.control.reqControl.failedReq = some ((wholeRequest p s.control.stripeID d).inState .invalid)

/-- The unit is written, and is taken to be valid already. -/
structure WriteWaits (p : Params) (col row : Nat) (s : Rebuild) (d : Nat) : Prop where
  disk : OnDisk p col row s.control.stripeID d
  units : p.height s.control.stripeID < p.geometry.units
  ready : (s.disks col row).state = .ready →
    (s.disks col row).numValidSector = (p.height s.control.stripeID + 1) * p.sectorsPerStripeUnit
  saved : (s.disks col row).saved ≤ p.height s.control.stripeID * p.sectorsPerStripeUnit
  reqs : s.control.reqControl.reqs = (List.range (p.numDataCol + 1)).map fun u =>
    if u = d then unitWrite p s.control.stripeID d else (wholeRequest p s.control.stripeID u).inState .completed
  bytes : ∀ o < p.bytesPerStripeUnit,
    s.control.mem (wholeRequest p s.control.stripeID d).buffer.buf ((wholeRequest p s.control.stripeID d).buffer.off + o) =
      others p.numDataCol (fun u => unitByte p s.disks s.control.stripeID u o) d

def Waits (p : Params) (col row : Nat) (s : Rebuild) : Prop :=
  match s.control.phase with
  | .reading => ∃ d, ReadWaits p col row s d
  | .writing => ∃ d, WriteWaits p col row s d
  | _ => True

/-- **The invariant** of a reconstruction. -/
structure Inv (p : Params) (col row : Nat) (s : Rebuild) : Prop where
  readBuf : s.control.readBuf = ⟨.readBuf, 0⟩
  parityBuf : s.control.parityBuf = ⟨.parityBuf, 0⟩
  sound : ∀ c < p.geometry.numCol, (s.disks c row).Sound p
  others : OthersValid p col row s.disks
  le : (s.disks col row).numValidSector ≤ p.sectorsPerDisk
  saved : (s.disks col row).saved ≤ (s.disks col row).numValidSector
  consistent : ∀ k, k % p.geometry.numRow = row → p.height k < p.geometry.units → s.control.locked ≠ some k →
    Consistent p s.disks k
  waits : Waits p col row s

section environment
variable {p : Params} {col row : Nat} {s : Rebuild} {disks : Disks}

/-- Another stripe's operation, or the disk's failure, keeps what the reconstruction waits for. -/
theorem Inv.beside (h : Inv p col row s) {b : Nat} (hbeside : Beside p col row b s.disks disks)
    (hcons : ∀ k, k % p.geometry.numRow = row → p.height k < p.geometry.units → s.control.locked ≠ some k → Consistent p disks k)
    (hlocked : ∀ k, s.control.locked = some k → k % p.geometry.numRow = row → ∀ u ≤ p.numDataCol, ∀ o < p.bytesPerStripeUnit,
      unitByte p disks k u o = unitByte p s.disks k u o) :
    Inv p col row { s with disks := disks } where
  readBuf := h.readBuf
  parityBuf := h.parityBuf
  sound := hbeside.sound h.sound
  others := hbeside.othersValid h.others
  le := Nat.le_trans hbeside.valid_le h.le
  saved := by
    rcases hbeside.mine with hsame | hlost
    · show (disks col row).saved ≤ (disks col row).numValidSector
      rw [hsame.saved, hsame.valid]
      exact h.saved
    · show (disks col row).saved ≤ _
      rw [hlost.saved]
      exact Nat.zero_le _
  consistent := hcons
  waits := by
    have hwaits := h.waits
    rw [Waits] at hwaits ⊢
    cases hphase : s.control.phase with
    | next => trivial
    | done b => trivial
    | reading =>
      rw [hphase] at hwaits
      obtain ⟨d, hd⟩ := hwaits
      refine ⟨d, hd.disk, hd.units, Nat.le_trans hbeside.valid_le hd.valid, fun hready => ?_, hd.reqs, hd.failed⟩
      have hsame := hbeside.ready hready
      exact hsame.valid.trans (hd.ready (hsame.state.symm.trans hready))
    | writing =>
      rw [hphase] at hwaits
      obtain ⟨d, hd⟩ := hwaits
      refine ⟨d, hd.disk, hd.units, fun hready => ?_, hbeside.saved_le hd.saved, hd.reqs, fun o ho => ?_⟩
      · have hsame := hbeside.ready hready
        exact hsame.valid.trans (hd.ready (hsame.state.symm.trans hready))
      · have hlock : s.control.locked = some s.control.stripeID := by rw [Reconstruction.locked, hphase]
        refine (hd.bytes o ho).trans (others_congr fun u hu _ => ?_).symm
        exact hlocked _ hlock hd.disk.row_eq u hu o ho

theorem Inv.failDisk (h : Inv p col row s) (hcol : col < p.geometry.numCol) :
    Inv p col row { s with disks := s.disks.set col row (s.disks col row).fail } := by
  have hmine : (s.disks.set col row (s.disks col row).fail) col row = (s.disks col row).fail := if_pos ⟨rfl, rfl⟩
  have hothers : ∀ c, c ≠ col → (s.disks.set col row (s.disks col row).fail) c row = s.disks c row :=
    fun c hne => if_neg fun heq => hne heq.1
  have hdata : ∀ c, ((s.disks.set col row (s.disks col row).fail) c row).data = (s.disks c row).data := by
    intro c
    by_cases hne : c = col
    · rw [hne, hmine, Disk.fail_data]
    · rw [hothers c hne]
  have hlost : (s.disks col row).fail.Lost := Disk.fail_lost _ (h.sound col hcol).ready h.saved
  have hbeside : ∀ b, Beside p col row b s.disks (s.disks.set col row (s.disks col row).fail) := by
    intro b
    refine ⟨fun c _ hne => ?_, .inr (hmine.symm ▸ hlost), fun c _ a _ => congrFun (hdata c) a⟩
    rw [hothers c hne]
    exact ⟨rfl, rfl, rfl⟩
  refine h.beside (hbeside 0) (fun k hk hunits hlocked => ?_) fun k _ hk u hu o ho => ?_
  · exact (hbeside (p.height k + 1)).consistent hcol h.others hk hunits (by omega) (h.consistent k hk hunits hlocked)
  · exact (hbeside (p.height k + 1)).byte_eq hk (by omega) u hu o ho

theorem Inv.sameRow (h : Inv p col row s) (hcol : col < p.geometry.numCol) (hrow : ∀ c, disks c row = s.disks c row) :
    Inv p col row { s with disks := disks } := by
  have hbeside : ∀ b, Beside p col row b s.disks disks := by
    intro b
    refine ⟨fun c _ _ => ?_, .inl ?_, fun c _ a _ => ?_⟩
    · rw [hrow]
      exact ⟨rfl, rfl, rfl⟩
    · rw [hrow]
      exact ⟨rfl, rfl, rfl⟩
    · rw [hrow]
  refine h.beside (hbeside 0) (fun k hk hunits hlocked => ?_) fun k _ hk u hu o ho => ?_
  · exact (hbeside (p.height k + 1)).consistent hcol h.others hk hunits (by omega) (h.consistent k hk hunits hlocked)
  · exact (hbeside (p.height k + 1)).byte_eq hk (by omega) u hu o ho

section operation
variable {k f t d : Nat} {address : Buf → Int} {mem : Mem} {outs : List Outcome}

theorem MayGo.ofStripe (h : MayGo p s k f t) :
    OfStripe p k (StripeIo.make (k * p.dataSectorsPerStripe + f) (k * p.dataSectorsPerStripe + t) address mem s.disks) :=
  ⟨⟨f, Nat.lt_of_lt_of_le h.range.1 h.range.2, rfl⟩, ⟨t, h.range.2, rfl⟩, rows_nil⟩

theorem MayGo.read (h : MayGo p s k f t) (houts : ∀ out ∈ outs, out.Alone) :
    (readStripe p k f t address mem s.disks outs).disks = s.disks := by
  have hof : OfStripe p k (StripeIo.make (k * p.dataSectorsPerStripe + f) (k * p.dataSectorsPerStripe + t) address mem s.disks) :=
    h.ofStripe
  obtain ⟨hread, hdisks⟩ := ReadOnly.initiate hof
  exact (hread.run houts).trans hdisks

theorem MayGo.write_row (h : MayGo p s k f t) (houts : ∀ out ∈ outs, out.Alone) (hk : k % p.geometry.numRow ≠ row) (c : Nat) :
    (writeStripe p k f t address mem s.disks outs).disks c row = s.disks c row := by
  have hof : OfStripe p k (StripeIo.make (k * p.dataSectorsPerStripe + f) (k * p.dataSectorsPerStripe + t) address mem s.disks) :=
    h.ofStripe
  obtain ⟨hnext, hdisks⟩ := hof.initiateWrite
  obtain ⟨hframe, -⟩ := hnext.run houts
  exact (hframe c row (Ne.symm hk)).trans (congrFun (congrFun hdisks c) row)

theorem Beside.of_written {w : Task p} (hon : OnDisk p col row w.k w.d) (h : Written w disks) :
    Beside p col row (p.height w.k) w.disks disks := by
  have hunit : ∀ c < p.geometry.numCol, ∃ u ≤ p.numDataCol, (p.unitPlace w.k u).col = c := by
    intro c hc
    obtain ⟨u, hu⟩ := exists_onDisk hc hon.row_eq
    exact ⟨u, hu.le, hu.col_eq⟩
  constructor
  · intro c hc hne
    obtain ⟨u, hu, rfl⟩ := hunit c hc
    have hchanged := h.changed u hu
    rw [unitPlace_row, hon.row_eq] at hchanged
    rcases hchanged.state with ⟨hstate, hvalid, hsaved⟩ | ⟨hud, -⟩
    · exact ⟨hstate, hvalid, hsaved⟩
    · rw [hud] at hne
      exact absurd hon.col_eq hne
  · have hchanged := h.changed w.d hon.le
    rw [unitPlace_row, hon.row_eq, hon.col_eq] at hchanged
    rcases hchanged.state with ⟨hstate, hvalid, hsaved⟩ | ⟨-, hstate, hvalid, hsaved⟩
    · exact .inl ⟨hstate, hvalid, hsaved⟩
    · refine .inr ⟨?_, hvalid, hsaved⟩
      rw [hstate]
      nofun
  · intro c hc a ha
    obtain ⟨u, hu, rfl⟩ := hunit c hc
    have hchanged := h.changed u hu
    rw [unitPlace_row, hon.row_eq] at hchanged
    exact hchanged.data a ha

def Inv.task (h : Inv p col row s) (hon : OnDisk p col row k d) (hgo : MayGo p s k f t) (user : Int → Byte) : Task p where
  k := k
  f := f
  t := t
  user := user
  disks := s.disks
  d := d
  f_lt := hgo.range.1
  t_le := hgo.range.2
  d_le := hon.le
  sound u hu := by
    rw [unitPlace_row, hon.row_eq]
    exact h.sound _ (unitPlace_col_lt hu)
  valid := h.others.unit hon hgo.stripe
  consistent := h.consistent k hon.row_eq hgo.stripe hgo.unlocked

theorem Inv.writeStripe_sound (h : Inv p col row s) (hon : OnDisk p col row k d) (hgo : MayGo p s k f t)
    (houts : ∀ out ∈ outs, out.Alone ∧ out.WritesFailAt col row) :
    Sound (h.task hon hgo (mem .user)) (writeStripe p k f t address mem s.disks outs) := by
  have hbase : Base (h.task hon hgo (mem .user))
      (StripeIo.make (k * p.dataSectorsPerStripe + f) (k * p.dataSectorsPerStripe + t) address mem s.disks) :=
    ⟨rfl, rfl, rfl, rfl, rfl, fun _ => rfl, rfl⟩
  refine run_sound hbase.initiate outs fun out hmem => ?_
  obtain ⟨halone, hfail⟩ := houts out hmem
  refine ⟨fun r u hu honu hwrite hfails => ?_, fun c r hfails => ?_⟩
  · have hat := (hfail r hwrite hfails).1
    exact unitPlace_injective hu hon.le (honu.1.symm.trans (hat.trans hon.col_eq.symm))
  · rw [halone c r] at hfails
    nomatch hfails

/-- **A write of a stripe** that is not locked. -/
theorem Inv.write (h : Inv p col row s) (hcol : col < p.geometry.numCol) (hgo : MayGo p s k f t)
    (houts : ∀ out ∈ outs, out.Alone ∧ out.WritesFailAt col row) :
    Inv p col row { s with disks := (writeStripe p k f t address mem s.disks outs).disks } := by
  by_cases hk : k % p.geometry.numRow = row
  · obtain ⟨d, hon⟩ := exists_onDisk hcol hk
    rcases h.writeStripe_sound hon hgo houts with ⟨-, hwritten⟩ | ⟨-, hsame | hfailed⟩
    · have hbeside : Beside p col row (p.height k) s.disks (writeStripe p k f t address mem s.disks outs).disks :=
        Beside.of_written hon hwritten
      refine h.beside hbeside (fun k' hk' hunits hlocked => ?_) fun k' hlocked hk' => ?_
      · by_cases hkk : k' = k
        · rw [hkk]
          exact hwritten.consistent
        · exact hbeside.consistent hcol h.others hk' hunits (height_ne hk hk' hkk) (h.consistent k' hk' hunits hlocked)
      · have hkk : k' ≠ k := fun heq => hgo.unlocked (heq ▸ hlocked)
        exact hbeside.byte_eq hk' (height_ne hk hk' hkk)
    · exact h.sameRow hcol fun c => congrFun (congrFun hsame c) row
    · have hdisks : (writeStripe p k f t address mem s.disks outs).disks = s.disks.set col row (s.disks col row).fail := by
        refine hfailed.trans ?_
        show failUnit p s.disks k d = _
        rw [failUnit, hon.col_eq, unitPlace_row, hk]
      rw [hdisks]
      exact h.failDisk hcol
  · exact h.sameRow hcol fun c => hgo.write_row (fun out hmem => (houts out hmem).1) hk c

end operation

end environment

section reconstruction
variable {p : Params} {col row k d : Nat} {s : Rebuild} {disks : Disks} {rc : RequestControl} {out : Outcome} {s' : Rebuild}

theorem valid_whole (hvalid : ∀ u ≤ p.numDataCol, u ≠ d → UnitValid p disks k u) (hinvalid : ¬ UnitValid p disks k d)
    (haligned : ∀ u ≤ p.numDataCol, Aligned p disks k u) {u : Nat} (hu : u ≤ p.numDataCol) :
    (wholeRequest p k u).Valid p disks ↔ u ≠ d := by
  have hunit : (wholeRequest p k u).Valid p disks ↔ UnitValid p disks k u :=
    valid_unitRequest (haligned u hu) p.sectors_pos (Nat.le_refl _)
  rw [hunit]
  constructor
  · rintro h rfl
    exact hinvalid h
  · exact hvalid u hu

/-- The requests that are made to read a stripe of which unit `d` is to be computed. -/
theorem added_whole (rc : RequestControl) (hd : d ≤ p.numDataCol) (hvalid : ∀ u ≤ p.numDataCol, u ≠ d → UnitValid p disks k u)
    (hinvalid : ¬ UnitValid p disks k d) (haligned : ∀ u ≤ p.numDataCol, Aligned p disks k u) (h0 : rc.numFailed = 0)
    (hnil : rc.reqs = []) :
    (addRequests p disks rc (wholeList p k)).reqs = stated p k (before d) ∧
      (addRequests p disks rc (wholeList p k)).numFailed = 1 ∧
        (addRequests p disks rc (wholeList p k)).failedReq = some ((wholeRequest p k d).inState .invalid) := by
  have hmark : ∀ u ≤ p.numDataCol, (wholeRequest p k u).mark p disks = (wholeRequest p k u).inState (before d u) := by
    intro u hu
    rw [mark, BlockRequest.inState, before]
    by_cases hud : u = d
    · rw [if_neg ((valid_whole hvalid hinvalid haligned hu).not.2 (not_not.2 hud)), if_pos hud]
    · rw [if_pos ((valid_whole hvalid hinvalid haligned hu).2 hud), if_neg hud]
  refine ⟨?_, ?_, ?_⟩
  · rw [addRequests_reqs, hnil, List.nil_append, wholeList, List.map_map, stated]
    apply List.map_congr_left
    intro u hu
    exact hmark u (Nat.lt_succ_iff.1 (List.mem_range.1 hu))
  · have hfilter : (List.range (p.numDataCol + 1)).filter ((fun r => decide (¬ r.Valid p disks)) ∘ wholeRequest p k) =
        (List.range (p.numDataCol + 1)).filter (· == d) := by
      apply List.filter_congr
      intro u hu
      have hiff := valid_whole hvalid hinvalid haligned (Nat.lt_succ_iff.1 (List.mem_range.1 hu))
      exact decide_eq_decide.2 (hiff.not.trans not_not)
    rw [addRequests_numFailed, h0, Nat.zero_add, wholeList, List.filter_map, List.length_map, hfilter, ← List.countP_eq_length_filter]
    exact List.count_eq_one_of_mem List.nodup_range (List.mem_range.2 (Nat.lt_succ_iff.2 hd))
  · have hex : ∃ r ∈ wholeList p k, ¬ r.Valid p disks :=
      ⟨wholeRequest p k d, List.mem_map.2 ⟨d, List.mem_range.2 (Nat.lt_succ_iff.2 hd), rfl⟩,
        (valid_whole hvalid hinvalid haligned hd).not.2 (not_not.2 rfl)⟩
    obtain ⟨r, hr, hnot, hfailed⟩ := addRequests_failedReq rc hex
    obtain ⟨u, hu, rfl⟩ := List.mem_map.1 hr
    have hu := Nat.lt_succ_iff.1 (List.mem_range.1 hu)
    obtain rfl : u = d := not_not.1 ((valid_whole hvalid hinvalid haligned hu).not.1 hnot)
    rw [hfailed, hmark u hu, before, if_pos rfl]

theorem reconstruct_requests (p : Params) (disks : Disks) (k : Nat) (rc : RequestControl) :
    addParityRequest p disks .read (p.stripeIDToSector k) ⟨.parityBuf, 0⟩
        (addDataRequests p disks .read (p.stripeIDToSector k) (p.nthSectorOfStripe (p.stripeIDToSector k)) ⟨.readBuf, 0⟩ rc) =
      addRequests p disks rc (wholeList p k) := by
  have hfirst : p.stripeIDToSector k = k * p.dataSectorsPerStripe + 0 := by
    rw [Params.stripeIDToSector, Params.dataSectors_eq, Nat.mul_assoc, Nat.mul_comm p.sectorsPerStripeUnit, Nat.add_zero]
  rw [addParityRequest, addDataRequests, hfirst, Params.nthSectorOfStripe_eq p.dataSectorsPerStripe_pos,
    addParityRangeRequest_eq p.dataSectorsPerStripe_pos, addDataRangeRequests_eq (Nat.le_refl _), rangeSectors_eq wholeUnit_eq.1,
    wholeUnit_eq.2, Params.byteToSector_sectorToByte, ← wholeList_eq, addRequests_append]
  rfl

theorem Inv.idle (h : Inv p col row s) {phase : Phase} (hphase : phase = .next ∨ ∃ b, phase = .done b)
    (hdisks : s'.disks = s.disks) (hcontrol : s'.control.readBuf = s.control.readBuf ∧ s'.control.parityBuf = s.control.parityBuf)
    (hcons : ∀ k, s.control.locked = some k → k % p.geometry.numRow = row → p.height k < p.geometry.units →
      Consistent p s.disks k) :
    Inv p col row (s'.setPhase phase) := by
  have hkeep : ∀ q : Disks → Prop, q s.disks → q (s'.setPhase phase).disks := fun q hq => hdisks.symm ▸ hq
  refine
    { readBuf := hcontrol.1.trans h.readBuf
      parityBuf := hcontrol.2.trans h.parityBuf
      sound := hkeep (fun disks => ∀ c < p.geometry.numCol, (disks c row).Sound p) h.sound
      others := hkeep (OthersValid p col row) h.others
      le := hkeep (fun disks => (disks col row).numValidSector ≤ p.sectorsPerDisk) h.le
      saved := hkeep (fun disks => (disks col row).saved ≤ (disks col row).numValidSector) h.saved
      consistent := fun k hk hunits _ => hkeep (fun disks => Consistent p disks k) ?_
      waits := ?_ }
  · by_cases hlocked : s.control.locked = some k
    · exact hcons k hlocked hk hunits
    · exact h.consistent k hk hunits hlocked
  · rcases hphase with rfl | ⟨b, rfl⟩
    · trivial
    · trivial

theorem mapPhysical_eq (hrow : row < p.geometry.numRow) (m : Nat) :
    p.mapPhysicalToStripeID row (m * p.sectorsPerStripeUnit) = m * p.geometry.numRow + row ∧
      (m * p.geometry.numRow + row) % p.geometry.numRow = row ∧ p.height (m * p.geometry.numRow + row) = m := by
  refine ⟨?_, Nat.mul_add_mod_of_lt hrow, ?_⟩
  · rw [Params.mapPhysicalToStripeID, Nat.mul_div_cancel _ p.sectors_pos]
  · rw [Params.height, Nat.mul_comm, Nat.mul_add_div (by omega), Nat.div_eq_of_lt hrow, Nat.add_zero]

theorem Inv.frontier (h : Inv p col row s) (hcol : col < p.geometry.numCol) :
    ∃ m ≤ p.geometry.units, (s.disks col row).numValidSector = m * p.sectorsPerStripeUnit := by
  obtain ⟨m, hm⟩ := (h.sound col hcol).aligned
  rw [Nat.mul_comm] at hm
  refine ⟨m, ?_, hm⟩
  have hle := h.le
  rw [hm] at hle
  exact Nat.le_of_mul_le_mul_right hle p.sectors_pos

theorem Inv.initiate_cases (h : Inv p col row s) (hcol : col < p.geometry.numCol) (hrow : row < p.geometry.numRow) :
    (s.disks col row).numValidSector = p.sectorsPerDisk ∧ s.initiateStripeReconstruction p col row = s.setPhase (.done true) ∨
      (s.disks col row).state ≠ .ready ∧ s.initiateStripeReconstruction p col row = s.setPhase (.done true) ∨
      (s.disks col row).state = .ready ∧ (s.initiateStripeReconstruction p col row).control.phase = .reading ∧
        (s.initiateStripeReconstruction p col row).disks = s.disks ∧
        (s.initiateStripeReconstruction p col row).control.readBuf = s.control.readBuf ∧
        (s.initiateStripeReconstruction p col row).control.parityBuf = s.control.parityBuf ∧
        ∃ d, ReadWaits p col row (s.initiateStripeReconstruction p col row) d := by
  by_cases hend : (s.disks col row).numValidSector = p.sectorsPerDisk
  · exact .inl ⟨hend, if_pos hend⟩
  by_cases hready : (s.disks col row).state = .ready
  · right
    right
    obtain ⟨m, hm, hvalid⟩ := h.frontier hcol
    have hlt : m < p.geometry.units := Nat.lt_of_le_of_ne hm fun heq => hend (by rw [hvalid, heq]; rfl)
    obtain ⟨hmap, hmod, hheight⟩ := mapPhysical_eq hrow m
    obtain ⟨d, hon⟩ := exists_onDisk hcol hmod
    obtain ⟨rc, hrc⟩ : ∃ rc, rc = addRequests p s.disks s.control.reqControl.reset (wholeList p (m * p.geometry.numRow + row)) :=
      ⟨_, rfl⟩
    have hunits : p.height (m * p.geometry.numRow + row) < p.geometry.units := hheight.symm ▸ hlt
    have hinvalid : ¬ UnitValid p s.disks (m * p.geometry.numRow + row) d := by
      have hpos := p.sectors_pos
      rw [hon.valid_iff, hheight, hvalid, Nat.succ_mul]
      omega
    have haligned : ∀ u ≤ p.numDataCol, Aligned p s.disks (m * p.geometry.numRow + row) u := by
      intro u hu
      rw [Aligned, unitPlace_row, hmod]
      exact (h.sound _ (unitPlace_col_lt hu)).aligned
    obtain ⟨hreqs, hnum, hfailed⟩ := added_whole s.control.reqControl.reset hon.le (h.others.unit hon hunits) hinvalid haligned rfl rfl
    rw [← hrc] at hreqs hnum hfailed
    have heq : s.initiateStripeReconstruction p col row =
        Rebuild.setPhase { s with control := { s.control with stripeID := m * p.geometry.numRow + row, reqControl := rc } } .reading := by
      have hbelow : ¬ m * p.sectorsPerStripeUnit = p.sectorsPerDisk := hvalid ▸ hend
      rw [Rebuild.initiateStripeReconstruction]
      simp only [if_neg hbelow, if_neg (not_not.2 hready), hvalid, hmap, h.readBuf, h.parityBuf, reconstruct_requests, ← hrc, if_pos hnum]
    rw [heq]
    refine ⟨hready, rfl, rfl, rfl, rfl, d, hon, hunits, ?_, fun _ => ?_, hreqs, hfailed⟩
    · show (s.disks col row).numValidSector ≤ p.height (m * p.geometry.numRow + row) * _
      rw [hvalid, hheight]
    · show (s.disks col row).numValidSector = p.height (m * p.geometry.numRow + row) * _
      rw [hvalid, hheight]
  · exact .inr (.inl ⟨hready, (if_neg hend).trans (if_pos hready)⟩)

/-- **`InitiateStripeReconstruction`.** -/
theorem Inv.initiate (h : Inv p col row s) (hcol : col < p.geometry.numCol) (hrow : row < p.geometry.numRow)
    (hphase : s.control.phase = .next) : Inv p col row (s.initiateStripeReconstruction p col row) := by
  have hlocked : s.control.locked = none := by rw [Reconstruction.locked, hphase]
  have hnone : ∀ k, s.control.locked = some k → k % p.geometry.numRow = row → p.height k < p.geometry.units →
      Consistent p s.disks k := by
    intro k hk
    rw [hlocked] at hk
    nomatch hk
  rcases h.initiate_cases hcol hrow with ⟨-, heq⟩ | ⟨-, heq⟩ | ⟨-, hreading, hdisks, hread, hparity, hwaits⟩
  · rw [heq]
    exact h.idle (.inr ⟨true, rfl⟩) rfl ⟨rfl, rfl⟩ hnone
  · rw [heq]
    exact h.idle (.inr ⟨true, rfl⟩) rfl ⟨rfl, rfl⟩ hnone
  · refine ⟨hread.trans h.readBuf, hparity.trans h.parityBuf, ?_, ?_, ?_, ?_, fun k hk hunits _ => ?_, ?_⟩
    · rw [hdisks]
      exact h.sound
    · rw [hdisks]
      exact h.others
    · rw [hdisks]
      exact h.le
    · rw [hdisks]
      exact h.saved
    · rw [hdisks]
      exact h.consistent k hk hunits fun hk' => nomatch hlocked.symm.trans hk'
    · rw [Waits, hreading]
      exact hwaits

theorem stated_before_reads (p : Params) (k d : Nat) : ∀ r ∈ stated p k (before d), r.state = .ready → r.operation = .read := by
  intro r hr _
  obtain ⟨u, -, rfl⟩ := mem_stated.1 hr
  rfl

theorem stated_complete (hok : failures out (stated p k (before d)) = []) :
    (stated p k (before d)).map (BlockRequest.complete out) = stated p k (after d) := by
  rw [stated, stated, List.map_map]
  apply List.map_congr_left
  intro u hu
  have hmem : (wholeRequest p k u).inState (before d u) ∈ stated p k (before d) :=
    mem_stated.2 ⟨u, Nat.lt_succ_iff.1 (List.mem_range.1 hu), rfl⟩
  show ((wholeRequest p k u).inState (before d u)).complete out = (wholeRequest p k u).inState (after d u)
  by_cases hud : u = d
  · have hstate : ((wholeRequest p k u).inState (before d u)).state ≠ .ready := by
      rw [before, if_pos hud]
      nofun
    rw [BlockRequest.complete, if_neg hstate, before, after, if_pos hud, if_pos hud]
  · have hstate : ((wholeRequest p k u).inState (before d u)).state = .ready := if_neg hud
    rw [complete_ok hstate (no_failures hok _ hmem hstate), after, if_neg hud]
    rfl

theorem stated_bytes (hok : failures out (stated p k (before d)) = []) {mem : Mem} {u o : Nat} (hu : u ≤ p.numDataCol) (hne : u ≠ d)
    (ho : o < p.bytesPerStripeUnit) :
    (wholeRequest p k u).byteAt (transferAll out (stated p k (before d)) mem disks).1 (p.height k * p.bytesPerStripeUnit + o) =
      unitByte p disks k u o := by
  have hmem : (wholeRequest p k u).inState (before d u) ∈ stated p k (before d) := mem_stated.2 ⟨u, hu, rfl⟩
  have hready : ((wholeRequest p k u).inState (before d u)).state = .ready := if_neg hne
  have hcov : ((wholeRequest p k u).inState (before d u)).Covers (p.height k * p.bytesPerStripeUnit + o) :=
    (wholeRequest_covers ho : (wholeRequest p k u).Covers _)
  have hapart : (stated p k (before d)).Pairwise fun r q => r.state = .ready → q.state = .ready →
      Apart r.buffer r.bufferLen q.buffer q.bufferLen := (stated_apart _).imp fun h _ _ => h
  rw [unitByte_eq]
  exact transferAll_read_bytes (stated_before_reads p k d) hapart hmem hready (no_failures hok _ hmem hready) hcov

theorem stated_write (p : Params) (k d : Nat) :
    ((stated p k (after d)).map fun q => if q = (wholeRequest p k d).inState .invalid then unitWrite p k d else q) =
      (List.range (p.numDataCol + 1)).map fun u => if u = d then unitWrite p k d else (wholeRequest p k u).inState .completed := by
  rw [stated, List.map_map]
  apply List.map_congr_left
  intro u _
  show (if (wholeRequest p k u).inState (after d u) = _ then _ else (wholeRequest p k u).inState (after d u)) = _
  by_cases hud : u = d
  · rw [if_pos hud, if_pos]
    rw [after, if_pos hud, hud]
  · rw [if_neg hud, if_neg]
    · rw [after, if_neg hud]
    · intro heq
      have hstate : after d u = .invalid := congrArg BlockRequest.state heq
      rw [after, if_neg hud] at hstate
      nomatch hstate

/-- The disk is taken to be valid up to the end of the unit at height `b`. -/
def raise (p : Params) (col row b : Nat) (disks : Disks) : Disks :=
  disks.set col row { disks col row with numValidSector := (b + 1) * p.sectorsPerStripeUnit }

theorem raise_data (b : Nat) (c r : Nat) : (raise p col row b disks c r).data = (disks c r).data := by
  rw [raise, Disks.set]
  split
  · rename_i hat
    rw [hat.1, hat.2]
  · rfl

theorem raise_same (b : Nat) :
    raise p col row b disks col row = { disks col row with numValidSector := (b + 1) * p.sectorsPerStripeUnit } := if_pos ⟨rfl, rfl⟩

theorem raise_other {b c : Nat} (h : c ≠ col) : raise p col row b disks c row = disks c row := if_neg fun heq => h heq.1

theorem nthSector_height (m : Nat) : p.nthSectorOfStripeUnit (m * p.sectorsPerStripeUnit) = (m + 1) * p.sectorsPerStripeUnit := by
  rw [Params.nthSectorOfStripeUnit, Nat.mul_div_cancel _ p.sectors_pos]

theorem ReadWaits.cases (h : ReadWaits p col row s d)
    (hs' : s' = (s.complete out).reconstructionReadDone p col row (failures out s.control.reqControl.reqs).length) :
    s'.control.readBuf = s.control.readBuf ∧ s'.control.parityBuf = s.control.parityBuf ∧
      ((failures out s.control.reqControl.reqs ≠ [] ∨ (s.disks col row).state ≠ .ready) ∧ s'.control.phase = .done false ∧
          s'.disks = s.disks ∨
        (s.disks col row).state = .ready ∧ s'.control.phase = .writing ∧ s'.control.stripeID = s.control.stripeID ∧
          s'.disks = raise p col row (p.height s.control.stripeID) s.disks ∧
          s'.control.reqControl.reqs = ((List.range (p.numDataCol + 1)).map fun u =>
            if u = d then unitWrite p s.control.stripeID d else (wholeRequest p s.control.stripeID u).inState .completed) ∧
          ∀ o < p.bytesPerStripeUnit,
            s'.control.mem (wholeRequest p s.control.stripeID d).buffer.buf ((wholeRequest p s.control.stripeID d).buffer.off + o) =
              others p.numDataCol (fun u => unitByte p s.disks s.control.stripeID u o) d) := by
  obtain ⟨s₁, hs₁⟩ : ∃ s₁, s₁ = s.complete out := ⟨_, rfl⟩
  have hdisks : s₁.disks = s.disks := by
    rw [hs₁]
    show (transferAll out s.control.reqControl.reqs s.control.mem s.disks).2 = _
    rw [h.reqs]
    exact (transferAll_reads (stated_before_reads p _ d)).1
  have hmem : s₁.control.mem = (transferAll out (stated p s.control.stripeID (before d)) s.control.mem s.disks).1 := by
    rw [hs₁, ← h.reqs]
    rfl
  have hfailedReq : s₁.control.reqControl.failedReq = some ((wholeRequest p s.control.stripeID d).inState .invalid) := by
    rw [hs₁]
    exact h.failed
  have hstate : s₁.control.readBuf = s.control.readBuf ∧ s₁.control.parityBuf = s.control.parityBuf ∧
      s₁.control.stripeID = s.control.stripeID := by
    rw [hs₁]
    exact ⟨rfl, rfl, rfl⟩
  rw [← hs₁, Rebuild.reconstructionReadDone] at hs'
  by_cases hok : failures out s.control.reqControl.reqs = []
  · have hreqs : s₁.control.reqControl.reqs = stated p s.control.stripeID (after d) := by
      rw [hs₁]
      show s.control.reqControl.reqs.map _ = _
      rw [h.reqs] at hok ⊢
      exact stated_complete hok
    rw [hok, List.length_nil, if_neg (Nat.lt_irrefl 0), hfailedReq] at hs'
    dsimp only at hs'
    have hcomputed : (s₁.computeUnit p ((wholeRequest p s.control.stripeID d).inState .invalid)).disks = s.disks := hdisks
    rw [hcomputed] at hs'
    by_cases hready : (s.disks col row).state = .ready
    · rw [if_neg (not_not.2 hready), h.ready hready, nthSector_height] at hs'
      rw [hs']
      refine ⟨hstate.1, hstate.2.1, .inr ⟨hready, rfl, hstate.2.2, rfl, ?_, fun o ho => ?_⟩⟩
      · show s₁.control.reqControl.reqs.map _ = _
        rw [hreqs]
        exact stated_write p s.control.stripeID d
      · show xorAll s₁.control.address (xorRangeRequests p s₁.control.reqControl.reqs _ _ _) (s₁.control.mem.fill _ _ _) _ _ = _
        rw [hreqs]
        refine computed_unit h.disk.le (fun u hu hne o ho => ?_) _ ho
        rw [hmem]
        rw [h.reqs] at hok
        exact stated_bytes hok hu hne ho
    · rw [if_pos hready] at hs'
      rw [hs']
      exact ⟨hstate.1, hstate.2.1, .inl ⟨.inr hready, rfl, hdisks⟩⟩
  · rw [if_pos (List.length_pos_iff.2 hok)] at hs'
    rw [hs']
    exact ⟨hstate.1, hstate.2.1, .inl ⟨.inl hok, rfl, hdisks⟩⟩

/-- **`reconstructionReadDoneProc`.** -/
theorem Inv.readDone (h : Inv p col row s) (hcol : col < p.geometry.numCol) (hphase : s.control.phase = .reading) :
    Inv p col row ((s.complete out).reconstructionReadDone p col row (failures out s.control.reqControl.reqs).length) := by
  obtain ⟨s', hs'⟩ : ∃ s', s' = (s.complete out).reconstructionReadDone p col row (failures out s.control.reqControl.reqs).length :=
    ⟨_, rfl⟩
  have hwaits := h.waits
  rw [Waits, hphase] at hwaits
  obtain ⟨d, hd⟩ := hwaits
  have hlocked : s.control.locked = some s.control.stripeID := by rw [Reconstruction.locked, hphase]
  rw [← hs']
  obtain ⟨hread, hparity, ⟨-, hfailed, hdisks⟩ | ⟨hready, hwriting, hstripe, hdisks, hreqs, hbytes⟩⟩ := hd.cases hs'
  · have hcons : ∀ k, k % p.geometry.numRow = row → p.height k < p.geometry.units → Consistent p s.disks k := by
      intro k hk hunits
      by_cases hkk : k = s.control.stripeID
      · rw [hkk]
        exact consistent_beyond hcol h.others hd.disk.row_eq hd.units hd.valid
      · exact h.consistent k hk hunits fun heq => hkk (Option.some.inj (heq.symm.trans hlocked))
    refine ⟨hread.trans h.readBuf, hparity.trans h.parityBuf, ?_, ?_, ?_, ?_, fun k hk hunits _ => ?_, ?_⟩
    · rw [hdisks]
      exact h.sound
    · rw [hdisks]
      exact h.others
    · rw [hdisks]
      exact h.le
    · rw [hdisks]
      exact h.saved
    · rw [hdisks]
      exact hcons k hk hunits
    · rw [Waits, hfailed]
      trivial
  · have hvalid := hd.ready hready
    have hsucc : (p.height s.control.stripeID + 1) * p.sectorsPerStripeUnit =
        p.height s.control.stripeID * p.sectorsPerStripeUnit + p.sectorsPerStripeUnit := Nat.succ_mul _ _
    have hsaved := h.saved
    have hothers : OthersValid p col row (raise p col row (p.height s.control.stripeID) s.disks) := by
      intro c hc hne
      rw [raise_other hne]
      exact h.others c hc hne
    refine ⟨hread.trans h.readBuf, hparity.trans h.parityBuf, ?_, ?_, ?_, ?_, fun k hk hunits hunlocked => ?_, ?_⟩
    · rw [hdisks]
      intro c hc
      by_cases hne : c = col
      · rw [hne, raise_same]
        exact ⟨fun _ => hready, Nat.dvd_mul_left _ _⟩
      · rw [raise_other hne]
        exact h.sound c hc
    · rw [hdisks]
      exact hothers
    · rw [hdisks, raise_same]
      exact Nat.mul_le_mul_right _ hd.units
    · rw [hdisks, raise_same]
      show (s.disks col row).saved ≤ (p.height s.control.stripeID + 1) * p.sectorsPerStripeUnit
      omega
    · have hne : k ≠ s.control.stripeID := by
        rintro rfl
        rw [Reconstruction.locked, hwriting, hstripe] at hunlocked
        exact hunlocked rfl
      rw [hdisks]
      refine consistent_row hcol h.others hothers hk hunits (fun hle => ?_) (fun u _ o _ => ?_)
        (h.consistent k hk hunits fun heq => hne (Option.some.inj (heq.symm.trans hlocked)))
      · rw [raise_same] at hle
        have hlt : p.height k + 1 ≤ p.height s.control.stripeID + 1 := Nat.le_of_mul_le_mul_right hle p.sectors_pos
        have hheight := height_ne hd.disk.row_eq hk hne
        have hmul : (p.height k + 1) * p.sectorsPerStripeUnit ≤ p.height s.control.stripeID * p.sectorsPerStripeUnit :=
          Nat.mul_le_mul_right _ (by omega)
        omega
      · rw [unitByte_eq, unitByte_eq, raise_data]
    · rw [Waits, hwriting]
      refine ⟨d, ?_, ?_, ?_, ?_, ?_, ?_⟩
      · rw [hstripe]
        exact hd.disk
      · rw [hstripe]
        exact hd.units
      · rw [hdisks, hstripe, raise_same]
        exact fun _ => rfl
      · rw [hdisks, hstripe, raise_same]
        show (s.disks col row).saved ≤ _
        omega
      · rw [hstripe]
        exact hreqs
      · rw [hstripe, hdisks]
        intro o ho
        refine (hbytes o ho).trans (others_congr fun u _ _ => ?_)
        rw [unitByte_eq, unitByte_eq, raise_data]

theorem unitWrite_distinct (p : Params) (k d : Nat) :
    ((List.range (p.numDataCol + 1)).map fun u => if u = d then unitWrite p k d else (wholeRequest p k u).inState .completed).Pairwise
      fun r q => ¬ (r.col = q.col ∧ r.row = q.row) := by
  have hcolumn : ∀ u, (if u = d then unitWrite p k d else (wholeRequest p k u).inState .completed).col = (p.unitPlace k u).col := by
    intro u
    split
    · rename_i hud
      rw [hud]
      rfl
    · rfl
  rw [List.pairwise_map]
  apply List.nodup_range.imp_of_mem ?_
  intro u v hu hv huv heq
  rw [hcolumn, hcolumn] at heq
  exact huv (unitPlace_injective (Nat.lt_succ_iff.1 (List.mem_range.1 hu)) (Nat.lt_succ_iff.1 (List.mem_range.1 hv)) heq.1)

theorem OnDisk.unitWrite_at (h : OnDisk p col row k d) : (unitWrite p k d).col = col ∧ (unitWrite p k d).row = row :=
  ⟨h.col_eq, h.row_eq⟩

section
variable (h : WriteWaits p col row s d)
include h

theorem WriteWaits.request :
    unitWrite p s.control.stripeID d ∈ s.control.reqControl.reqs ∧
      ∀ q ∈ s.control.reqControl.reqs, q.state = .ready → q = unitWrite p s.control.stripeID d := by
  rw [h.reqs]
  refine ⟨List.mem_map.2 ⟨d, List.mem_range.2 (Nat.lt_succ_iff.2 h.disk.le), if_pos rfl⟩, fun q hq hready => ?_⟩
  obtain ⟨u, -, rfl⟩ := List.mem_map.1 hq
  by_cases hud : u = d
  · exact if_pos hud
  · rw [if_neg hud] at hready
    nomatch hready

theorem WriteWaits.transferred (out : Outcome) :
    (s.complete out).disks col row = (unitWrite p s.control.stripeID d).written out s.control.mem (s.disks col row) ∧
      ∀ c, c ≠ col → (s.complete out).disks c row = s.disks c row := by
  obtain ⟨hmem, honly⟩ := h.request
  have hwrite : ∀ q ∈ s.control.reqControl.reqs, q.state = .ready → q.operation = .write := by
    intro q hq hready
    rw [honly q hq hready]
    rfl
  have hdistinct : s.control.reqControl.reqs.Pairwise fun r q => ¬ (r.col = q.col ∧ r.row = q.row) := by
    rw [h.reqs]
    exact unitWrite_distinct p _ d
  obtain ⟨hc, hr⟩ := h.disk.unitWrite_at
  constructor
  · have hdisk : (transferAll out s.control.reqControl.reqs s.control.mem s.disks).2 _ _ = _ :=
      transferAll_write_disk hwrite hdistinct hmem rfl
    rw [hc, hr] at hdisk
    exact hdisk
  · intro c hne
    refine (transferAll_writes hwrite).2 c row fun q hq hready heq => hne ?_
    rw [heq.1, honly q hq hready, hc]

theorem WriteWaits.beside (hsound : (s.disks col row).Sound p)
    (hsaved : (s.disks col row).saved ≤ (s.disks col row).numValidSector) (out : Outcome) :
    Beside p col row (p.height s.control.stripeID) s.disks (s.complete out).disks ∧
      (out.fails (unitWrite p s.control.stripeID d) = true → ((s.complete out).disks col row).Lost) := by
  obtain ⟨hdisk, hothers⟩ := h.transferred out
  have hstart : (unitWrite p s.control.stripeID d).startAddress = p.height s.control.stripeID * p.bytesPerStripeUnit :=
    wholeRequest_start d
  have hlost : ∀ bytes, ((s.disks col row).fill (unitWrite p s.control.stripeID d).startAddress
      (unitWrite p s.control.stripeID d).bufferLen bytes).fail.Lost := fun bytes => Disk.fail_lost _ hsound.ready hsaved
  have hdata : ∀ bytes a, a < p.height s.control.stripeID * p.bytesPerStripeUnit ∨
      p.height s.control.stripeID * p.bytesPerStripeUnit + p.bytesPerStripeUnit ≤ a →
      ((s.disks col row).fill (unitWrite p s.control.stripeID d).startAddress
        (unitWrite p s.control.stripeID d).bufferLen bytes).data a = (s.disks col row).data a := by
    intro bytes a ha
    refine fill_uncovered (fun hcov : (unitWrite p s.control.stripeID d).Covers a => ?_) _ _
    obtain ⟨hlo, hhi⟩ := hcov
    have hlen : (unitWrite p s.control.stripeID d).bufferLen = p.bytesPerStripeUnit := rfl
    omega
  refine ⟨⟨fun c _ hne => ?_, ?_, fun c _ a ha => ?_⟩, fun hfails => ?_⟩
  · rw [hothers c hne]
    exact ⟨rfl, rfl, rfl⟩
  · rw [hdisk, BlockRequest.written]
    split
    · exact .inr (hlost _)
    · exact .inl ⟨rfl, rfl, rfl⟩
  · by_cases hne : c = col
    · rw [hne, hdisk, BlockRequest.written]
      split
      · rw [Disk.fail_data]
        exact hdata _ a ha
      · exact hdata _ a ha
    · rw [hothers c hne]
  · rw [hdisk, BlockRequest.written, if_pos hfails]
    exact hlost _

theorem WriteWaits.consistent (hothers : OthersValid p col row (s.complete out).disks)
    (hok : out.fails (unitWrite p s.control.stripeID d) = false) (hready : (s.disks col row).state = .ready) :
    Consistent p (s.complete out).disks s.control.stripeID := by
  obtain ⟨hdisk, hsame⟩ := h.transferred out
  have hvalid : ∀ u ≤ p.numDataCol, UnitValid p (s.complete out).disks s.control.stripeID u := by
    intro u hu
    by_cases hud : u = d
    · rw [hud, h.disk.valid_iff, hdisk, BlockRequest.written, hok]
      exact Nat.le_of_eq (h.ready hready).symm
    · exact hothers.unit h.disk h.units u hu hud
  rw [consistent_iff hvalid]
  intro o ho
  refine codeword_of_others h.disk.le ?_
  have hcov : (unitWrite p s.control.stripeID d).Covers (p.height s.control.stripeID * p.bytesPerStripeUnit + o) :=
    (wholeRequest_covers ho : (wholeRequest p s.control.stripeID d).Covers _)
  have hbyte : unitByte p (s.complete out).disks s.control.stripeID d o =
      others p.numDataCol (fun u => unitByte p s.disks s.control.stripeID u o) d := by
    rw [h.disk.byte_eq, hdisk, BlockRequest.written, if_neg (by rw [hok]; exact fun h => by cases h), ← h.bytes o ho]
    refine (fill_covered hcov _ _).trans ?_
    have hstart : (unitWrite p s.control.stripeID d).startAddress = p.height s.control.stripeID * p.bytesPerStripeUnit :=
      wholeRequest_start d
    rw [hstart, Nat.add_sub_cancel_left]
    rfl
  rw [hbyte]
  apply others_congr
  intro u hu hud
  rw [unitByte_eq, unitByte_eq, unitPlace_row, h.disk.row_eq, hsame _ (h.disk.col_ne hu hud)]

end

def save (col row : Nat) (disks : Disks) : Disks := disks.set col row { disks col row with saved := (disks col row).numValidSector }

theorem save_same : save col row disks col row = { disks col row with saved := (disks col row).numValidSector } := if_pos ⟨rfl, rfl⟩

theorem save_other {c : Nat} (h : c ≠ col) : save col row disks c row = disks c row := if_neg fun heq => h heq.1

theorem save_keeps (c : Nat) : (save col row disks c row).data = (disks c row).data ∧
    (save col row disks c row).state = (disks c row).state ∧
      (save col row disks c row).numValidSector = (disks c row).numValidSector := by
  by_cases hne : c = col
  · rw [hne, save_same]
    exact ⟨rfl, rfl, rfl⟩
  · rw [save_other hne]
    exact ⟨rfl, rfl, rfl⟩

theorem Inv.write_cases (h : Inv p col row s) (hcol : col < p.geometry.numCol) (hd : WriteWaits p col row s d)
    (hs' : s' = (s.complete out).reconstructionWriteDone p col row (failures out s.control.reqControl.reqs).length) :
    s'.control.readBuf = s.control.readBuf ∧ s'.control.parityBuf = s.control.parityBuf ∧
      (((s.complete out).disks col row).state ≠ .ready ∧ (s'.control.phase = .next ∨ s'.control.phase = .done false) ∧
          s'.disks = (s.complete out).disks ∨
        out.fails (unitWrite p s.control.stripeID d) = false ∧ (s.disks col row).state = .ready ∧
          s'.control.phase = .next ∧ s'.disks = save col row (s.complete out).disks) := by
  obtain ⟨hmem, honly⟩ := hd.request
  obtain ⟨hbeside, hlost⟩ := hd.beside (h.sound col hcol) h.saved out
  rw [Rebuild.reconstructionWriteDone] at hs'
  by_cases hok : failures out s.control.reqControl.reqs = []
  · have hfails : out.fails (unitWrite p s.control.stripeID d) = false := no_failures hok _ hmem rfl
    rw [hok, List.length_nil, if_neg (Nat.lt_irrefl 0)] at hs'
    by_cases hready : ((s.complete out).disks col row).state = .ready
    · rw [if_pos hready] at hs'
      rw [hs']
      exact ⟨rfl, rfl, .inr ⟨hfails, (hbeside.ready hready).state.symm.trans hready, rfl, rfl⟩⟩
    · rw [if_neg hready] at hs'
      rw [hs']
      exact ⟨rfl, rfl, .inl ⟨hready, .inl rfl, rfl⟩⟩
  · have hfails : out.fails (unitWrite p s.control.stripeID d) = true := by
      obtain ⟨r, hr⟩ := List.exists_mem_of_ne_nil _ hok
      obtain ⟨q, hq, -⟩ := List.mem_map.1 hr
      obtain ⟨hqmem, hboth⟩ := List.mem_filter.1 hq
      obtain ⟨hready, hfails⟩ := of_decide_eq_true hboth
      rw [← honly q hqmem hready]
      exact hfails
    have hnot := (hlost hfails).state
    rw [if_pos (List.length_pos_iff.2 hok), if_pos hnot] at hs'
    rw [hs']
    exact ⟨rfl, rfl, .inl ⟨hnot, .inr rfl, rfl⟩⟩

/-- **`reconstructionWriteDoneProc`.** -/
theorem Inv.writeDone (h : Inv p col row s) (hcol : col < p.geometry.numCol) (hphase : s.control.phase = .writing) :
    Inv p col row ((s.complete out).reconstructionWriteDone p col row (failures out s.control.reqControl.reqs).length) := by
  obtain ⟨s', hs'⟩ : ∃ s', s' = (s.complete out).reconstructionWriteDone p col row (failures out s.control.reqControl.reqs).length :=
    ⟨_, rfl⟩
  have hwaits := h.waits
  rw [Waits, hphase] at hwaits
  obtain ⟨d, hd⟩ := hwaits
  have hlocked : s.control.locked = some s.control.stripeID := by rw [Reconstruction.locked, hphase]
  rw [← hs']
  obtain ⟨hbeside, -⟩ := hd.beside (h.sound col hcol) h.saved out
  have hsound := hbeside.sound h.sound
  have hothers := hbeside.othersValid h.others
  have hcons : Consistent p (s.complete out).disks s.control.stripeID → ∀ k, k % p.geometry.numRow = row →
      p.height k < p.geometry.units → Consistent p (s.complete out).disks k := by
    intro hthis k hk hunits
    by_cases hkk : k = s.control.stripeID
    · rw [hkk]
      exact hthis
    · exact hbeside.consistent hcol h.others hk hunits (height_ne hd.disk.row_eq hk hkk)
        (h.consistent k hk hunits fun heq => hkk (Option.some.inj (heq.symm.trans hlocked)))
  obtain ⟨hread, hparity, ⟨hnot, hphase', hdisks⟩ | ⟨hfails, hready, hphase', hdisks⟩⟩ := h.write_cases hcol hd hs'
  · have hlost : ((s.complete out).disks col row).numValidSector = 0 :=
      Nat.eq_zero_of_not_pos fun hpos => hnot ((hsound col hcol).ready hpos)
    have hsaved : ((s.complete out).disks col row).saved ≤ ((s.complete out).disks col row).numValidSector := by
      rcases hbeside.mine with hsame | hlost'
      · rw [hsame.saved, hsame.valid]
        exact h.saved
      · rw [hlost'.saved]
        exact Nat.zero_le _
    refine ⟨hread.trans h.readBuf, hparity.trans h.parityBuf, ?_, ?_, ?_, ?_, fun k hk hunits _ => ?_, ?_⟩
    · rw [hdisks]
      exact hsound
    · rw [hdisks]
      exact hothers
    · rw [hdisks]
      exact Nat.le_trans hbeside.valid_le h.le
    · rw [hdisks]
      exact hsaved
    · rw [hdisks]
      refine hcons (consistent_beyond hcol hothers hd.disk.row_eq hd.units ?_) k hk hunits
      rw [hlost]
      exact Nat.zero_le _
    · rw [Waits]
      rcases hphase' with hphase' | hphase'
      · rw [hphase']
        trivial
      · rw [hphase']
        trivial
  · have hothers' : OthersValid p col row (save col row (s.complete out).disks) := by
      intro c hc hne
      rw [save_other hne]
      exact hothers c hc hne
    refine ⟨hread.trans h.readBuf, hparity.trans h.parityBuf, ?_, ?_, ?_, ?_, fun k hk hunits _ => ?_, ?_⟩
    · rw [hdisks]
      intro c hc
      obtain ⟨-, hstate, hvalid⟩ := @save_keeps col row (s.complete out).disks c
      refine ⟨fun hpos => ?_, ?_⟩
      · rw [hvalid] at hpos
        rw [hstate]
        exact (hsound c hc).ready hpos
      · rw [hvalid]
        exact (hsound c hc).aligned
    · rw [hdisks]
      exact hothers'
    · rw [hdisks, (save_keeps col).2.2]
      exact Nat.le_trans hbeside.valid_le h.le
    · rw [hdisks, save_same]
    · rw [hdisks]
      refine consistent_row hcol hothers hothers' hk hunits (fun hle => ?_) (fun u _ o _ => ?_)
        (hcons (hd.consistent hothers hfails hready) k hk hunits)
      · rw [(save_keeps col).2.2] at hle
        exact hle
      · rw [unitByte_eq, unitByte_eq, unitPlace_row, hk, (save_keeps _).1]
    · rw [Waits, hphase']
      trivial

/-- **A step of the reconstruction.** -/
theorem Inv.step (h : Inv p col row s) (hcol : col < p.geometry.numCol) (hrow : row < p.geometry.numRow) (out : Outcome) :
    Inv p col row (s.step p col row out) := by
  rw [Rebuild.step]
  cases hphase : s.control.phase with
  | next => exact h.initiate hcol hrow hphase
  | reading => exact h.readDone hcol hphase
  | writing => exact h.writeDone hcol hphase
  | done b => exact h

end reconstruction

end SpriteKernel.DevRaid.Initiate
