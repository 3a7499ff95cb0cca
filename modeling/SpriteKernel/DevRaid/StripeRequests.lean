import SpriteKernel.DevRaid.XorRange
import SpriteKernel.Lib.Parity

/- The requests that `Raid_AddDataRangeRequests` and `Raid_AddParityRangeRequest` make for a stripe:
   `addDataRangeRequests_eq` lists them unit by unit, `covers_dataRequest` says which bytes of a unit are in its one.
   A sector of stripe `k` is written `k * dataSectorsPerStripe + x`. -/
namespace SpriteKernel.DevRaid.Initiate

open List Params
open Striping

namespace Params
variable {p : Params} {k x : Nat}

theorem sectors_pos (p : Params) : 0 < p.sectorsPerStripeUnit := p.geometry.sectors_pos

theorem numDataCol_pos (p : Params) : 0 < p.numDataCol := p.geometry.numDataCol_pos

def bytesPerSector (p : Params) : Nat := 2 ^ p.logBytesPerSector

theorem bytesPerSector_pos (p : Params) : 0 < p.bytesPerSector := Nat.two_pow_pos _

theorem sectorToByte_eq (s : Nat) : p.sectorToByte s = s * p.bytesPerSector := Nat.shiftLeft_eq _ _

theorem byteToSector_eq (b : Nat) : p.byteToSector b = b / p.bytesPerSector := Nat.shiftRight_eq_div_pow _ _

@[simp]
theorem byteToSector_sectorToByte (s : Nat) : p.byteToSector (p.sectorToByte s) = s := by
  rw [sectorToByte_eq, byteToSector_eq, Nat.mul_div_cancel _ p.bytesPerSector_pos]

theorem bytesPerStripeUnit_eq : p.bytesPerStripeUnit = p.sectorsPerStripeUnit * p.bytesPerSector := sectorToByte_eq _

theorem bytesPerStripeUnit_pos (p : Params) : 0 < p.bytesPerStripeUnit := by
  rw [bytesPerStripeUnit_eq]
  exact Nat.mul_pos p.sectors_pos p.bytesPerSector_pos

theorem stripeUnitOffset_sectorToByte (s : Nat) :
    p.stripeUnitOffset (p.sectorToByte s) = p.sectorToByte (s % p.sectorsPerStripeUnit) := by
  rw [stripeUnitOffset, bytesPerStripeUnit_eq, sectorToByte_eq, sectorToByte_eq, Nat.mul_mod_mul_right]

theorem dataSectors_eq : p.dataSectorsPerStripe = p.numDataCol * p.sectorsPerStripeUnit := rfl

theorem dataSectorsPerStripe_pos (p : Params) : 0 < p.dataSectorsPerStripe := Nat.mul_pos p.numDataCol_pos p.sectors_pos

/-- The height of a stripe in its row, in stripe units. -/
def height (p : Params) (k : Nat) : Nat := k / p.geometry.numRow

/-- Where a unit of a stripe begins. The last unit, `numDataCol`, is the parity. -/
def unitPlace (p : Params) (k u : Nat) : Place := p.geometry.placeOf ⟨k, u, 0⟩

theorem unitPlace_sector (u : Nat) : (p.unitPlace k u).sector = p.height k * p.sectorsPerStripeUnit := Nat.add_zero _

theorem unitPlace_row (u : Nat) : (p.unitPlace k u).row = k % p.geometry.numRow := rfl

theorem numCol_eq (p : Params) : p.geometry.numCol - 1 = p.numDataCol := (last_unit p.withParity).symm

theorem unit_lt_numCol {u : Nat} (h : u ≤ p.numDataCol) : u < p.geometry.numCol := by
  have h1 := p.numCol_eq
  have h2 := p.geometry.numCol_two
  omega

theorem unitPlace_injective {u v : Nat} (hu : u ≤ p.numDataCol) (hv : v ≤ p.numDataCol)
    (h : (p.unitPlace k u).col = (p.unitPlace k v).col) : u = v :=
  rot_injective (unit_lt_numCol hu) (unit_lt_numCol hv) h

section
variable (hx : x < p.dataSectorsPerStripe)
include hx

theorem unit_lt : x / p.sectorsPerStripeUnit < p.numDataCol :=
  Nat.div_lt_of_lt_mul (by rw [Nat.mul_comm]; exact hx)

theorem addressOf_stripe :
    p.geometry.addressOf (k * p.dataSectorsPerStripe + x) =
      ⟨k, x / p.sectorsPerStripeUnit, x % p.sectorsPerStripeUnit⟩ := by
  have hu := unit_lt hx
  have heq : k * p.dataSectorsPerStripe + x =
      number p.sectorsPerStripeUnit p.numDataCol ⟨k, x / p.sectorsPerStripeUnit, x % p.sectorsPerStripeUnit⟩ := by
    simp only [number, dataSectors_eq]
    rw [Nat.add_mul, Nat.add_assoc, Nat.div_add_mod', Nat.mul_assoc]
  rw [heq]
  exact address_number hu (Nat.mod_lt _ p.sectors_pos)

theorem mapSector_stripe :
    p.mapSector (k * p.dataSectorsPerStripe + x) =
      ⟨(p.unitPlace k (x / p.sectorsPerStripeUnit)).col, (p.unitPlace k (x / p.sectorsPerStripeUnit)).row,
        p.height k * p.sectorsPerStripeUnit + x % p.sectorsPerStripeUnit⟩ := by
  rw [mapSector, addressOf_stripe hx]
  rfl

theorem mapParity_stripe :
    p.mapParity (k * p.dataSectorsPerStripe + x) =
      ⟨(p.unitPlace k p.numDataCol).col, (p.unitPlace k p.numDataCol).row,
        p.height k * p.sectorsPerStripeUnit + x % p.sectorsPerStripeUnit⟩ := by
  rw [mapParity, addressOf_stripe hx, numCol_eq]
  rfl

theorem stripe_div : (k * p.dataSectorsPerStripe + x) / p.dataSectorsPerStripe = k :=
  quotient_of_lt hx

theorem firstSectorOfStripe_eq :
    p.firstSectorOfStripe (k * p.dataSectorsPerStripe + x) = k * p.dataSectorsPerStripe := by
  rw [firstSectorOfStripe, stripe_div hx]

theorem nthSectorOfStripe_eq :
    p.nthSectorOfStripe (k * p.dataSectorsPerStripe + x) = k * p.dataSectorsPerStripe + p.dataSectorsPerStripe := by
  rw [nthSectorOfStripe, stripe_div hx, Nat.succ_mul]

end

theorem stripe_mod (x : Nat) : (k * p.dataSectorsPerStripe + x) % p.sectorsPerStripeUnit = x % p.sectorsPerStripeUnit := by
  rw [dataSectors_eq, ← Nat.mul_assoc, Nat.mul_comm _ p.sectorsPerStripeUnit, Nat.mul_add_mod]

end Params

section requests
variable {p : Params} {k : Nat} {operation : Operation} {disks : Disks} {rc : RequestControl} {buffer : Ptr}
  {x₀ x₁ rs rn u : Nat}

/-- A request for the sectors of a unit from `lo` to `hi`. -/
def unitRequest (p : Params) (k : Nat) (operation : Operation) (u lo hi : Nat) (buffer : Ptr) : BlockRequest where
  operation := operation
  startAddress := p.sectorToByte (p.height k * p.sectorsPerStripeUnit + lo)
  bufferLen := p.sectorToByte (hi - lo)
  buffer := buffer
  state := .ready
  col := (p.unitPlace k u).col
  row := (p.unitPlace k u).row

/-- The request for unit `u`, where sectors `x₀` to `x₁` of the stripe are asked for. -/
def dataRequest (p : Params) (k : Nat) (operation : Operation) (x₀ x₁ : Nat) (buffer : Ptr) (rs rn u : Nat) :
    Option BlockRequest :=
  let lo := max (max x₀ (u * p.sectorsPerStripeUnit) - u * p.sectorsPerStripeUnit) rs
  let hi := min (min x₁ ((u + 1) * p.sectorsPerStripeUnit) - u * p.sectorsPerStripeUnit) (rs + rn)
  if lo < hi then
    some (unitRequest p k operation u lo hi (buffer.add (p.sectorToByte (max x₀ (u * p.sectorsPerStripeUnit) - x₀))))
  else none

def BlockRequest.Valid (p : Params) (disks : Disks) (r : BlockRequest) : Prop :=
  (disks r.col r.row).isValid (p.byteToSector r.startAddress) (p.byteToSector r.bufferLen)

instance (r : BlockRequest) : Decidable (r.Valid p disks) := inferInstanceAs (Decidable (Disk.isValid _ _ _))

def addRequests (p : Params) (disks : Disks) (rc : RequestControl) (l : List BlockRequest) : RequestControl :=
  l.foldl (fun rc r => rc.add r (r.Valid p disks)) rc

theorem addRequests_append (l l' : List BlockRequest) :
    addRequests p disks rc (l ++ l') = addRequests p disks (addRequests p disks rc l) l' := foldl_append

theorem addDataRangeRequest_eq {x num : Nat} (hx : x < p.dataSectorsPerStripe)
    (hnum : num = min (p.sectorsPerStripeUnit - x % p.sectorsPerStripeUnit) (x₁ - x)) (hx₁ : x < x₁) :
    addDataRangeRequest p disks operation (k * p.dataSectorsPerStripe + x) num buffer rs rn rc =
      addRequests p disks rc (dataRequest p k operation x x₁ buffer rs rn (x / p.sectorsPerStripeUnit)).toList := by
  have hdiv := Nat.div_add_mod' x p.sectorsPerStripeUnit
  have hmod := Nat.mod_lt x p.sectors_pos
  have hlo : max x (x / p.sectorsPerStripeUnit * p.sectorsPerStripeUnit) -
      x / p.sectorsPerStripeUnit * p.sectorsPerStripeUnit = x % p.sectorsPerStripeUnit := by omega
  have hhi : min x₁ ((x / p.sectorsPerStripeUnit + 1) * p.sectorsPerStripeUnit) -
      x / p.sectorsPerStripeUnit * p.sectorsPerStripeUnit = x % p.sectorsPerStripeUnit + num := by
    rw [Nat.succ_mul]
    omega
  have hbuf : max x (x / p.sectorsPerStripeUnit * p.sectorsPerStripeUnit) - x = 0 := by omega
  have hstart : (p.height k * p.sectorsPerStripeUnit + x % p.sectorsPerStripeUnit) % p.sectorsPerStripeUnit =
      x % p.sectorsPerStripeUnit := Nat.mul_add_mod_of_lt hmod
  have hbase : (p.height k * p.sectorsPerStripeUnit + x % p.sectorsPerStripeUnit) / p.sectorsPerStripeUnit = p.height k :=
    quotient_of_lt hmod
  have hlen : ((min (x % p.sectorsPerStripeUnit + num : Nat) (rs + rn : Nat) : Int) -
      (max (x % p.sectorsPerStripeUnit) rs : Nat)).toNat =
        min (x % p.sectorsPerStripeUnit + num) (rs + rn) - max (x % p.sectorsPerStripeUnit) rs := by omega
  simp only [addDataRangeRequest, Params.mapSector_stripe hx, rangeRestrict, hstart, hbase, dataRequest, hlo, hhi, hbuf]
  push_cast at hlen ⊢
  by_cases h : max (x % p.sectorsPerStripeUnit) rs < min (x % p.sectorsPerStripeUnit + num) (rs + rn)
  · rw [if_pos h, if_pos (by omega)]
    have hzero : buffer.add (p.sectorToByte 0 : Nat) = buffer := by
      rw [sectorToByte_eq, Nat.zero_mul]
      exact add_zero_ptr buffer
    simp only [Option.toList_some, addRequests, foldl_cons, foldl_nil, unitRequest, BlockRequest.Valid,
      byteToSector_sectorToByte, hlen, hzero]
  · rw [if_neg h, if_neg (by omega)]
    rfl

theorem filterMap_range_split {α : Type} {n u : Nat} {f g : Nat → Option α} (hu : u < n)
    (hbefore : ∀ v < u, f v = none ∧ g v = none) (hat : g u = none) (hafter : ∀ v, u < v → f v = g v) :
    (List.range n).filterMap f = (f u).toList ++ (List.range n).filterMap g := by
  induction n with
  | zero => exact absurd hu (Nat.not_lt_zero _)
  | succ n ih =>
    rw [range_succ, filterMap_append, filterMap_append]
    rcases Nat.lt_succ_iff_lt_or_eq.1 hu with hlt | rfl
    · rw [ih hlt, append_assoc, filterMap_cons, filterMap_cons, hafter n hlt]
      rfl
    · have hnone : ∀ h : Nat → Option α, (∀ v < u, h v = none) → (List.range u).filterMap h = [] := by
        intro h hh
        rw [filterMap_eq_nil_iff]
        exact fun v hv => hh v (mem_range.1 hv)
      rw [hnone f fun v hv => (hbefore v hv).1, hnone g fun v hv => (hbefore v hv).2]
      cases hf : f u <;> simp [hat, hf]

theorem dataRequest_eq_none (h : (u + 1) * p.sectorsPerStripeUnit ≤ x₀ ∨ x₁ ≤ u * p.sectorsPerStripeUnit ∨ x₁ ≤ x₀) :
    dataRequest p k operation x₀ x₁ buffer rs rn u = none := by
  apply if_neg
  omega

theorem dataRequests_nil (h : x₁ ≤ x₀) : (List.range p.numDataCol).filterMap (dataRequest p k operation x₀ x₁ buffer rs rn) = [] :=
  filterMap_eq_nil_iff.2 fun _ _ => dataRequest_eq_none (.inr (.inr h))

theorem addDataLoop_eq {fuel x : Nat} (hfuel : x₁ - x ≤ fuel) (hx₁ : x₁ ≤ p.dataSectorsPerStripe) :
    addDataLoop p disks operation rs rn fuel (k * p.dataSectorsPerStripe + x) (k * p.dataSectorsPerStripe + x₁) buffer rc =
      addRequests p disks rc ((List.range p.numDataCol).filterMap (dataRequest p k operation x x₁ buffer rs rn)) := by
  induction fuel generalizing x buffer rc with
  | zero =>
    rw [dataRequests_nil (by omega)]
    rfl
  | succ fuel ih =>
    rw [addDataLoop]
    by_cases hlt : x < x₁
    · rw [if_pos (by omega)]
      have hx : x < p.dataSectorsPerStripe := by omega
      have hsub : k * p.dataSectorsPerStripe + x₁ - (k * p.dataSectorsPerStripe + x) = x₁ - x := by omega
      have hmod := Nat.mod_lt x p.sectors_pos
      have hdiv := Nat.div_add_mod' x p.sectorsPerStripeUnit
      simp only [stripe_mod, hsub]
      obtain ⟨num, hnum⟩ : ∃ num, num = min (p.sectorsPerStripeUnit - x % p.sectorsPerStripeUnit) (x₁ - x) := ⟨_, rfl⟩
      rw [← hnum, addDataRangeRequest_eq hx hnum hlt, Nat.add_assoc, ih (by omega), ← addRequests_append]
      congr 1
      refine (filterMap_range_split (Params.unit_lt hx) ?_ ?_ ?_).symm
      · intro v hv
        have hle : (v + 1) * p.sectorsPerStripeUnit ≤ x / p.sectorsPerStripeUnit * p.sectorsPerStripeUnit :=
          Nat.mul_le_mul_right _ hv
        exact ⟨dataRequest_eq_none (.inl (by omega)), dataRequest_eq_none (.inl (by omega))⟩
      · by_cases hend : x + num = x₁
        · exact dataRequest_eq_none (.inr (.inr (by omega)))
        · refine dataRequest_eq_none (.inl ?_)
          rw [Nat.succ_mul]
          omega
      · intro v hv
        have hle : (x / p.sectorsPerStripeUnit + 1) * p.sectorsPerStripeUnit ≤ v * p.sectorsPerStripeUnit :=
          Nat.mul_le_mul_right _ hv
        rw [Nat.succ_mul] at hle
        have hmax : max (x + num) (v * p.sectorsPerStripeUnit) = v * p.sectorsPerStripeUnit := by omega
        have hmax' : max x (v * p.sectorsPerStripeUnit) = v * p.sectorsPerStripeUnit := by omega
        have hptr : (buffer.add (p.sectorToByte num)).add (p.sectorToByte (v * p.sectorsPerStripeUnit - (x + num))) =
            buffer.add (p.sectorToByte (v * p.sectorsPerStripeUnit - x)) := by
          rw [add_add_ptr, sectorToByte_eq, sectorToByte_eq, sectorToByte_eq, ← Nat.cast_add,
            ← Nat.add_mul]
          congr 4
          omega
        simp only [dataRequest, hmax, hmax', hptr]
    · rw [if_neg (by omega), dataRequests_nil (by omega)]
      rfl

/-- **The requests of `Raid_AddDataRangeRequests`**, unit by unit. -/
theorem addDataRangeRequests_eq {ro rl : Nat} (hx₁ : x₁ ≤ p.dataSectorsPerStripe) :
    addDataRangeRequests p disks operation (k * p.dataSectorsPerStripe + x₀) (k * p.dataSectorsPerStripe + x₁) buffer ro rl rc =
      addRequests p disks rc
        ((List.range p.numDataCol).filterMap
          (dataRequest p k operation x₀ x₁ buffer (p.byteToSector (p.stripeUnitOffset ro)) (p.byteToSector rl))) :=
  addDataLoop_eq (by omega) hx₁

theorem addDataRangeRequests_first {ro rl : Nat} (hx₁ : x₁ ≤ p.dataSectorsPerStripe) :
    addDataRangeRequests p disks operation (k * p.dataSectorsPerStripe) (k * p.dataSectorsPerStripe + x₁) buffer ro rl rc =
      addRequests p disks rc
        ((List.range p.numDataCol).filterMap
          (dataRequest p k operation 0 x₁ buffer (p.byteToSector (p.stripeUnitOffset ro)) (p.byteToSector rl))) :=
  addDataLoop_eq (x := 0) (by omega) hx₁

def parityRequest (p : Params) (k : Nat) (operation : Operation) (buffer : Ptr) (rs rn : Nat) : Option BlockRequest :=
  if 0 < rn then some (unitRequest p k operation p.numDataCol rs (rs + rn) buffer) else none

theorem firstSectorOfStripeUnit_eq {x : Nat} :
    p.firstSectorOfStripeUnit (k * p.dataSectorsPerStripe + x) =
      k * p.dataSectorsPerStripe + x / p.sectorsPerStripeUnit * p.sectorsPerStripeUnit := by
  have hdiv := Nat.div_add_mod' (k * p.dataSectorsPerStripe + x) p.sectorsPerStripeUnit
  have hdiv' := Nat.div_add_mod' x p.sectorsPerStripeUnit
  rw [stripe_mod] at hdiv
  rw [Params.firstSectorOfStripeUnit]
  omega

theorem addParityRangeRequest_eq {ro rl x : Nat} (hx : x < p.dataSectorsPerStripe) :
    addParityRangeRequest p disks operation (k * p.dataSectorsPerStripe + x) buffer ro rl rc =
      addRequests p disks rc
        (parityRequest p k operation buffer (p.byteToSector (p.stripeUnitOffset ro)) (p.byteToSector rl)).toList := by
  obtain ⟨rs, hrs⟩ : ∃ rs, rs = p.byteToSector (p.stripeUnitOffset ro) := ⟨_, rfl⟩
  have hlt : rs < p.sectorsPerStripeUnit := by
    rw [hrs, Params.byteToSector_eq]
    apply Nat.div_lt_of_lt_mul
    rw [Nat.mul_comm, ← bytesPerStripeUnit_eq]
    exact Nat.mod_lt _ p.bytesPerStripeUnit_pos
  have hunit := Params.unit_lt hx
  have hsector : x / p.sectorsPerStripeUnit * p.sectorsPerStripeUnit + rs < p.dataSectorsPerStripe := by
    have hle : (x / p.sectorsPerStripeUnit + 1) * p.sectorsPerStripeUnit ≤ p.dataSectorsPerStripe :=
      Nat.mul_le_mul_right _ hunit
    rw [Nat.succ_mul] at hle
    omega
  have hmod : (x / p.sectorsPerStripeUnit * p.sectorsPerStripeUnit + rs) % p.sectorsPerStripeUnit = rs :=
    Nat.mul_add_mod_of_lt hlt
  have hlen : rs + p.byteToSector rl - rs = p.byteToSector rl := by omega
  simp only [addParityRangeRequest, ← hrs, firstSectorOfStripeUnit_eq, Nat.add_assoc, Params.mapParity_stripe hsector,
    hmod, parityRequest]
  split
  · simp only [Option.toList_some, addRequests, foldl_cons, foldl_nil, unitRequest, BlockRequest.Valid,
      byteToSector_sectorToByte, hlen]
  · rfl

def BlockRequest.mark (p : Params) (disks : Disks) (r : BlockRequest) : BlockRequest :=
  { r with state := if r.Valid p disks then .ready else .invalid }

theorem covers_mark {r : BlockRequest} {addr : Nat} : (r.mark p disks).Covers addr ↔ r.Covers addr := Iff.rfl

theorem mark_of_valid {r : BlockRequest} (h : r.Valid p disks) : (r.mark p disks).Ok := .inl (if_pos h)

theorem addRequests_reqs (l : List BlockRequest) :
    (addRequests p disks rc l).reqs = rc.reqs ++ l.map (BlockRequest.mark p disks) := by
  induction l generalizing rc with
  | nil => exact (append_nil _).symm
  | cons r l ih =>
    rw [addRequests, foldl_cons, ← addRequests, ih, RequestControl.add, map_cons, BlockRequest.mark]
    by_cases h : r.Valid p disks <;> simp [h]

theorem addRequests_numFailed (l : List BlockRequest) :
    (addRequests p disks rc l).numFailed = rc.numFailed + (l.filter fun r => ¬ r.Valid p disks).length := by
  induction l generalizing rc with
  | nil => rfl
  | cons r l ih =>
    rw [addRequests, foldl_cons, ← addRequests, ih, RequestControl.add]
    by_cases h : r.Valid p disks
    · simp [h]
    · simp [h]
      omega

variable {l : List BlockRequest}

theorem numFailed_eq_zero (h0 : rc.numFailed = 0) : (addRequests p disks rc l).numFailed = 0 ↔ ∀ r ∈ l, r.Valid p disks := by
  rw [addRequests_numFailed, h0, Nat.zero_add, length_eq_zero_iff, filter_eq_nil_iff]
  simp

theorem addRequests_failedReq_valid (h : ∀ r ∈ l, r.Valid p disks) :
    (addRequests p disks rc l).failedReq = rc.failedReq := by
  induction l generalizing rc with
  | nil => rfl
  | cons r l ih =>
    obtain ⟨hr, hl⟩ := forall_mem_cons.1 h
    rw [addRequests, foldl_cons, ← addRequests, ih hl, RequestControl.add, if_pos (decide_eq_true hr)]

theorem addRequests_failedReq (rc : RequestControl) (h : ∃ r ∈ l, ¬ r.Valid p disks) :
    ∃ r ∈ l, ¬ r.Valid p disks ∧ (addRequests p disks rc l).failedReq = some (r.mark p disks) := by
  induction l generalizing rc with
  | nil => exact absurd h (by simp)
  | cons r l ih =>
    rw [addRequests, foldl_cons, ← addRequests]
    by_cases hl : ∃ r ∈ l, ¬ r.Valid p disks
    · obtain ⟨q, hq, hinvalid, heq⟩ := ih (rc.add r (r.Valid p disks)) hl
      exact ⟨q, mem_cons_of_mem r hq, hinvalid, heq⟩
    · have hr : ¬ r.Valid p disks := by
        obtain ⟨q, hq, hinvalid⟩ := h
        rcases mem_cons.1 hq with rfl | hmem
        · exact hinvalid
        · exact absurd ⟨q, hmem, hinvalid⟩ hl
      refine ⟨r, mem_cons_self, hr, ?_⟩
      have hkeep : ∀ rc : RequestControl, (addRequests p disks rc l).failedReq = rc.failedReq := by
        clear ih h
        induction l with
        | nil => exact fun _ => rfl
        | cons q l ih =>
          intro rc
          have hvalid : q.Valid p disks := by
            by_contra hq
            exact hl ⟨q, mem_cons_self, hq⟩
          rw [addRequests, foldl_cons, ← addRequests, ih fun ⟨q', hq', h'⟩ => hl ⟨q', mem_cons_of_mem q hq', h'⟩,
            RequestControl.add, decide_eq_true hvalid]
          rfl
      rw [hkeep, RequestControl.add, decide_eq_false hr, BlockRequest.mark, if_neg hr]
      rfl

end requests

def UnitValid (p : Params) (disks : Disks) (k u : Nat) : Prop :=
  (disks (p.unitPlace k u).col (p.unitPlace k u).row).isValid (p.unitPlace k u).sector p.sectorsPerStripeUnit

instance (p : Params) (disks : Disks) (k u : Nat) : Decidable (UnitValid p disks k u) :=
  inferInstanceAs (Decidable (Disk.isValid _ _ _))

def Aligned (p : Params) (disks : Disks) (k u : Nat) : Prop :=
  p.sectorsPerStripeUnit ∣ (disks (p.unitPlace k u).col (p.unitPlace k u).row).numValidSector

def unitByte (p : Params) (disks : Disks) (k u o : Nat) : Byte :=
  (disks (p.unitPlace k u).col (p.unitPlace k u).row).data (p.sectorToByte (p.unitPlace k u).sector + o)

section units
variable {p : Params} {k : Nat} {operation : Operation} {disks : Disks} {buffer : Ptr} {u lo hi : Nat}

theorem base_eq (p : Params) (k u : Nat) : p.sectorToByte (p.unitPlace k u).sector = p.height k * p.bytesPerStripeUnit := by
  rw [unitPlace_sector, sectorToByte_eq, bytesPerStripeUnit_eq, Nat.mul_assoc]

theorem unitByte_eq (o : Nat) :
    unitByte p disks k u o =
      (disks (p.unitPlace k u).col (p.unitPlace k u).row).data (p.height k * p.bytesPerStripeUnit + o) := by
  rw [unitByte, base_eq]

theorem unitRequest_start : (unitRequest p k operation u lo hi buffer).startAddress =
    p.height k * p.bytesPerStripeUnit + lo * p.bytesPerSector := by
  show p.sectorToByte _ = _
  rw [sectorToByte_eq, Nat.add_mul, Nat.mul_assoc, ← bytesPerStripeUnit_eq]

theorem unitRequest_len : (unitRequest p k operation u lo hi buffer).bufferLen = (hi - lo) * p.bytesPerSector :=
  sectorToByte_eq _

theorem valid_unitRequest (halign : Aligned p disks k u) (hlt : lo < hi) (hhi : hi ≤ p.sectorsPerStripeUnit) :
    (unitRequest p k operation u lo hi buffer).Valid p disks ↔ UnitValid p disks k u := by
  obtain ⟨m, hm⟩ := halign
  show Disk.isValid _ (p.byteToSector (p.sectorToByte _)) (p.byteToSector (p.sectorToByte _)) ↔ Disk.isValid _ _ _
  rw [byteToSector_sectorToByte, byteToSector_sectorToByte, Disk.isValid, Disk.isValid, unitPlace_sector]
  show _ ≤ (disks (p.unitPlace k u).col (p.unitPlace k u).row).numValidSector ↔ _
  constructor
  · intro h
    have hmul : p.height k < m := by
      by_contra hle
      have := Nat.mul_le_mul_left p.sectorsPerStripeUnit (Nat.not_lt.1 hle)
      rw [Nat.mul_comm _ (p.height k)] at this
      omega
    have := Nat.mul_le_mul_left p.sectorsPerStripeUnit hmul
    rw [Nat.mul_succ, Nat.mul_comm _ (p.height k)] at this
    omega
  · omega

theorem unitRequest_inUnit (hlt : lo < hi) (hhi : hi ≤ p.sectorsPerStripeUnit) :
    InUnit p (p.height k) (unitRequest p k operation u lo hi buffer) := by
  have hB := p.bytesPerSector_pos
  have hle : hi * p.bytesPerSector ≤ p.bytesPerStripeUnit := by
    rw [bytesPerStripeUnit_eq]
    exact Nat.mul_le_mul_right _ hhi
  have hlohi : lo * p.bytesPerSector ≤ hi * p.bytesPerSector := Nat.mul_le_mul_right _ (Nat.le_of_lt hlt)
  refine ⟨?_, ?_, ?_⟩
  · rw [unitRequest_len]
    exact Nat.mul_pos (by omega) hB
  · rw [unitRequest_start]
    exact Nat.le_add_right _ _
  · rw [unitRequest_start, unitRequest_len, Nat.sub_mul, Nat.succ_mul]
    omega

theorem covers_unitRequest (o : Nat) :
    (unitRequest p k operation u lo hi buffer).Covers (p.height k * p.bytesPerStripeUnit + o) ↔
      lo ≤ o / p.bytesPerSector ∧ o / p.bytesPerSector < hi := by
  have hB := p.bytesPerSector_pos
  rw [BlockRequest.Covers, unitRequest_start, unitRequest_len, Nat.sub_mul, Nat.le_div_iff_mul_le hB, Nat.div_lt_iff_lt_mul hB]
  omega

end units

end SpriteKernel.DevRaid.Initiate
