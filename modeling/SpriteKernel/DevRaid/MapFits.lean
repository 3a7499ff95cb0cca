import SpriteKernel.DevRaid.MapSound
import Mathlib.Data.Finset.Sum
import Mathlib.Data.Finset.Prod
import Mathlib.Data.Finset.Card

/- The mapping is sound for exactly the geometries whose numbers fit. Otherwise a sector lands where no disk has one,
   two computations of a stripe number part, a column is negative, or there are too few numbers for the disks'
   sectors (`not_covered`). -/
namespace SpriteKernel.DevRaid
open Machine Striping DevRaid.Geometry

section fits
variable {g : Geometry} {q : UnitSector} {s : Nat}

theorem Geometry.Fits.numSector (h : g.Fits) : g.raid.numSector = g.dataSectors := by
  rw [raid_numSector, Nat.mod_eq_of_lt h.array]

theorem Geometry.Fits.stripes_lt (h : g.Fits) : g.stripes < 4294967296 := by
  have h1 : g.stripes * 1 * 1 ≤ g.stripes * g.numDataCol * g.sectorsPerStripeUnit :=
    Nat.mul_le_mul (Nat.mul_le_mul_left _ g.numDataCol_pos) g.sectors_pos
  have h2 : g.stripes * g.numDataCol * g.sectorsPerStripeUnit < 4294967296 := h.array
  omega

/-- A place on the disks, as the routines return it. -/
def location (p : Place) : Location := ⟨p.col, p.row, p.sector⟩

theorem location_injective {p q : Place} (h : location p = location q) : p = q := by
  have hcol : (p.col : Int) = q.col := congrArg Location.col h
  have hrow : (p.row : Int) = q.row := congrArg Location.row h
  exact Place.ext (by omega) (by omega) (congrArg Location.sector h)

def Geometry.placeOf (g : Geometry) (a : Address) : Place := place g.sectorsPerStripeUnit g.numRow g.rot a

section
variable (hfit : g.Fits)
include hfit

section
variable (hs : s < g.dataSectors)
include hs

theorem mapSector_eq_place :
    mapSector g.raid s = location (g.placeOf (g.addressOf s)) := by
  have hc : (g.addressOf s).unit < g.numCol := Nat.lt_of_lt_of_le (unit_lt g s) g.numDataCol_le
  rw [mapSector_eq hs hfit.disk, turned_eq hfit hc (stripe_lt hs)]
  rfl

theorem mapParity_eq_place :
    mapParity g.raid s = location (g.placeOf { g.addressOf s with unit := g.numCol - 1 }) := by
  have h2 := g.numCol_two
  rw [mapParity_eq hs hfit.disk, turned_eq hfit (show g.numCol - 1 < g.numCol by omega) (stripe_lt hs)]
  rfl

theorem sectorToStripeID_eq :
    sectorToStripeID g.raid s = int32 (g.addressOf s).stripe := by
  have hu : uint32 g.raid.sectorsPerStripeUnit = g.sectorsPerStripeUnit :=
    uint32_natCast (Nat.lt_trans g.sectors_int (by omega))
  have hunits : s / g.sectorsPerStripeUnit < g.stripes * g.numDataCol :=
    Nat.div_lt_of_lt_mul (by rw [Nat.mul_comm]; exact hs)
  rw [sectorToStripeID, hu, raid_numDataCol]
  rcases hfit.dataUnits with hle | ⟨hone, -⟩
  · have hk : s / g.sectorsPerStripeUnit / g.numDataCol ≤ s / g.sectorsPerStripeUnit := Nat.div_le_self _ _
    rw [int32_natCast (by omega), ← Int.ofNat_tdiv]
    exact (int32_natCast (show s / g.sectorsPerStripeUnit / g.numDataCol < 2147483648 by omega)).symm
  · show _ = int32 (s / g.sectorsPerStripeUnit / g.numDataCol : Nat)
    rw [hone, Nat.div_one]
    exact Int.tdiv_one _

end

theorem int32_stripe_injective {j k : Nat} (hj : j < g.stripes) (hk : k < g.stripes)
    (h : int32 j = int32 k) : j = k := by
  have hlt := hfit.stripes_lt
  obtain ⟨a, ha⟩ := int32_spec j
  obtain ⟨b, hb⟩ := int32_spec k
  omega

theorem sameStripe_iff {s t : Nat} (hs : s < g.dataSectors) (ht : t < g.dataSectors) :
    g.SameStripe s t ↔ (g.addressOf s).stripe = (g.addressOf t).stripe := by
  rw [Geometry.SameStripe, sectorToStripeID_eq hfit hs, sectorToStripeID_eq hfit ht]
  exact ⟨int32_stripe_injective hfit (stripe_lt hs) (stripe_lt ht), fun h => congrArg (fun k : Nat => int32 k) h⟩

end

theorem sameUnit_iff {s t : Nat} (h : (g.addressOf s).stripe = (g.addressOf t).stripe) :
    g.SameUnit s t ↔ (g.addressOf s).unit = (g.addressOf t).unit := by
  constructor
  · intro hu
    show s / g.sectorsPerStripeUnit % g.numDataCol = _
    rw [hu]
    rfl
  · intro hu
    have hsum (n : Nat) : (g.addressOf n).stripe * g.numDataCol + (g.addressOf n).unit = n / g.sectorsPerStripeUnit :=
      Nat.div_add_mod' _ _
    rw [Geometry.SameUnit, ← hsum s, ← hsum t, h, hu]

theorem mapPhysicalToStripeID_eq (hs : s < g.dataSectors) (hdisk : g.units * g.sectorsPerStripeUnit < 2147483648) :
    mapPhysicalToStripeID g.raid (mapSector g.raid s) = int32 (g.addressOf s).stripe := by
  have hrow : (g.addressOf s).stripe % g.numRow < g.numRow := Nat.mod_lt _ g.numRow_pos
  have hR : g.raid.rowsPerGroup = g.numRow := rfl
  have hu : uint32 g.raid.sectorsPerStripeUnit = g.sectorsPerStripeUnit :=
    uint32_natCast (Nat.lt_trans g.sectors_int (by omega))
  have hS : g.units < 2147483648 := Nat.lt_of_le_of_lt g.units_le g.units_int
  have hheight := height_lt hs
  have hdiv : (g.diskSector (g.addressOf s)) / g.sectorsPerStripeUnit = (g.addressOf s).stripe / g.numRow :=
    quotient_of_lt (offset_lt g s)
  rw [mapPhysicalToStripeID, mapSector_eq hs hdisk]
  simp only [hR, hu, hdiv, Geometry.diskRow]
  rw [← Int.ofNat_tdiv, ← Int.ofNat_tmod, Nat.div_eq_of_lt hrow, Nat.mod_eq_of_lt hrow]
  simp only [Int.natCast_zero, Int.zero_mul, Int.zero_add]
  rw [int32_natCast (n := (g.addressOf s).stripe / g.numRow) (by omega), int32_natCast (by omega),
    ← Int.natCast_mul, ← Int.natCast_add, Nat.div_add_mod']

theorem stripeIDToSector_eq (harray : g.dataSectors < 4294967296) {k : Nat} (hk : k < g.stripes) :
    stripeIDToSector g.raid (int32 k) = number g.sectorsPerStripeUnit g.numDataCol ⟨k, 0, 0⟩ := by
  have hlt : number g.sectorsPerStripeUnit g.numDataCol ⟨k, 0, 0⟩ < g.dataSectors :=
    number_lt hk g.numDataCol_pos g.sectors_pos
  have hu : g.raid.sectorsPerStripeUnit = g.sectorsPerStripeUnit := rfl
  obtain ⟨a, ha⟩ := int32_spec k
  have hmul : ((k : Int) + 4294967296 * a) * g.sectorsPerStripeUnit * g.numDataCol =
      (number g.sectorsPerStripeUnit g.numDataCol ⟨k, 0, 0⟩ : Nat) +
        4294967296 * (a * g.sectorsPerStripeUnit * g.numDataCol) := by
    simp only [number]
    push_cast
    ring
  rw [stripeIDToSector, hu, raid_numDataCol, ha, hmul]
  rw [uint32, Int.add_mul_emod_self_left]
  exact uint32_natCast (Nat.lt_trans hlt harray)

def Geometry.addressFor (g : Geometry) : UnitSector → Address
  | .data s => g.addressOf s
  | .parity k o => ⟨k, g.numCol - 1, o⟩

theorem last_unit (hS : g.parityConfig ≠ 'S') : g.numDataCol = g.numCol - 1 := by
  rw [numDataCol, if_neg hS]

theorem parity_sector (harray : g.dataSectors < 4294967296) {k o : Nat} (hk : k < g.stripes)
    (ho : o < g.sectorsPerStripeUnit) :
    stripeIDToSector g.raid (int32 k) + o < g.dataSectors ∧
      g.addressOf (stripeIDToSector g.raid (int32 k) + o) = ⟨k, 0, o⟩ := by
  have hnum : stripeIDToSector g.raid (int32 k) + o = number g.sectorsPerStripeUnit g.numDataCol ⟨k, 0, o⟩ := by
    rw [stripeIDToSector_eq harray hk]
    rfl
  rw [hnum]
  exact ⟨number_lt hk g.numDataCol_pos ho, address_number g.numDataCol_pos ho⟩

theorem locate_eq (hfit : g.Fits) (hq : g.Holds q) : g.locate q = location (g.placeOf (g.addressFor q)) := by
  cases q with
  | data s => exact mapSector_eq_place hfit (hfit.numSector ▸ hq)
  | parity k o =>
    obtain ⟨hlt, haddr⟩ := parity_sector hfit.array hq.2.1 hq.2.2
    show mapParity g.raid _ = _
    rw [mapParity_eq_place hfit hlt, haddr]
    rfl

theorem addressFor_valid (hfit : g.Fits) (hq : g.Holds q) :
    (g.addressFor q).stripe < g.stripes ∧ (g.addressFor q).unit < g.numCol ∧
      (g.addressFor q).offset < g.sectorsPerStripeUnit := by
  cases q with
  | data s =>
    have hs : s < g.dataSectors := hfit.numSector ▸ hq
    exact ⟨stripe_lt hs, Nat.lt_of_lt_of_le (unit_lt g s) g.numDataCol_le, offset_lt g s⟩
  | parity k o =>
    have h2 := g.numCol_two
    exact ⟨hq.2.1, show g.numCol - 1 < g.numCol by omega, hq.2.2⟩

theorem addressFor_injective {q r : UnitSector} (hq : g.Holds q) (hr : g.Holds r)
    (h : g.addressFor q = g.addressFor r) : q = r := by
  cases q with
  | data s =>
    cases r with
    | data t =>
      have hnum := congrArg (number g.sectorsPerStripeUnit g.numDataCol) h
      exact congrArg UnitSector.data (by simpa only [addressFor, addressOf, number_address] using hnum)
    | parity k o =>
      have hunit : (g.addressOf s).unit = g.numCol - 1 := congrArg Address.unit h
      have hlt := unit_lt g s
      have hlast := last_unit hr.1
      omega
  | parity j i =>
    cases r with
    | data t =>
      have hunit : g.numCol - 1 = (g.addressOf t).unit := congrArg Address.unit h
      have hlt := unit_lt g t
      have hlast := last_unit hq.1
      omega
    | parity k o =>
      have hk : j = k := congrArg Address.stripe h
      have ho : i = o := congrArg Address.offset h
      rw [hk, ho]

section
variable (hfit : g.Fits)
include hfit

theorem exists_addressFor {a : Address} (hs : a.stripe < g.stripes) (hc : a.unit < g.numCol)
    (ho : a.offset < g.sectorsPerStripeUnit) : ∃ q, g.Holds q ∧ g.addressFor q = a := by
  by_cases hdata : a.unit < g.numDataCol
  · refine ⟨.data (number g.sectorsPerStripeUnit g.numDataCol a), ?_, address_number hdata ho⟩
    show number g.sectorsPerStripeUnit g.numDataCol a < g.raid.numSector
    rw [hfit.numSector]
    exact number_lt hs hdata ho
  · have hS : g.parityConfig ≠ 'S' := by
      intro hS
      rw [numDataCol, if_pos hS] at hdata
      omega
    have hlast := last_unit hS
    refine ⟨.parity a.stripe a.offset, ⟨hS, hs, ho⟩, Address.ext rfl ?_ rfl⟩
    show g.numCol - 1 = a.unit
    omega

theorem locate_injective {q r : UnitSector} (hq : g.Holds q) (hr : g.Holds r)
    (h : g.locate q = g.locate r) : q = r := by
  obtain ⟨-, hcq, hoq⟩ := addressFor_valid hfit hq
  obtain ⟨-, hcr, hor⟩ := addressFor_valid hfit hr
  rw [locate_eq hfit hq, locate_eq hfit hr] at h
  have hrot (k c d : Nat) (hc : c < g.numCol) (hd : d < g.numCol) (he : g.rot k c = g.rot k d) : c = d :=
    rot_injective hc hd he
  apply addressFor_injective hq hr
  exact place_injective hrot hoq hor hcq hcr (location_injective h)

theorem locate_physical (hq : g.Holds q) : g.Physical (g.locate q) := by
  obtain ⟨hs, hc, ho⟩ := addressFor_valid hfit hq
  have hcol : g.rot (g.addressFor q).stripe (g.addressFor q).unit < g.numCol := rot_lt hc
  have hrow : (g.addressFor q).stripe % g.numRow < g.numRow := Nat.mod_lt _ g.numRow_pos
  rw [locate_eq hfit hq]
  exact
    { col_nonneg := Int.natCast_nonneg _
      col_lt := Int.ofNat_lt.2 hcol
      row_nonneg := Int.natCast_nonneg _
      row_lt := Int.ofNat_lt.2 hrow
      sector_lt := diskSector_lt g hs ho }

theorem locate_covers {p : Location} (hp : g.Physical p) : ∃ q, g.Holds q ∧ g.locate q = p := by
  obtain ⟨a, hs, hc, ho, hplace⟩ :=
    exists_place (fun k _ h => exists_rot h) (p := ⟨p.col.toNat, p.row.toNat, p.sector⟩)
      (by have h := hp.col_nonneg; have h' := hp.col_lt; show p.col.toNat < g.numCol; omega)
      (by have h := hp.row_nonneg; have h' := hp.row_lt; show p.row.toNat < g.numRow; omega) hp.sector_lt
  obtain ⟨q, hq, haddr⟩ := exists_addressFor hfit hs hc ho
  refine ⟨q, hq, ?_⟩
  rw [locate_eq hfit hq, haddr, placeOf, hplace]
  show Location.mk _ _ _ = p
  rw [Int.toNat_of_nonneg hp.col_nonneg, Int.toNat_of_nonneg hp.row_nonneg]

theorem sound_of_fits : g.Sound := by
  have hnum (s : Nat) (hs : s < g.raid.numSector) : s < g.dataSectors := hfit.numSector ▸ hs
  constructor
  case injective =>
    intro s t hs ht h
    exact UnitSector.data.inj (locate_injective hfit (q := .data s) (r := .data t) hs ht h)
  case onDisk =>
    intro s hs
    have h : (mapSector g.raid s).sector < g.units * g.sectorsPerStripeUnit :=
      (locate_physical hfit (q := .data s) hs).sector_lt
    rw [raid_sectorsPerDisk, int32_natCast hfit.disk]
    exact Int.ofNat_lt.2 h
  case within => exact fun q hq => locate_physical hfit hq
  case stripeRow =>
    intro s t hs ht h
    rw [sameStripe_iff hfit (hnum s hs) (hnum t ht)] at h
    rw [mapSector_eq_place hfit (hnum s hs), mapSector_eq_place hfit (hnum t ht)]
    exact congrArg (fun k : Nat => ((k % g.numRow : Nat) : Int)) h
  case stripeCols =>
    intro s t hs ht h
    rw [sameStripe_iff hfit (hnum s hs) (hnum t ht)] at h
    have hcs : (g.addressOf s).unit < g.numCol := Nat.lt_of_lt_of_le (unit_lt g s) g.numDataCol_le
    have hct : (g.addressOf t).unit < g.numCol := Nat.lt_of_lt_of_le (unit_lt g t) g.numDataCol_le
    rw [sameUnit_iff h, mapSector_eq_place hfit (hnum s hs), mapSector_eq_place hfit (hnum t ht)]
    show ((g.rot (g.addressOf s).stripe (g.addressOf s).unit : Nat) : Int) =
      (g.rot (g.addressOf t).stripe (g.addressOf t).unit : Nat) ↔ _
    rw [h, Int.ofNat_inj]
    exact ⟨rot_injective hcs hct, fun he => congrArg _ he⟩
  case stripeSectors =>
    intro s t hs ht h
    rw [sameStripe_iff hfit (hnum s hs) (hnum t ht)] at h
    rw [mapSector_eq_place hfit (hnum s hs), mapSector_eq_place hfit (hnum t ht)]
    show g.diskSector (g.addressOf s) = g.diskSector (g.addressOf t) ↔ (g.addressOf s).offset = (g.addressOf t).offset
    rw [Geometry.diskSector, Geometry.diskSector, h]
    omega
  case parityRow =>
    intro _ s t hs ht h
    rw [sameStripe_iff hfit (hnum s hs) (hnum t ht)] at h
    rw [mapParity_eq_place hfit (hnum s hs), mapSector_eq_place hfit (hnum t ht)]
    exact congrArg (fun k : Nat => ((k % g.numRow : Nat) : Int)) h
  case parityCol =>
    intro hS s t hs ht h
    rw [sameStripe_iff hfit (hnum s hs) (hnum t ht)] at h
    have hlt := unit_lt g t
    have hlast := last_unit hS
    rw [mapParity_eq_place hfit (hnum s hs), mapSector_eq_place hfit (hnum t ht)]
    show ((g.rot (g.addressOf s).stripe (g.numCol - 1) : Nat) : Int) ≠
      (g.rot (g.addressOf t).stripe (g.addressOf t).unit : Nat)
    rw [h, Ne, Int.ofNat_inj]
    intro he
    have hunit : g.numCol - 1 = (g.addressOf t).unit := rot_injective (by omega) (by omega) he
    omega
  case paritySectors =>
    intro _ s t hs ht h
    rw [sameStripe_iff hfit (hnum s hs) (hnum t ht)] at h
    rw [mapParity_eq_place hfit (hnum s hs), mapSector_eq_place hfit (hnum t ht)]
    show g.diskSector (g.addressOf s) = g.diskSector (g.addressOf t) ↔ (g.addressOf s).offset = (g.addressOf t).offset
    rw [Geometry.diskSector, Geometry.diskSector, h]
    omega
  case parityUnit =>
    intro s hs
    obtain ⟨hlt, haddr⟩ := parity_sector hfit.array (stripe_lt (hnum s hs)) (offset_lt g s)
    rw [sectorToStripeID_eq hfit (hnum s hs), mapParity_eq_place hfit (hnum s hs)]
    show _ = mapParity g.raid (stripeIDToSector g.raid (int32 (g.addressOf s).stripe) + (g.addressOf s).offset)
    rw [mapParity_eq_place hfit hlt, haddr]
  case covers =>
    intro p hp
    obtain ⟨q, hq, hloc⟩ := locate_covers hfit hp
    exact ⟨q, ⟨hq, hloc⟩, fun r hr => locate_injective hfit hr.1 hq (hr.2.trans hloc.symm)⟩
  case stripeID =>
    intro s hs
    rw [mapPhysicalToStripeID_eq (hnum s hs) hfit.disk, sectorToStripeID_eq hfit (hnum s hs)]

end

end fits

section unfit
variable {g : Geometry}

/-- The numbers the code has for the sectors the array keeps. -/
def Geometry.kept (g : Geometry) : Finset (Nat ⊕ Nat × Nat) :=
  (Finset.range g.raid.numSector).disjSum
    (if g.parityConfig = 'S' then ∅ else Finset.range g.stripes ×ˢ Finset.range g.sectorsPerStripeUnit)

def Geometry.diskSectors (g : Geometry) : Finset (Nat × Nat × Nat) :=
  Finset.range g.numCol ×ˢ Finset.range g.numRow ×ˢ Finset.range (g.units * g.sectorsPerStripeUnit)

def Geometry.locateNat (g : Geometry) (x : Nat ⊕ Nat × Nat) : Nat × Nat × Nat :=
  let p := g.locate (x.elim UnitSector.data fun ko => UnitSector.parity ko.1 ko.2)
  (p.col.toNat, p.row.toNat, p.sector)

theorem kept_of_holds {q : UnitSector} (hq : g.Holds q) :
    ∃ x ∈ g.kept, x.elim UnitSector.data (fun ko => UnitSector.parity ko.1 ko.2) = q := by
  cases q with
  | data s => exact ⟨.inl s, Finset.inl_mem_disjSum.2 (Finset.mem_range.2 hq), rfl⟩
  | parity k o =>
    refine ⟨.inr (k, o), Finset.inr_mem_disjSum.2 ?_, rfl⟩
    rw [if_neg hq.1]
    exact Finset.mk_mem_product (Finset.mem_range.2 hq.2.1) (Finset.mem_range.2 hq.2.2)

theorem card_diskSectors_le (hsound : g.Sound) : g.diskSectors.card ≤ g.kept.card := by
  apply Finset.card_le_card_of_surjOn g.locateNat
  rintro ⟨col, row, sector⟩ hp
  rw [Finset.mem_coe, diskSectors, Finset.mem_product, Finset.mem_product, Finset.mem_range,
    Finset.mem_range, Finset.mem_range] at hp
  obtain ⟨q, ⟨hq, hloc⟩, -⟩ := hsound.covers ⟨col, row, sector⟩
    ⟨Int.natCast_nonneg _, Int.ofNat_lt.2 hp.1, Int.natCast_nonneg _, Int.ofNat_lt.2 hp.2.1, hp.2.2⟩
  obtain ⟨x, hx, hxq⟩ := kept_of_holds hq
  refine ⟨x, hx, ?_⟩
  rw [Geometry.locateNat, hxq, hloc]
  rfl

theorem dataSectors_fit (hsound : g.Sound) : g.dataSectors < 4294967296 := by
  by_contra hbig
  have hle := card_diskSectors_le hsound
  have hmod : g.dataSectors % 4294967296 < g.dataSectors :=
    Nat.lt_of_lt_of_le (Nat.mod_lt _ (by decide)) (Nat.le_of_not_lt hbig)
  have hdisk : g.diskSectors.card = g.stripes * g.numCol * g.sectorsPerStripeUnit := by
    rw [diskSectors, Finset.card_product, Finset.card_product, Finset.card_range, Finset.card_range,
      Finset.card_range, Geometry.stripes]
    ring
  rw [hdisk, Geometry.kept, Finset.card_disjSum, Finset.card_range, raid_numSector] at hle
  by_cases hS : g.parityConfig = 'S'
  · have hD : g.numDataCol = g.numCol := by rw [numDataCol, if_pos hS]
    rw [if_pos hS, Finset.card_empty, ← hD] at hle
    exact absurd hmod (Nat.not_lt.2 hle)
  · have hN : g.numCol = g.numDataCol + 1 := by
      have hlast := last_unit hS
      have h2 := g.numCol_two
      omega
    have hsplit : g.stripes * g.numCol * g.sectorsPerStripeUnit =
        g.dataSectors + g.stripes * g.sectorsPerStripeUnit := by
      rw [hN, Geometry.dataSectors]
      ring
    rw [if_neg hS, Finset.card_product, Finset.card_range, Finset.card_range, hsplit] at hle
    omega

theorem disk_le_dataSectors (g : Geometry) : g.units * g.sectorsPerStripeUnit ≤ g.dataSectors := by
  have h : g.units * 1 * 1 * g.sectorsPerStripeUnit ≤ g.units * g.numRow * g.numDataCol * g.sectorsPerStripeUnit :=
    Nat.mul_le_mul_right _ (Nat.mul_le_mul (Nat.mul_le_mul_left _ g.numRow_pos) g.numDataCol_pos)
  rw [Nat.mul_one, Nat.mul_one] at h
  exact h

theorem disk_fits (hsound : g.Sound) : g.units * g.sectorsPerStripeUnit < 2147483648 := by
  by_contra hbig
  have harray := dataSectors_fit hsound
  have hle := disk_le_dataSectors g
  have hpos : 0 < g.raid.numSector := by
    rw [raid_numSector, Nat.mod_eq_of_lt harray]
    omega
  have hneg : g.raid.sectorsPerDisk < 0 := by
    obtain ⟨k, hk⟩ := int32_spec (g.units * g.sectorsPerStripeUnit : Nat)
    have hlt := int32_lt (g.units * g.sectorsPerStripeUnit : Nat)
    rw [raid_sectorsPerDisk]
    omega
  have h := hsound.onDisk 0 hpos
  omega

theorem addressOf_mul (n : Nat) :
    g.addressOf (n * g.sectorsPerStripeUnit) = ⟨n / g.numDataCol, n % g.numDataCol, 0⟩ := by
  have hdiv : n * g.sectorsPerStripeUnit / g.sectorsPerStripeUnit = n := Nat.mul_div_cancel _ g.sectors_pos
  rw [addressOf, address, hdiv, Nat.mul_mod_left]

/-- From the first unit an int cannot count, the two stripe numbers part. -/
theorem one_data_unit (hsound : g.Sound) (hbig : 2147483648 < g.stripes * g.numDataCol) : g.numDataCol = 1 := by
  by_contra hne
  have hpos := g.numDataCol_pos
  have hint : g.numDataCol < 2147483648 := Nat.lt_of_le_of_lt g.numDataCol_le g.numCol_int
  have hs : 2147483648 * g.sectorsPerStripeUnit < g.dataSectors := Nat.mul_lt_mul_of_pos_right hbig g.sectors_pos
  have hu : uint32 g.raid.sectorsPerStripeUnit = g.sectorsPerStripeUnit :=
    uint32_natCast (Nat.lt_trans g.sectors_int (by omega))
  have hdiv : 2147483648 * g.sectorsPerStripeUnit / g.sectorsPerStripeUnit = 2147483648 :=
    Nat.mul_div_cancel _ g.sectors_pos
  have hq : 1 ≤ 2147483648 / g.numDataCol := (Nat.one_le_div_iff hpos).2 (by omega)
  have hq' : 2147483648 / g.numDataCol ≤ 2147483648 / 2 := Nat.div_le_div_left (by omega) (by decide)
  have h := hsound.stripeID (2147483648 * g.sectorsPerStripeUnit) (by
    rw [raid_numSector, Nat.mod_eq_of_lt (dataSectors_fit hsound)]
    exact hs)
  have hstripe : (g.addressOf (2147483648 * g.sectorsPerStripeUnit)).stripe = 2147483648 / g.numDataCol := by
    rw [addressOf_mul]
  rw [mapPhysicalToStripeID_eq hs (disk_fits hsound), hstripe, int32_natCast (n := 2147483648 / g.numDataCol) (by omega),
    sectorToStripeID, hu, hdiv, raid_numDataCol] at h
  have hneg : (int32 (2147483648 : Nat)).tdiv g.numDataCol = -((2147483648 / g.numDataCol : Nat) : Int) := by
    show (-((2147483648 : Nat) : Int)).tdiv g.numDataCol = _
    rw [Int.neg_tdiv, Int.ofNat_tdiv]
  omega

/-- A stripe number that is negative turns the parity unit out of the array. -/
theorem not_right (hsound : g.Sound) (hbig : 2147483648 < g.stripes * g.numDataCol) : g.parityConfig ≠ 'R' := by
  intro hR
  have hone := one_data_unit hsound hbig
  have hcol : g.numCol = 2 := numCol_eq_two hone
  rw [hone, Nat.mul_one] at hbig
  have hq : g.Holds (.parity 2147483648 0) := ⟨by rw [hR]; decide, hbig, g.sectors_pos⟩
  obtain ⟨hlt, haddr⟩ := parity_sector (dataSectors_fit hsound) hbig g.sectors_pos
  have hloc : (g.locate (.parity 2147483648 0)).col = g.turned 2147483648 1 := by
    show (mapParity g.raid _).col = _
    rw [mapParity_eq hlt (disk_fits hsound), haddr, hcol]
    rfl
  have hneg : g.turned 2147483648 1 = -1 := by
    rw [Geometry.turned, if_pos hR, hcol]
    decide
  have h := (hsound.within _ hq).col_nonneg
  omega

theorem fits_of_sound (hsound : g.Sound) : g.Fits := by
  refine ⟨disk_fits hsound, dataSectors_fit hsound, ?_⟩
  rcases Nat.lt_or_ge 2147483648 (g.stripes * g.numDataCol) with hbig | hle
  · exact .inr ⟨one_data_unit hsound hbig, not_right hsound hbig⟩
  · exact .inl hle

end unfit

/-- **The mapping is sound for exactly the geometries that fit.** -/
theorem mapping_sound_iff_fits (g : Geometry) : g.Sound ↔ g.Fits := ⟨fits_of_sound, sound_of_fits⟩

/-- Four disks with 2^30 units of one sector: `numSector` holds the data, the int that a unit is cast to does not. -/
def wideArray : Geometry where
  numRow := 1
  numCol := 4
  sectorsPerStripeUnit := 1
  stripeUnitsPerDisk := 1073741824
  parityConfig := 'R'
  numRow_pos := by decide
  numCol_two := by decide
  sectors_pos := by decide
  units_pos := by decide
  numRow_int := by decide
  numCol_int := by decide
  sectors_int := by decide
  units_int := by decide

/-- Sector 2^31 of that array is in stripe 715827882, and `SectorToStripeID` says
    -715827882. -/
theorem wideArray_not_sound :
    wideArray.raid.numSector = 3221225472 ∧
    mapPhysicalToStripeID wideArray.raid (mapSector wideArray.raid 2147483648) = 715827882 ∧
    sectorToStripeID wideArray.raid 2147483648 = -715827882 ∧ ¬ wideArray.Sound := by
  have hmap : mapPhysicalToStripeID wideArray.raid (mapSector wideArray.raid 2147483648) = 715827882 := by decide
  have hstripe : sectorToStripeID wideArray.raid 2147483648 = -715827882 := by decide
  refine ⟨by decide, hmap, hstripe, ?_⟩
  intro hsound
  have h := hsound.stripeID 2147483648 (by decide)
  exact absurd h (by decide)

end SpriteKernel.DevRaid
