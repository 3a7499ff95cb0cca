import SpriteKernel.DevRaid.Map
import SpriteKernel.Lib.Striping
import Mathlib.Tactic.Linarith
import Mathlib.Tactic.Ring

/- A stripe's parity unit is unit `numCol - 1` of it, rotated as the data units are, so `Raid_MapSector` and
   `Raid_MapParity` both place an address of the stripes, as long as the ints and unsigned of the code hold the
   array's numbers. -/
namespace SpriteKernel.DevRaid
open Machine Striping DevRaid.Geometry

section dimensions
variable (g : Geometry)

def Geometry.numDataCol : Nat := if g.parityConfig = 'S' then g.numCol else g.numCol - 1

def Geometry.units : Nat :=
  if g.parityConfig = 'X' ∨ g.parityConfig = 'x' ∨ g.parityConfig = 'f' then
    g.stripeUnitsPerDisk - g.stripeUnitsPerDisk % g.numCol
  else g.stripeUnitsPerDisk

def Geometry.stripes : Nat := g.units * g.numRow
def Geometry.dataSectors : Nat := g.stripes * g.numDataCol * g.sectorsPerStripeUnit

theorem Geometry.numDataCol_pos : 0 < g.numDataCol := by
  have h := g.numCol_two
  rw [numDataCol]
  split <;> omega

theorem Geometry.numDataCol_le : g.numDataCol ≤ g.numCol := by
  rw [numDataCol]
  split <;> omega

theorem Geometry.units_le : g.units ≤ g.stripeUnitsPerDisk := by
  rw [units]
  split <;> omega

end dimensions

section fields
variable (g : Geometry)

theorem raid_numDataCol : g.raid.numDataCol = g.numDataCol := by
  have h := g.numCol_two
  have hint := g.numCol_int
  show (if g.parityConfig = 'S' then (g.numCol : Int) else int32 (g.numCol - 1)) = _
  rw [Geometry.numDataCol]
  split
  · rfl
  · rw [int32_of_fits (by omega) (by omega), Int.natCast_sub (by omega)]
    rfl

theorem raid_stripeUnitsPerDisk : g.raid.stripeUnitsPerDisk = g.units := by
  have hint := g.units_int
  have hle : g.stripeUnitsPerDisk % g.numCol ≤ g.stripeUnitsPerDisk := Nat.mod_le _ _
  show (if _ then int32 ((g.stripeUnitsPerDisk : Int) - Int.tmod g.stripeUnitsPerDisk g.numCol) else _) = _
  rw [Geometry.units]
  split
  · rw [← Int.ofNat_tmod, ← Int.natCast_sub hle, int32_natCast (by omega)]
  · rfl

theorem raid_numSector : g.raid.numSector = g.dataSectors % 4294967296 := by
  have hd := raid_numDataCol g
  have hu := raid_stripeUnitsPerDisk g
  show uint32 (g.numRow * g.raid.numDataCol * g.sectorsPerStripeUnit * g.raid.stripeUnitsPerDisk) = _
  rw [hd, hu]
  have h : ((g.numRow : Int) * g.numDataCol * g.sectorsPerStripeUnit * g.units) = (g.dataSectors : Int) := by
    rw [Geometry.dataSectors, Geometry.stripes]
    push_cast
    ring
  rw [h, uint32_eq_mod]

theorem raid_groupsPerArray : g.raid.groupsPerArray = 1 := by
  have h := g.numRow_pos
  show Int.tdiv g.numRow g.numRow = 1
  exact Int.tdiv_self (by omega)

theorem raid_sectorsPerDisk : g.raid.sectorsPerDisk = int32 (g.units * g.sectorsPerStripeUnit : Nat) := by
  have hu := raid_stripeUnitsPerDisk g
  show int32 (g.raid.stripeUnitsPerDisk * g.sectorsPerStripeUnit) = _
  rw [hu, Int.natCast_mul]

end fields

section split
variable {g : Geometry} {s : Nat}

def Geometry.addressOf (g : Geometry) (s : Nat) : Address := address g.sectorsPerStripeUnit g.numDataCol s

theorem stripe_lt (hs : s < g.dataSectors) : (g.addressOf s).stripe < g.stripes := stripe_address_lt hs

theorem unit_lt (g : Geometry) (s : Nat) : (g.addressOf s).unit < g.numDataCol := Nat.mod_lt _ g.numDataCol_pos

theorem offset_lt (g : Geometry) (s : Nat) : (g.addressOf s).offset < g.sectorsPerStripeUnit :=
  Nat.mod_lt _ g.sectors_pos

theorem height_lt (hs : s < g.dataSectors) : (g.addressOf s).stripe / g.numRow < g.units := by
  have h : (g.addressOf s).stripe < g.units * g.numRow := stripe_lt hs
  exact Nat.div_lt_of_lt_mul (by rw [Nat.mul_comm]; exact h)

theorem split_eq (hs : s < g.dataSectors) :
    splitSector g.raid s =
      { sector := (g.addressOf s).offset
        col := (g.addressOf s).unit
        groupRow := ((g.addressOf s).stripe % g.numRow : Nat)
        stripeUnit := ((g.addressOf s).stripe / g.numRow : Nat)
        group := 0 } := by
  have hd : g.numDataCol < 2147483648 := Nat.lt_of_le_of_lt g.numDataCol_le g.numCol_int
  have hS : g.units < 2147483648 := Nat.lt_of_le_of_lt g.units_le g.units_int
  have hu := g.sectors_int
  have hR := g.numRow_int
  have hheight := height_lt hs
  have hrow : (g.addressOf s).stripe % g.numRow < g.numRow := Nat.mod_lt _ g.numRow_pos
  have hunit := unit_lt g s
  have hoff := offset_lt g s
  have e1 : uint32 g.raid.sectorsPerStripeUnit = g.sectorsPerStripeUnit := uint32_natCast (by omega)
  have e2 : uint32 g.raid.numDataCol = g.numDataCol := by rw [raid_numDataCol, uint32_natCast (by omega)]
  have e3 : uint32 g.raid.rowsPerGroup = g.numRow := uint32_natCast (by omega)
  have e4 : uint32 g.raid.stripeUnitsPerDisk = g.units := by
    rw [raid_stripeUnitsPerDisk, uint32_natCast (by omega)]
  have e5 : uint32 g.raid.groupsPerArray = 1 := by rw [raid_groupsPerArray]; rfl
  have hunits : (g.addressOf s).stripe / g.numRow % g.units = (g.addressOf s).stripe / g.numRow :=
    Nat.mod_eq_of_lt hheight
  simp only [splitSector, e1, e2, e3, e4, e5, Nat.mod_one]
  show Split.mk (int32 (g.addressOf s).offset) (int32 (g.addressOf s).unit)
    (int32 ((g.addressOf s).stripe % g.numRow : Nat))
    (int32 ((g.addressOf s).stripe / g.numRow % g.units : Nat)) (int32 0) = _
  rw [hunits, int32_natCast (by omega), int32_natCast (by omega), int32_natCast (by omega),
    int32_natCast (by omega)]
  rfl

/-- The column of unit `c` of stripe `k`, as both routines compute it. -/
def Geometry.turned (g : Geometry) (k : Nat) (c : Int) : Int :=
  if g.parityConfig = 'R' then (int32 (c + int32 k)).tmod g.numCol
  else if g.parityConfig = 'L' then
    if (int32 (c - int32 k)).tmod g.numCol < 0 then int32 ((int32 (c - int32 k)).tmod g.numCol + g.numCol)
    else (int32 (c - int32 k)).tmod g.numCol
  else c

def Geometry.diskRow (g : Geometry) (a : Address) : Int := (a.stripe % g.numRow : Nat)
def Geometry.diskSector (g : Geometry) (a : Address) : Nat :=
  a.stripe / g.numRow * g.sectorsPerStripeUnit + a.offset

theorem splitRow_eq (hs : s < g.dataSectors) : (splitSector g.raid s).row g.raid = g.diskRow (g.addressOf s) := by
  have hrow : (g.addressOf s).stripe % g.numRow < g.numRow := Nat.mod_lt _ g.numRow_pos
  have hR := g.numRow_int
  rw [Split.row, split_eq hs]
  simp only [Int.zero_mul, Int.zero_add]
  exact int32_natCast (by omega)

theorem splitStripeID_eq (hs : s < g.dataSectors) :
    (splitSector g.raid s).stripeID g.raid = int32 (g.addressOf s).stripe := by
  have hheight := height_lt hs
  have hS : g.units < 2147483648 := Nat.lt_of_le_of_lt g.units_le g.units_int
  have hR : g.raid.rowsPerGroup = g.numRow := rfl
  rw [Split.stripeID, split_eq hs]
  simp only [Int.zero_mul, Int.zero_add]
  rw [int32_natCast (by omega), hR, ← Int.natCast_mul, ← Int.natCast_add, Nat.div_add_mod']

theorem diskSector_lt (g : Geometry) {a : Address} (hk : a.stripe < g.stripes)
    (ho : a.offset < g.sectorsPerStripeUnit) : g.diskSector a < g.units * g.sectorsPerStripeUnit := by
  show (place g.sectorsPerStripeUnit g.numRow (fun _ c => c) a).sector < _
  exact place_sector_lt hk ho

section
variable (hs : s < g.dataSectors)
include hs

theorem splitSector_eq (hdisk : g.units * g.sectorsPerStripeUnit < 2147483648) :
    (splitSector g.raid s).diskSector g.raid = g.diskSector (g.addressOf s) := by
  have hlt := diskSector_lt g (stripe_lt hs) (offset_lt g s)
  rw [Split.diskSector, split_eq hs]
  exact uint32_natCast (Nat.lt_trans hlt (by omega))

theorem mapSector_eq (hdisk : g.units * g.sectorsPerStripeUnit < 2147483648) :
    mapSector g.raid s =
      ⟨g.turned (g.addressOf s).stripe (g.addressOf s).unit, g.diskRow (g.addressOf s),
        g.diskSector (g.addressOf s)⟩ := by
  rw [mapSector, splitRow_eq hs, splitSector_eq hs hdisk, splitStripeID_eq hs, split_eq hs]
  rfl

theorem mapParity_eq (hdisk : g.units * g.sectorsPerStripeUnit < 2147483648) :
    mapParity g.raid s =
      ⟨g.turned (g.addressOf s).stripe (g.numCol - 1 : Nat), g.diskRow (g.addressOf s),
        g.diskSector (g.addressOf s)⟩ := by
  have h2 := g.numCol_two
  have hint := g.numCol_int
  have hlast : (g.numCol : Int) - 1 = (g.numCol - 1 : Nat) := by omega
  have hcol : g.raid.numCol = g.numCol := rfl
  rw [mapParity, splitRow_eq hs, splitSector_eq hs hdisk, splitStripeID_eq hs, hcol, hlast,
    int32_natCast (n := g.numCol - 1) (by omega)]
  rfl

end

end split

/-- The sectors, data sectors and data units fit their ints; or, for the cast of `SectorToStripeID`, there is one
    data unit a stripe and stripes do not turn right. -/
structure Geometry.Fits (g : Geometry) : Prop where
  disk : g.units * g.sectorsPerStripeUnit < 2147483648
  array : g.dataSectors < 4294967296
  dataUnits : g.stripes * g.numDataCol ≤ 2147483648 ∨ g.numDataCol = 1 ∧ g.parityConfig ≠ 'R'

section rotation
variable {g : Geometry} {k c : Nat}

/-- How far the units of a stripe are turned. -/
def Geometry.rot (g : Geometry) (k c : Nat) : Nat :=
  if g.parityConfig = 'R' then rotateRight g.numCol k c
  else if g.parityConfig = 'L' then rotateLeft g.numCol k c
  else c

theorem tmod_wrapped {x n : Int} (h0 : 0 < n) (h1 : n < 2147483648) :
    (if x.tmod n < 0 then int32 (x.tmod n + n) else x.tmod n) = x % n := by
  have hnn : 0 ≤ x % n := Int.emod_nonneg x (by omega)
  have hlt : x % n < n := Int.emod_lt_of_pos x h0
  rw [Int.tmod_eq_emod]
  split
  · rw [Int.natCast_zero, Int.sub_zero, if_neg (by omega)]
  · have habs : (n.natAbs : Int) = n := by omega
    rw [habs, if_pos (by omega), Int.sub_add_cancel, int32_of_fits (by omega) (by omega)]

theorem numCol_eq_two (h : g.numDataCol = 1) : g.numCol = 2 := by
  have h2 := g.numCol_two
  rw [Geometry.numDataCol] at h
  split at h <;> omega

theorem turn_sum (hfit : g.stripes * g.numDataCol ≤ 2147483648) (hR : g.parityConfig = 'R') (hc : c < g.numCol)
    (hk : k < g.stripes) : c + k < 2147483648 ∨ g.numCol = 2 ∧ c + k = 2147483648 := by
  have h2 := g.numCol_two
  have hint := g.numCol_int
  have hD : g.numDataCol = g.numCol - 1 := by
    rw [Geometry.numDataCol, hR]
    rfl
  rw [hD] at hfit
  obtain ⟨K, hK⟩ : ∃ K, g.stripes = K + 1 := ⟨g.stripes - 1, by omega⟩
  obtain ⟨N, hN⟩ : ∃ N, g.numCol - 1 = N + 1 := ⟨g.numCol - 2, by omega⟩
  have hexp : (K + 1) * (N + 1) = K * N + K + N + 1 := by ring
  rw [hK, hN, hexp] at hfit
  rcases Nat.eq_zero_or_pos N with hN0 | hN0
  · omega
  · rcases Nat.eq_zero_or_pos K with hK0 | hK0
    · omega
    · have hKN : K + N ≤ K * N + 1 := by nlinarith
      omega

theorem turned_right (hfit : g.stripes * g.numDataCol ≤ 2147483648) (hR : g.parityConfig = 'R')
    (hc : c < g.numCol) (hk : k < g.stripes) : g.turned k c = g.rot k c := by
  have hkint : k < 2147483648 := by
    have h1 : g.stripes * 1 ≤ g.stripes * g.numDataCol := Nat.mul_le_mul_left _ g.numDataCol_pos
    omega
  rw [turned, rot, if_pos hR, if_pos hR, int32_natCast hkint, ← Int.natCast_add]
  rcases turn_sum hfit hR hc hk with hlt | ⟨htwo, heq⟩
  · rw [int32_natCast hlt, ← Int.ofNat_tmod]
    rfl
  · rw [heq, htwo, rotateRight, heq]
    decide

theorem turned_left (hfit : g.Fits) (hL : g.parityConfig = 'L') (hc : c < g.numCol) (hk : k < g.stripes) :
    g.turned k c = g.rot k c := by
  have hint := g.numCol_int
  have hR : g.parityConfig ≠ 'R' := by rw [hL]; decide
  rw [turned, rot, if_neg hR, if_pos hL, if_neg hR, if_pos hL, rotateLeft_cast (by omega),
    tmod_wrapped (by omega) (by omega)]
  rcases hfit.dataUnits with hle | ⟨hone, -⟩
  · have h1 : g.stripes * 1 ≤ g.stripes * g.numDataCol := Nat.mul_le_mul_left _ g.numDataCol_pos
    rw [int32_natCast (by omega), int32_of_fits (by omega) (by omega)]
  · obtain ⟨a, ha⟩ := int32_spec k
    obtain ⟨b, hb⟩ := int32_spec (c - int32 k)
    have htwo : (g.numCol : Int) = 2 := by
      have h := numCol_eq_two hone
      omega
    rw [htwo, hb, ha]
    omega

theorem turned_eq (hfit : g.Fits) (hc : c < g.numCol) (hk : k < g.stripes) : g.turned k c = g.rot k c := by
  by_cases hR : g.parityConfig = 'R'
  · rcases hfit.dataUnits with hle | ⟨-, hne⟩
    · exact turned_right hle hR hc hk
    · exact absurd hR hne
  · by_cases hL : g.parityConfig = 'L'
    · exact turned_left hfit hL hc hk
    · rw [turned, rot, if_neg hR, if_neg hL, if_neg hR, if_neg hL]

theorem rot_lt (hc : c < g.numCol) : g.rot k c < g.numCol := by
  rw [rot]
  split
  · exact Nat.mod_lt _ (by omega)
  · split
    · exact rotateLeft_lt (by omega)
    · exact hc

theorem rot_injective {d : Nat} (hc : c < g.numCol) (hd : d < g.numCol) (h : g.rot k c = g.rot k d) : c = d := by
  rw [rot, rot] at h
  split at h
  · calc c = rotateLeft g.numCol k (rotateRight g.numCol k c) := (rotateLeft_rotateRight hc).symm
      _ = rotateLeft g.numCol k (rotateRight g.numCol k d) := by rw [h]
      _ = d := rotateLeft_rotateRight hd
  · split at h
    · calc c = rotateRight g.numCol k (rotateLeft g.numCol k c) := (rotateRight_rotateLeft hc).symm
        _ = rotateRight g.numCol k (rotateLeft g.numCol k d) := by rw [h]
        _ = d := rotateRight_rotateLeft hd
    · exact h

theorem exists_rot (hc : c < g.numCol) : ∃ d < g.numCol, g.rot k d = c := by
  by_cases hR : g.parityConfig = 'R'
  · refine ⟨rotateLeft g.numCol k c, rotateLeft_lt (by omega), ?_⟩
    rw [rot, if_pos hR, rotateRight_rotateLeft hc]
  · by_cases hL : g.parityConfig = 'L'
    · refine ⟨rotateRight g.numCol k c, Nat.mod_lt _ (by omega), ?_⟩
      rw [rot, if_neg hR, if_pos hL, rotateLeft_rotateRight hc]
    · exact ⟨c, hc, by rw [rot, if_neg hR, if_neg hL]⟩

end rotation

/-! Sectors of data and of parity, and what it is for the mapping to be sound. -/

/-- A sector the array keeps: a data sector, or a sector of a stripe's parity unit. -/
inductive UnitSector where
  | data (sectorNum : Nat)
  | parity (stripe offset : Nat)
  deriving DecidableEq

section sound
variable (g : Geometry)

def Geometry.Holds : UnitSector → Prop
  | .data s => s < g.raid.numSector
  | .parity k o => g.parityConfig ≠ 'S' ∧ k < g.stripes ∧ o < g.sectorsPerStripeUnit

def Geometry.locate : UnitSector → Location
  | .data s => mapSector g.raid s
  | .parity k o => mapParity g.raid (stripeIDToSector g.raid (int32 k) + o)

/-- The sectors the disks really have. -/
structure Geometry.Physical (p : Location) : Prop where
  col_nonneg : 0 ≤ p.col
  col_lt : p.col < g.numCol
  row_nonneg : 0 ≤ p.row
  row_lt : p.row < g.numRow
  sector_lt : p.sector < g.units * g.sectorsPerStripeUnit

def Geometry.SameStripe (s t : Nat) : Prop := sectorToStripeID g.raid s = sectorToStripeID g.raid t
def Geometry.SameUnit (s t : Nat) : Prop := s / g.sectorsPerStripeUnit = t / g.sectorsPerStripeUnit
def Geometry.SameOffset (s t : Nat) : Prop := s % g.sectorsPerStripeUnit = t % g.sectorsPerStripeUnit

/-- The mapping is one to one and consistent with the stripes. -/
structure Geometry.Sound : Prop where
  injective : ∀ s t, s < g.raid.numSector → t < g.raid.numSector → mapSector g.raid s = mapSector g.raid t → s = t
  onDisk : ∀ s, s < g.raid.numSector → ((mapSector g.raid s).sector : Int) < g.raid.sectorsPerDisk
  within : ∀ q, g.Holds q → g.Physical (g.locate q)
  stripeRow : ∀ s t, s < g.raid.numSector → t < g.raid.numSector → g.SameStripe s t →
    (mapSector g.raid s).row = (mapSector g.raid t).row
  stripeCols : ∀ s t, s < g.raid.numSector → t < g.raid.numSector → g.SameStripe s t →
    ((mapSector g.raid s).col = (mapSector g.raid t).col ↔ g.SameUnit s t)
  stripeSectors : ∀ s t, s < g.raid.numSector → t < g.raid.numSector → g.SameStripe s t →
    ((mapSector g.raid s).sector = (mapSector g.raid t).sector ↔ g.SameOffset s t)
  parityRow : g.parityConfig ≠ 'S' → ∀ s t, s < g.raid.numSector → t < g.raid.numSector → g.SameStripe s t →
    (mapParity g.raid s).row = (mapSector g.raid t).row
  parityCol : g.parityConfig ≠ 'S' → ∀ s t, s < g.raid.numSector → t < g.raid.numSector → g.SameStripe s t →
    (mapParity g.raid s).col ≠ (mapSector g.raid t).col
  paritySectors : g.parityConfig ≠ 'S' → ∀ s t, s < g.raid.numSector → t < g.raid.numSector → g.SameStripe s t →
    ((mapParity g.raid s).sector = (mapSector g.raid t).sector ↔ g.SameOffset s t)
  parityUnit : ∀ s, s < g.raid.numSector → mapParity g.raid s =
    mapParity g.raid (stripeIDToSector g.raid (sectorToStripeID g.raid s) + s % g.sectorsPerStripeUnit)
  covers : ∀ p, g.Physical p → ∃ q, (g.Holds q ∧ g.locate q = p) ∧ ∀ q', g.Holds q' ∧ g.locate q' = p → q' = q
  stripeID : ∀ s, s < g.raid.numSector →
    mapPhysicalToStripeID g.raid (mapSector g.raid s) = sectorToStripeID g.raid s

end sound
end SpriteKernel.DevRaid
