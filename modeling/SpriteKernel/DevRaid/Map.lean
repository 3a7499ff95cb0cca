import SpriteKernel.Lib.Machine

/- Where a RAID device keeps a sector (devRaidMap.c), for the parameters of `ComputeRaidParam` (devRaidLog.c) and the
   stripe macros of devRaidUtil.h. A `Geometry` is what the configuration supplies and `Geometry.raid` the `Raid`
   made of it; the mapping works on any `Raid`. -/
namespace SpriteKernel.DevRaid
open Machine

/-- The fields of the `Raid` structure that the address mapping reads. -/
structure Raid where
  numRow : Int
  numCol : Int
  sectorsPerStripeUnit : Int
  stripeUnitsPerDisk : Int
  rowsPerGroup : Int
  parityConfig : Char
  numDataCol : Int
  groupsPerArray : Int
  numSector : Nat
  sectorsPerDisk : Int
  deriving DecidableEq

def computeRaidParam (r : Raid) : Raid :=
  let numDataCol := if r.parityConfig = 'S' then r.numCol else int32 (r.numCol - 1)
  let stripeUnitsPerDisk :=
    if r.parityConfig = 'X' ∨ r.parityConfig = 'x' ∨ r.parityConfig = 'f' then
      int32 (r.stripeUnitsPerDisk - r.stripeUnitsPerDisk.tmod r.numCol)
    else r.stripeUnitsPerDisk
  { r with
    numDataCol := numDataCol
    stripeUnitsPerDisk := stripeUnitsPerDisk
    groupsPerArray := r.numRow.tdiv r.rowsPerGroup
    -- the cast of the first factor makes the whole product unsigned
    numSector := uint32 (r.numRow * numDataCol * r.sectorsPerStripeUnit * stripeUnitsPerDisk)
    sectorsPerDisk := int32 (stripeUnitsPerDisk * r.sectorsPerStripeUnit) }

/-- The dimensions a configuration gives, which are positive ints. -/
structure Geometry where
  numRow : Nat
  numCol : Nat
  sectorsPerStripeUnit : Nat
  stripeUnitsPerDisk : Nat
  parityConfig : Char
  numRow_pos : 0 < numRow
  numCol_two : 2 ≤ numCol
  sectors_pos : 0 < sectorsPerStripeUnit
  units_pos : 0 < stripeUnitsPerDisk
  numRow_int : numRow < 2147483648
  numCol_int : numCol < 2147483648
  sectors_int : sectorsPerStripeUnit < 2147483648
  units_int : stripeUnitsPerDisk < 2147483648

/-- The `Raid` of a configuration; `rowsPerGroup` is set to `numRow` before `ComputeRaidParam` is called. -/
def Geometry.raid (g : Geometry) : Raid :=
  computeRaidParam
    { numRow := g.numRow
      numCol := g.numCol
      sectorsPerStripeUnit := g.sectorsPerStripeUnit
      stripeUnitsPerDisk := g.stripeUnitsPerDisk
      rowsPerGroup := g.numRow
      parityConfig := g.parityConfig
      numDataCol := 0
      groupsPerArray := 0
      numSector := 0
      sectorsPerDisk := 0 }

/-- `SectorToStripeID`: the unit number is cast to an int before it is divided. -/
def sectorToStripeID (r : Raid) (sector : Nat) : Int :=
  (int32 (sector / uint32 r.sectorsPerStripeUnit : Nat)).tdiv r.numDataCol

def stripeIDToSector (r : Raid) (stripeID : Int) : Nat :=
  uint32 (stripeID * r.sectorsPerStripeUnit * r.numDataCol)

/-- A sector of a disk of the array. -/
structure Location where
  col : Int
  row : Int
  sector : Nat
  deriving DecidableEq

/-- `Raid_MapPhysicalToStripeID`; the column plays no part. -/
def mapPhysicalToStripeID (r : Raid) (p : Location) : Int :=
  let group := p.row.tdiv r.rowsPerGroup
  let groupRow := p.row.tmod r.rowsPerGroup
  let stripeUnit := int32 (p.sector / uint32 r.sectorsPerStripeUnit : Nat)
  int32 (int32 (group * r.stripeUnitsPerDisk + stripeUnit) * r.rowsPerGroup + groupRow)

/-- The parts of a sector number. -/
structure Split where
  sector : Int
  col : Int
  groupRow : Int
  stripeUnit : Int
  group : Int

/-- The divisions that `Raid_MapSector` and `Raid_MapParity` both start with. -/
def splitSector (r : Raid) (sectorNum : Nat) : Split :=
  let sector := sectorNum % uint32 r.sectorsPerStripeUnit
  let sectorNum := sectorNum / uint32 r.sectorsPerStripeUnit
  let col := sectorNum % uint32 r.numDataCol
  let sectorNum := sectorNum / uint32 r.numDataCol
  let groupRow := sectorNum % uint32 r.rowsPerGroup
  let sectorNum := sectorNum / uint32 r.rowsPerGroup
  let stripeUnit := sectorNum % uint32 r.stripeUnitsPerDisk
  let sectorNum := sectorNum / uint32 r.stripeUnitsPerDisk
  let group := sectorNum % uint32 r.groupsPerArray
  ⟨int32 sector, int32 col, int32 groupRow, int32 stripeUnit, int32 group⟩

def Split.row (r : Raid) (x : Split) : Int := int32 (x.group * r.rowsPerGroup + x.groupRow)

def Split.stripeID (r : Raid) (x : Split) : Int :=
  int32 (int32 (x.group * r.stripeUnitsPerDisk + x.stripeUnit) * r.rowsPerGroup + x.groupRow)

def Split.diskSector (r : Raid) (x : Split) : Nat :=
  uint32 (x.stripeUnit * r.sectorsPerStripeUnit + x.sector)

def mapSector (r : Raid) (sectorNum : Nat) : Location :=
  let x := splitSector r sectorNum
  let col :=
    if r.parityConfig = 'R' then (int32 (x.col + x.stripeID r)).tmod r.numCol
    else if r.parityConfig = 'L' then
      let col := (int32 (x.col - x.stripeID r)).tmod r.numCol
      if col < 0 then int32 (col + r.numCol) else col
    else x.col
  ⟨col, x.row r, x.diskSector r⟩

/-- `Raid_MapParity`: the column of the last unit, whatever unit the sector is in. -/
def mapParity (r : Raid) (sectorNum : Nat) : Location :=
  let x := splitSector r sectorNum
  let col :=
    if r.parityConfig = 'R' then (int32 (r.numCol - 1 + x.stripeID r)).tmod r.numCol
    else if r.parityConfig = 'L' then
      let col := (int32 (r.numCol - 1 - x.stripeID r)).tmod r.numCol
      if col < 0 then int32 (col + r.numCol) else col
    else int32 (r.numCol - 1)
  ⟨col, x.row r, x.diskSector r⟩

end SpriteKernel.DevRaid
