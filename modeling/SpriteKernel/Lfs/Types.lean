import Mathlib.Algebra.Group.Int.Defs

/- What the log-structured file system's modules share: disk addresses, the values the
   super block fixes, and the macros of `lfsInt.h`. A disk address is a block number;
   machine ints are integers here. -/
namespace SpriteKernel.Lfs

abbrev DiskAddr := Int

/-- `FSDM_NIL_INDEX`. -/
def nilDiskAddr : DiskAddr := -1

/-- What modelled code reads of `LfsSuperBlock`. The usage array, an entry a segment, is in blocks of
    `stableBlockSize` bytes. -/
structure SuperBlock where
  blockSizeShift : Nat
  logStartOffset : Int
  segmentSize : Int
  numberSegments : Nat
  minNumClean : Int
  numSegsToClean : Int
  entriesPerBlock : Nat
  stableBlockSize : Int

namespace SuperBlock

def blockSize (p : SuperBlock) : Int := 2 ^ p.blockSizeShift

def bytesToBlocks (p : SuperBlock) (bytes : Int) : Int := (bytes + (p.blockSize - 1)) >>> p.blockSizeShift

def blocksToBytes (p : SuperBlock) (blocks : Int) : Int := blocks <<< p.blockSizeShift

def segSizeInBlocks (p : SuperBlock) : Int := p.segmentSize >>> p.blockSizeShift

def validSegmentNum (p : SuperBlock) (segNum : Int) : Prop := 0 ≤ segNum ∧ segNum < p.numberSegments

instance (p : SuperBlock) (segNum : Int) : Decidable (p.validSegmentNum segNum) :=
  inferInstanceAs (Decidable (_ ∧ _))

def diskAddrToSegmentNum (p : SuperBlock) (diskAddress : DiskAddr) : Int :=
  (diskAddress - p.logStartOffset).tdiv p.segSizeInBlocks

theorem bytesToBlocks_zero (p : SuperBlock) : p.bytesToBlocks 0 = 0 := by
  unfold bytesToBlocks blockSize
  rw [Int.shiftRight_eq_div_pow, Int.zero_add]
  refine Int.ediv_eq_zero_of_lt ?_ ?_
  · have hpos : (0 : Int) < 2 ^ p.blockSizeShift := Int.pow_pos (by decide)
    omega
  · push_cast
    omega

end SuperBlock

theorem blockSize_pos (p : SuperBlock) : 0 < p.blockSize := Int.pow_pos (by decide)

theorem blocksToBytes_eq (p : SuperBlock) (blocks : Int) : p.blocksToBytes blocks = blocks * p.blockSize :=
  Int.shiftLeft_eq _ _

theorem bytesToBlocks_mul (p : SuperBlock) (blocks : Int) : p.bytesToBlocks (blocks * p.blockSize) = blocks := by
  have hpos := blockSize_pos p
  have hpow : ((2 ^ p.blockSizeShift : Nat) : Int) = p.blockSize := by
    rfl
  unfold SuperBlock.bytesToBlocks
  rw [Int.shiftRight_eq_div_pow, hpow, Int.add_comm, Int.add_mul_ediv_right _ _ (by omega),
    Int.ediv_eq_zero_of_lt (by omega) (by omega), Int.zero_add]

end SpriteKernel.Lfs
