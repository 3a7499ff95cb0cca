import Mathlib.Data.Int.Basic

/- The 32-bit integers of C on two's complement machines, as the integers they stand for. A signed value is an `Int`
   brought back into range by `int32`, an unsigned one a `Nat` brought back by `uint32`; sums and products may be
   formed first and wrapped once. -/
namespace Machine

/-- The signed 32-bit integer an operation leaves. -/
def int32 (x : Int) : Int := Int.bmod x 4294967296

/-- The unsigned 32-bit integer a value converts to. -/
def uint32 (x : Int) : Nat := (x % 4294967296).toNat

/-- The values of a signed 32-bit integer. -/
def IsInt32 (x : Int) : Prop := -2147483648 ≤ x ∧ x < 2147483648

theorem int32_of_fits {x : Int} (h0 : -2147483648 ≤ x) (h1 : x < 2147483648) : int32 x = x :=
  Int.bmod_eq_of_le (by omega) (by omega)

theorem int32_natCast {n : Nat} (h : n < 2147483648) : int32 n = n :=
  int32_of_fits (by omega) (by omega)

theorem uint32_eq_mod (n : Nat) : uint32 n = n % 4294967296 := by
  show ((n : Int) % (4294967296 : Nat)).toNat = _
  rw [← Int.natCast_emod, Int.toNat_natCast]

theorem uint32_natCast {n : Nat} (h : n < 4294967296) : uint32 n = n := by
  rw [uint32_eq_mod, Nat.mod_eq_of_lt h]

theorem int32_lt (x : Int) : int32 x < 2147483648 := by
  rw [int32, Int.bmod_def]
  split <;> omega

theorem le_int32 (x : Int) : -2147483648 ≤ int32 x := by
  rw [int32, Int.bmod_def]
  split <;> omega

theorem isInt32_int32 (x : Int) : IsInt32 (int32 x) := ⟨le_int32 x, int32_lt x⟩

theorem int32_spec (x : Int) : ∃ k, int32 x = x + 4294967296 * k := by
  refine ⟨-((x + 2147483648) / 4294967296), ?_⟩
  rw [int32, Int.bmod_def]
  split <;> omega

end Machine
