import Mathlib.Data.Nat.Basic

/- Data striped over the columns of an array of disks. A stripe is one unit on each of `cols` columns, in one row and
   at one height; the first `width` carry data. An `Address` names a sector by its stripe, its unit, and its offset
   in the unit. -/
namespace Striping

@[ext] structure Address where
  stripe : Nat
  unit : Nat
  offset : Nat
  deriving DecidableEq

theorem quotient_of_lt {q m r : Nat} (h : r < m) : (q * m + r) / m = q := by
  rw [Nat.mul_comm, Nat.mul_add_div (by omega), Nat.div_eq_of_lt h, Nat.add_zero]

section numbers
variable {unit width : Nat} {a : Address}

/-- The number of a data sector, counted stripe after stripe. -/
def number (unit width : Nat) (a : Address) : Nat := (a.stripe * width + a.unit) * unit + a.offset

/-- The address of the data sector of a number. -/
def address (unit width n : Nat) : Address := ⟨n / unit / width, n / unit % width, n % unit⟩

theorem number_address (n : Nat) : number unit width (address unit width n) = n := by
  simp only [number, address, Nat.div_add_mod']

theorem address_number (hu : a.unit < width) (ho : a.offset < unit) : address unit width (number unit width a) = a := by
  have hdiv : number unit width a / unit = a.stripe * width + a.unit := quotient_of_lt ho
  apply Address.ext
  · show number unit width a / unit / width = a.stripe
    rw [hdiv, quotient_of_lt hu]
  · show number unit width a / unit % width = a.unit
    rw [hdiv, Nat.mul_add_mod_of_lt hu]
  · exact Nat.mul_add_mod_of_lt ho

theorem number_lt {stripes : Nat} (hs : a.stripe < stripes) (hu : a.unit < width)
    (ho : a.offset < unit) : number unit width a < stripes * width * unit := by
  have hunits : a.stripe * width + a.unit < stripes * width :=
    calc a.stripe * width + a.unit < (a.stripe + 1) * width := by rw [Nat.succ_mul]; omega
      _ ≤ stripes * width := Nat.mul_le_mul_right width hs
  calc number unit width a < (a.stripe * width + a.unit + 1) * unit := by rw [number, Nat.succ_mul]; omega
    _ ≤ stripes * width * unit := Nat.mul_le_mul_right unit hunits

theorem stripe_address_lt {stripes n : Nat} (h : n < stripes * width * unit) :
    (address unit width n).stripe < stripes := by
  show n / unit / width < stripes
  rw [Nat.div_div_eq_div_mul]
  apply Nat.div_lt_of_lt_mul
  rw [Nat.mul_comm, Nat.mul_comm unit width, ← Nat.mul_assoc]
  exact h

end numbers

section places
variable {unit rows cols : Nat} {rot : Nat → Nat → Nat} {height : Nat} {a b : Address} {p : Place}

/-- A sector of a disk: its column, its row and its number on the disk. -/
@[ext] structure Place where
  col : Nat
  row : Nat
  sector : Nat
  deriving DecidableEq

/-- Where an address lies, when unit `c` of stripe `k` is in column `rot k c`. -/
def place (unit rows : Nat) (rot : Nat → Nat → Nat) (a : Address) : Place where
  col := rot a.stripe a.unit
  row := a.stripe % rows
  sector := a.stripe / rows * unit + a.offset

theorem stripe_eq_of_place (ha : a.offset < unit) (hb : b.offset < unit)
    (hrow : (place unit rows rot a).row = (place unit rows rot b).row)
    (hsec : (place unit rows rot a).sector = (place unit rows rot b).sector) :
    a.stripe = b.stripe ∧ a.offset = b.offset := by
  have hoff : a.offset = b.offset := by
    have h := congrArg (· % unit) hsec
    simpa only [place, Nat.mul_add_mod_of_lt ha, Nat.mul_add_mod_of_lt hb] using h
  have hheight : a.stripe / rows = b.stripe / rows := by
    have h := congrArg (· / unit) hsec
    simpa only [place, quotient_of_lt ha, quotient_of_lt hb] using h
  have hstripe : a.stripe = b.stripe := by
    rw [← Nat.div_add_mod a.stripe rows, ← Nat.div_add_mod b.stripe rows, hheight]
    exact congrArg _ hrow
  exact ⟨hstripe, hoff⟩

theorem place_injective (hrot : ∀ k c d, c < cols → d < cols → rot k c = rot k d → c = d)
    (ha : a.offset < unit) (hb : b.offset < unit) (hac : a.unit < cols) (hbc : b.unit < cols)
    (h : place unit rows rot a = place unit rows rot b) : a = b := by
  obtain ⟨hs, ho⟩ := stripe_eq_of_place ha hb (congrArg Place.row h) (congrArg Place.sector h)
  have hcol : rot a.stripe a.unit = rot b.stripe b.unit := congrArg Place.col h
  rw [hs] at hcol
  exact Address.ext hs (hrot b.stripe a.unit b.unit hac hbc hcol) ho

theorem stripe_of_place (hrow : p.row < rows) (hsec : p.sector < height * unit) :
    p.sector / unit * rows + p.row < height * rows := by
  have hh : p.sector / unit < height := Nat.div_lt_of_lt_mul (by rw [Nat.mul_comm]; exact hsec)
  calc p.sector / unit * rows + p.row < (p.sector / unit + 1) * rows := by rw [Nat.succ_mul]; omega
    _ ≤ height * rows := Nat.mul_le_mul_right rows hh

/-- Every sector of the disks is the place of some address, if the units of a
    stripe take every column. -/
theorem exists_place (hrot : ∀ k c, c < cols → ∃ d < cols, rot k d = c)
    (hcol : p.col < cols) (hrow : p.row < rows) (hsec : p.sector < height * unit) :
    ∃ a : Address, a.stripe < height * rows ∧ a.unit < cols ∧ a.offset < unit ∧ place unit rows rot a = p := by
  have hunit : 0 < unit := by
    rcases Nat.eq_zero_or_pos unit with h | h
    · rw [h, Nat.mul_zero] at hsec
      exact absurd hsec (Nat.not_lt_zero _)
    · exact h
  obtain ⟨c, hc, hrc⟩ := hrot (p.sector / unit * rows + p.row) p.col hcol
  refine ⟨⟨p.sector / unit * rows + p.row, c, p.sector % unit⟩, stripe_of_place hrow hsec, hc,
    Nat.mod_lt _ hunit, ?_⟩
  apply Place.ext
  · exact hrc
  · exact Nat.mul_add_mod_of_lt hrow
  · show (p.sector / unit * rows + p.row) / rows * unit + p.sector % unit = p.sector
    rw [quotient_of_lt hrow, Nat.div_add_mod']

theorem place_sector_lt {a : Address} (hs : a.stripe < height * rows) (ho : a.offset < unit) :
    (place unit rows rot a).sector < height * unit := by
  have hh : a.stripe / rows < height := Nat.div_lt_of_lt_mul (by rw [Nat.mul_comm]; exact hs)
  calc a.stripe / rows * unit + a.offset < (a.stripe / rows + 1) * unit := by rw [Nat.succ_mul]; omega
    _ ≤ height * unit := Nat.mul_le_mul_right unit hh

end places

section rotations
variable {cols k c d : Nat}

/-- The two rotations: a stripe's units move right, or left, by its number. -/
def rotateRight (cols k c : Nat) : Nat := (c + k) % cols
def rotateLeft (cols k c : Nat) : Nat := (((c : Int) - k) % cols).toNat

theorem rotateLeft_cast (hcols : 0 < cols) : (rotateLeft cols k c : Int) = ((c : Int) - k) % cols :=
  Int.toNat_of_nonneg (Int.emod_nonneg _ (by omega))

theorem rotateLeft_lt (hcols : 0 < cols) : rotateLeft cols k c < cols := by
  have h : ((c : Int) - k) % cols < cols := Int.emod_lt_of_pos _ (by omega)
  rw [← rotateLeft_cast hcols] at h
  omega

theorem rotateRight_rotateLeft (hc : c < cols) : rotateRight cols k (rotateLeft cols k c) = c := by
  have h : ((rotateRight cols k (rotateLeft cols k c) : Nat) : Int) = c := by
    rw [rotateRight, Int.natCast_emod, Int.natCast_add, rotateLeft_cast (by omega), Int.emod_add_emod,
      Int.sub_add_cancel, Int.emod_eq_of_lt (by omega) (by omega)]
  omega

theorem rotateLeft_rotateRight (hc : c < cols) : rotateLeft cols k (rotateRight cols k c) = c := by
  have h : ((rotateLeft cols k (rotateRight cols k c) : Nat) : Int) = c := by
    rw [rotateLeft_cast (by omega), rotateRight, Int.natCast_emod, Int.natCast_add, Int.emod_sub_emod,
      Int.add_sub_cancel, Int.emod_eq_of_lt (by omega) (by omega)]
  omega

end rotations
end Striping
