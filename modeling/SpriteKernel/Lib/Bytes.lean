import Mathlib.Algebra.Group.Int.Defs

/- Bytes by offset, the 32-bit and 16-bit words in them, rows of bytes, and buffers of which the
   front has been overwritten. Words are stored with the high byte first. -/
namespace Bytes

open List

/-- A piece of memory or disk. -/
abbrev Buffer := Int → UInt8

def word (b : Buffer) (i : Int) : Nat :=
  (b i).toNat * 16777216 + (b (i + 1)).toNat * 65536 + (b (i + 2)).toNat * 256 + (b (i + 3)).toNat

def setWord (i : Int) (v : Nat) (b : Buffer) : Buffer := fun k =>
  if k = i then UInt8.ofNat (v / 16777216)
  else if k = i + 1 then UInt8.ofNat (v / 65536)
  else if k = i + 2 then UInt8.ofNat (v / 256)
  else if k = i + 3 then UInt8.ofNat v
  else b k

/-- The word as a signed number. -/
def int (b : Buffer) (i : Int) : Int := Int.bmod (word b i) 4294967296

/-- A signed number is stored. -/
def setInt (i n : Int) (b : Buffer) : Buffer := setWord i (n % 4294967296).toNat b

/-- The 16-bit word at an offset. -/
def half (b : Buffer) (i : Int) : Nat := (b i).toNat * 256 + (b (i + 1)).toNat

/-- A 16-bit word is stored. -/
def setHalf (i : Int) (v : Nat) (b : Buffer) : Buffer := fun k =>
  if k = i then UInt8.ofNat (v / 256)
  else if k = i + 1 then UInt8.ofNat v
  else b k

/-- The 16-bit word as a signed number. -/
def short (b : Buffer) (i : Int) : Int := Int.bmod (half b i) 65536

/-- A signed 16-bit number is stored. -/
def setShort (i n : Int) (b : Buffer) : Buffer := setHalf i (n % 65536).toNat b

/-- `n` bytes from an offset on. -/
def bytesFrom (b : Buffer) (i : Int) (n : Nat) : List UInt8 := (List.range n).map (fun k : Nat => b (i + k))

/-- Bytes are stored from an offset on. -/
def setBytes (i : Int) (bytes : List UInt8) (b : Buffer) : Buffer := fun k =>
  if i ≤ k ∧ k < i + bytes.length then bytes.getD (k - i).toNat 0 else b k

def tail (i : Int) (b : Buffer) : Buffer := fun k => b (i + k)

/-- `old` with its first `n` bytes taken from `new`. -/
def overwrite (n : Int) (new old : Buffer) : Buffer := fun k => if k < n then new k else old k

/-- Two buffers have the same first `n` bytes. -/
def Same (n : Int) (b c : Buffer) : Prop := ∀ k, 0 ≤ k → k < n → b k = c k

variable {b c : Buffer} {i : Int}

theorem word_congr (h : ∀ k, i ≤ k → k < i + 4 → b k = c k) : word b i = word c i := by
  unfold word
  rw [h i (by omega) (by omega), h (i + 1) (by omega) (by omega), h (i + 2) (by omega) (by omega),
    h (i + 3) (by omega) (by omega)]

theorem int_congr (h : ∀ k, i ≤ k → k < i + 4 → b k = c k) : int b i = int c i := by
  unfold int
  rw [word_congr h]

variable {k : Int}

theorem setWord_of_outside (h : k < i ∨ i + 4 ≤ k) (v : Nat) (b : Buffer) : setWord i v b k = b k := by
  unfold setWord
  rw [if_neg (by omega), if_neg (by omega), if_neg (by omega), if_neg (by omega)]

theorem word_setWord_self {v : Nat} (hv : v < 4294967296) (i : Int) (b : Buffer) : word (setWord i v b) i = v := by
  have h0 : setWord i v b i = UInt8.ofNat (v / 16777216) := if_pos rfl
  have h1 : setWord i v b (i + 1) = UInt8.ofNat (v / 65536) := by
    unfold setWord
    rw [if_neg (by omega), if_pos rfl]
  have h2 : setWord i v b (i + 2) = UInt8.ofNat (v / 256) := by
    unfold setWord
    rw [if_neg (by omega), if_neg (by omega), if_pos rfl]
  have h3 : setWord i v b (i + 3) = UInt8.ofNat v := by
    unfold setWord
    rw [if_neg (by omega), if_neg (by omega), if_neg (by omega), if_pos rfl]
  unfold word
  rw [h0, h1, h2, h3]
  simp only [UInt8.toNat_ofNat']
  omega

variable {j : Int}

theorem word_setWord_of_disjoint (h : j + 4 ≤ i ∨ i + 4 ≤ j) (v : Nat) (b : Buffer) :
    word (setWord i v b) j = word b j :=
  word_congr (fun k h1 h2 => setWord_of_outside (by omega) v b)

theorem setInt_of_outside (h : k < i ∨ i + 4 ≤ k) (n : Int) (b : Buffer) : setInt i n b k = b k :=
  setWord_of_outside h _ b

variable {n : Int} {bytes : List UInt8}

theorem int_setInt_self (h0 : -2147483648 ≤ n) (h1 : n < 2147483648) (i : Int) (b : Buffer) :
    int (setInt i n b) i = n := by
  have hmod : (n % 4294967296).bmod 4294967296 = n.bmod 4294967296 := Int.emod_bmod n 4294967296
  unfold int setInt
  rw [word_setWord_self (by omega), Int.toNat_of_nonneg (by omega), hmod]
  exact Int.bmod_eq_of_le (by omega) (by omega)

theorem int_setInt_of_disjoint (h : j + 4 ≤ i ∨ i + 4 ≤ j) (n : Int) (b : Buffer) : int (setInt i n b) j = int b j :=
  int_congr (fun k h1 h2 => setInt_of_outside (by omega) n b)

theorem tail_add (i j k : Int) (b : Buffer) : tail i b (j + k) = b (i + j + k) := congrArg b (Int.add_assoc i j k).symm

theorem word_tail (i j : Int) (b : Buffer) : word (tail i b) j = word b (i + j) := by
  have hfirst : tail i b j = b (i + j) := rfl
  rw [word, tail_add, tail_add, tail_add, hfirst, word]

theorem int_tail (i j : Int) (b : Buffer) : int (tail i b) j = int b (i + j) := by
  unfold int
  rw [word_tail]

theorem half_tail (i j : Int) (b : Buffer) : half (tail i b) j = half b (i + j) := by
  have hfirst : tail i b j = b (i + j) := rfl
  rw [half, tail_add, hfirst, half]

theorem bytesFrom_tail (i j : Int) (n : Nat) (b : Buffer) : bytesFrom (tail i b) j n = bytesFrom b (i + j) n :=
  map_congr_left (fun k _ => tail_add i j k b)

theorem half_congr (h : ∀ k, i ≤ k → k < i + 2 → b k = c k) : half b i = half c i := by
  rw [half, half, h i (by omega) (by omega), h (i + 1) (by omega) (by omega)]

theorem setHalf_of_outside (h : k < i ∨ i + 2 ≤ k) (v : Nat) (b : Buffer) : setHalf i v b k = b k := by
  rw [setHalf, if_neg (by omega), if_neg (by omega)]

theorem half_setHalf_self {v : Nat} (hv : v < 65536) (i : Int) (b : Buffer) : half (setHalf i v b) i = v := by
  have h0 : setHalf i v b i = UInt8.ofNat (v / 256) := if_pos rfl
  have h1 : setHalf i v b (i + 1) = UInt8.ofNat v := by
    rw [setHalf, if_neg (by omega), if_pos rfl]
  rw [half, h0, h1, UInt8.toNat_ofNat', UInt8.toNat_ofNat']
  omega

theorem half_setHalf_of_disjoint (h : j + 2 ≤ i ∨ i + 2 ≤ j) (v : Nat) (b : Buffer) :
    half (setHalf i v b) j = half b j :=
  half_congr (fun k h1 h2 => setHalf_of_outside (by omega) v b)

theorem half_setInt_of_disjoint (h : j + 2 ≤ i ∨ i + 4 ≤ j) (n : Int) (b : Buffer) : half (setInt i n b) j = half b j :=
  half_congr (fun k h1 h2 => setInt_of_outside (by omega) n b)

theorem short_congr (h : ∀ k, i ≤ k → k < i + 2 → b k = c k) : short b i = short c i := by
  unfold short
  rw [half_congr h]

theorem setShort_of_outside (h : k < i ∨ i + 2 ≤ k) (n : Int) (b : Buffer) : setShort i n b k = b k :=
  setHalf_of_outside h _ b

theorem short_setShort_self (h0 : -32768 ≤ n) (h1 : n < 32768) (i : Int) (b : Buffer) :
    short (setShort i n b) i = n := by
  have hmod : (n % 65536).bmod 65536 = n.bmod 65536 := Int.emod_bmod n 65536
  unfold short setShort
  rw [half_setHalf_self (by omega), Int.toNat_of_nonneg (by omega), hmod]
  exact Int.bmod_eq_of_le (by omega) (by omega)

theorem short_setInt_of_disjoint (h : j + 2 ≤ i ∨ i + 4 ≤ j) (n : Int) (b : Buffer) :
    short (setInt i n b) j = short b j :=
  short_congr (fun k h1 h2 => setInt_of_outside (by omega) n b)

theorem short_setShort_of_disjoint (h : j + 2 ≤ i ∨ i + 2 ≤ j) (n : Int) (b : Buffer) :
    short (setShort i n b) j = short b j :=
  short_congr (fun k h1 h2 => setShort_of_outside (by omega) n b)

theorem bytesFrom_congr {n : Nat} (h : ∀ k, i ≤ k → k < i + n → b k = c k) : bytesFrom b i n = bytesFrom c i n := by
  apply map_congr_left
  intro k hk
  have hlt := mem_range.mp hk
  exact h _ (by omega) (by omega)

theorem setBytes_of_outside (h : k < i ∨ i + bytes.length ≤ k) (b : Buffer) : setBytes i bytes b k = b k :=
  if_neg (by omega)

theorem short_setBytes_of_disjoint (h : j + 2 ≤ i ∨ i + bytes.length ≤ j) (b : Buffer) :
    short (setBytes i bytes b) j = short b j :=
  short_congr (fun k h1 h2 => setBytes_of_outside (by omega) b)

theorem setBytes_nil (i : Int) (c : Buffer) : setBytes i [] c = c := by
  funext k
  exact setBytes_of_outside (by rw [length_nil]; omega) c

theorem bytesFrom_setBytes_self (i : Int) (bytes : List UInt8) (b : Buffer) :
    bytesFrom (setBytes i bytes b) i bytes.length = bytes := by
  apply ext_getElem
  · rw [bytesFrom, length_map, length_range]
  · intro k hk hk'
    have hat : (i + (k : Int) - i).toNat = k := by omega
    have hget : (bytesFrom (setBytes i bytes b) i bytes.length)[k] = setBytes i bytes b (i + (k : Int)) := by
      simp only [bytesFrom, getElem_map, getElem_range]
    rw [hget, setBytes, if_pos (by omega), hat, getD_eq_getElem?_getD,
      List.getElem?_eq_getElem hk', Option.getD_some]

theorem overwrite_of_lt (h : k < n) (new old : Buffer) : overwrite n new old k = new k := if_pos h

theorem overwrite_of_le (h : n ≤ k) (new old : Buffer) : overwrite n new old k = old k :=
  if_neg (by omega)

theorem Same.word (h : Same n b c) (h0 : 0 ≤ i) (hi : i + 4 ≤ n) : word b i = word c i :=
  word_congr (fun k h1 h2 => h k (by omega) (by omega))

theorem Same.int (h : Same n b c) (h0 : 0 ≤ i) (hi : i + 4 ≤ n) : int b i = int c i :=
  int_congr (fun k h1 h2 => h k (by omega) (by omega))

theorem same_overwrite {m : Int} (h : m ≤ n) (new old : Buffer) : Same m (overwrite n new old) new :=
  fun k _ hk => overwrite_of_lt (by omega) new old

end Bytes
