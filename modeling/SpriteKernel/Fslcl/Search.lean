import SpriteKernel.Fslcl.Records

/- Where the walks over the blocks of a directory come to. -/
namespace SpriteKernel.Fslcl

open List
open Bytes

variable {d : Directory} {rs : List Int} {stop : Int → Bool} {n : Int} {fuel : Nat}

theorem blockLength_eq (h : n * fsBlockSize ≤ d.size) : d.blockLength n = min fsBlockSize (d.size - n * fsBlockSize) := by
  unfold Directory.blockLength
  split_ifs with hn
  · simp only [fsBlockSize] at *
    omega
  · rfl

theorem block_split (h : Tiled d.data rs (n * fsBlockSize) d.size) (hc : d.size % dirBlockSize = 0) :
    ∃ l r, rs = l ++ r ∧ Tiled d.data l (n * fsBlockSize) (n * fsBlockSize + d.blockLength n) ∧
      Tiled d.data r (n * fsBlockSize + d.blockLength n) d.size := by
  have hle := h.le
  have hlen := blockLength_eq (d := d) (n := n) (by omega)
  apply h.split
  all_goals
    simp only [fsBlockSize, dirBlockSize] at *
    omega

theorem scanBlock_eq (stop : Int → Bool) {b : Buffer} {base length : Int} (h : Tiled b rs base (base + length))
    (hbase : base % dirBlockSize = 0) :
    match firstStop b stop rs none with
    | some (r, l) => r < base + length ∧ scanBlock b stop base length = some (r - base, l.map (· - base))
    | none => ∃ l, scanBlock b stop base length = some (length, l) := by
  have hle := h.le
  have h' : Tiled b rs (base + 0) (base + length) := by rwa [Int.add_zero]
  exact scan_eq stop none h' hbase (by omega)

theorem block_start (n : Int) : n * fsBlockSize % dirBlockSize = 0 := by
  simp only [fsBlockSize, dirBlockSize]
  omega

/-- A turn over a block: there is no such block, the walk stops in it, or it goes on behind it. -/
theorem block_turn (stop : Int → Bool) (h : Tiled d.data rs (n * fsBlockSize) d.size) (hc : d.size % dirBlockSize = 0) :
    (d.blockLength n = 0 ∧ rs = [] ∧ d.size = n * fsBlockSize) ∨
    (d.blockLength n ≠ 0 ∧ n * fsBlockSize + d.blockLength n ≤ d.size ∧
      ∃ p last, firstStop d.data stop rs none = some (p, last) ∧ p - n * fsBlockSize < d.blockLength n ∧
        scanBlock d.data stop (n * fsBlockSize) (d.blockLength n) =
          some (p - n * fsBlockSize, last.map (· - n * fsBlockSize))) ∨
    (d.blockLength n ≠ 0 ∧
      (∃ last, scanBlock d.data stop (n * fsBlockSize) (d.blockLength n) = some (d.blockLength n, last)) ∧
      ∃ r, firstStop d.data stop rs none = firstStop d.data stop r none ∧
        (d.blockLength n = fsBlockSize ∧ Tiled d.data r ((n + 1) * fsBlockSize) d.size ∨
          d.blockLength n < fsBlockSize ∧ d.size = n * fsBlockSize + d.blockLength n ∧ r = [])) := by
  have hle := h.le
  have hlen := blockLength_eq (d := d) (n := n) (by omega)
  obtain ⟨l, r, rfl, hl, hr⟩ := block_split h hc
  have hle' := hr.le
  have hend : (n * fsBlockSize + d.blockLength n) % dirBlockSize = 0 := by
    simp only [fsBlockSize, dirBlockSize] at *
    omega
  have hfirst := firstStop_append stop r hl hend fun _ => rfl
  have hscan := scanBlock_eq stop hl (block_start n)
  by_cases h0 : d.blockLength n = 0
  · refine .inl ⟨h0, length_eq_zero_iff.1 ?_, ?_⟩
    all_goals
      simp only [fsBlockSize] at *
      omega
  · rw [hfirst]
    cases hstop : firstStop d.data stop l none with
    | some found =>
      obtain ⟨p, last⟩ := found
      rw [hstop] at hscan
      exact .inr (.inl ⟨h0, by omega, p, last, rfl, by omega, hscan.2⟩)
    | none =>
      rw [hstop] at hscan
      refine .inr (.inr ⟨h0, hscan, r, Option.none_or, ?_⟩)
      by_cases hfull : d.blockLength n = fsBlockSize
      · have hnext : (n + 1) * fsBlockSize = n * fsBlockSize + d.blockLength n := by
          rw [hfull, Int.add_mul, Int.one_mul]
        exact .inl ⟨hfull, hnext ▸ hr⟩
      · -- the block is the last one
        refine .inr ⟨by omega, ?_, length_eq_zero_iff.1 ?_⟩
        all_goals
          omega

theorem searchLoop_eq (h : Tiled d.data rs (n * fsBlockSize) d.size) (hc : d.size % dirBlockSize = 0)
    (hfuel : d.size - n * fsBlockSize + fsBlockSize < fuel * fsBlockSize) :
    match firstStop d.data stop rs none with
    | some (r, l) => ∃ m, d.searchLoop stop fuel n = some (some (m, r - m * fsBlockSize, l.map (· - m * fsBlockSize)))
    | none => d.searchLoop stop fuel n = some none := by
  induction fuel generalizing n rs with
  | zero =>
    have hle := h.le
    simp only [fsBlockSize] at *
    omega
  | succ fuel ih =>
    unfold Directory.searchLoop
    obtain ⟨h0, rfl, -⟩ | ⟨h0, -, p, last, hfirst, hin, hscan⟩ | ⟨h0, ⟨last, hscan⟩, r, hfirst, hnext⟩ := block_turn stop h hc
    · simp [firstStop, h0]
    · rw [hfirst]
      refine ⟨n, ?_⟩
      simp [h0, hscan, hin]
    · rw [hfirst]
      simp only [h0, if_false, hscan, Int.lt_irrefl]
      obtain ⟨-, hr⟩ | ⟨hlt, hsize, rfl⟩ := hnext
      · apply ih hr
        simp only [fsBlockSize] at *
        omega
      · have hnone : d.blockLength (n + 1) = 0 := by
          unfold Directory.blockLength
          rw [if_pos]
          simp only [fsBlockSize] at *
          omega
        obtain ⟨fuel, rfl⟩ : ∃ k, fuel = k + 1 := ⟨fuel - 1, by
          have hle := h.le
          simp only [fsBlockSize] at hfuel hlt hsize hle
          omega⟩
        simp [firstStop, Directory.searchLoop, hnone]

/-- The loop of `InsertComponent` comes to the first record with room, or to a new chunk at the end. -/
theorem slotLoop_eq (need : Int) (h : Tiled d.data rs (n * fsBlockSize) d.size)
    (hc : d.size % dirBlockSize = 0) (hfuel : d.size - n * fsBlockSize + fsBlockSize < fuel * fsBlockSize) :
    match firstStop d.data (hasRoom d.data need) rs none with
    | some (r, _) => ∃ m, d.slotLoop need fuel n = some (d.data, m, r - m * fsBlockSize, d.blockLength m) ∧
        m * fsBlockSize + d.blockLength m ≤ d.size
    | none => ∃ m data, d.slotLoop need fuel n =
        some (setShort (d.size + 4) dirBlockSize data, m, d.size - m * fsBlockSize, d.size - m * fsBlockSize + dirBlockSize) ∧
        (∀ k, k < d.size → data k = d.data k) ∧ ∀ k, d.size ≤ k → k < d.size + dirBlockSize → data k = 0 := by
  have hzero : ∀ b : Buffer, ∀ k, d.size ≤ k → k < d.size + dirBlockSize → setBytes d.size (List.replicate 512 0) b k = 0 := by
    intro b k h1 h2
    simp only [dirBlockSize] at h2
    unfold setBytes
    rw [if_pos (by simp only [length_replicate]; omega), getD_eq_getElem?_getD, List.getElem?_replicate]
    split_ifs <;> rfl
  induction fuel generalizing n rs with
  | zero =>
    have hle := h.le
    simp only [fsBlockSize] at *
    omega
  | succ fuel ih =>
    unfold Directory.slotLoop
    obtain ⟨h0, rfl, hsize⟩ | ⟨h0, hle, p, last, hfirst, hin, hscan⟩ | ⟨h0, ⟨last, hscan⟩, r, hfirst, hnext⟩ :=
      block_turn (hasRoom d.data need) h hc
    · -- a block that the directory does not have yet
      have hnone : scanBlock (setBytes (n * fsBlockSize) (List.replicate 4096 0) d.data)
          (hasRoom (setBytes (n * fsBlockSize) (List.replicate 4096 0) d.data) need) (n * fsBlockSize) 0 = some (0, none) := rfl
      have hpos : (0 : Int) < fsBlockSize := by decide
      simp only [h0, if_true, firstStop]
      rw [hnone]
      refine ⟨n, setBytes d.size (List.replicate 512 0) (setBytes (n * fsBlockSize) (List.replicate 4096 0) d.data),
        ?_, fun k hk => ?_, hzero _⟩
      · rw [hsize, Int.sub_self]
        simp only [Int.lt_irrefl, if_false, if_pos hpos, Int.add_zero]
      · rw [setBytes_of_outside (by omega), setBytes_of_outside (by omega)]
    · rw [hfirst]
      refine ⟨n, ?_, hle⟩
      simp [h0, hscan, hin]
    · rw [hfirst]
      simp only [h0, if_false, hscan, Int.lt_irrefl]
      obtain ⟨hfull, hr⟩ | ⟨hlt, hsize, rfl⟩ := hnext
      · rw [hfull]
        apply ih hr
        simp only [fsBlockSize] at *
        omega
      · -- the block has room for another chunk
        have hat : d.size - n * fsBlockSize = d.blockLength n := by omega
        rw [if_pos hlt, ← hsize, ← hat]
        exact ⟨n, setBytes d.size (List.replicate 512 0) d.data, rfl, fun k hk => setBytes_of_outside (by omega) _, hzero _⟩

theorem search_eq (stop : Int → Bool) (h : Tiled d.data rs 0 d.size) (hc : d.size % dirBlockSize = 0) :
    match firstStop d.data stop rs none with
    | some (r, l) => ∃ m, d.search stop = some (some (m, r - m * fsBlockSize, l.map (· - m * fsBlockSize)))
    | none => d.search stop = some none := by
  have h' : Tiled d.data rs (0 * fsBlockSize) d.size := by rwa [Int.zero_mul]
  apply searchLoop_eq h' hc
  simp only [fsBlockSize]
  omega

end SpriteKernel.Fslcl
