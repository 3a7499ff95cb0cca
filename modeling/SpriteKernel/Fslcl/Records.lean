import SpriteKernel.Fslcl.Directory
import Mathlib.Logic.Basic
import Mathlib.Tactic.SplitIfs

/- A directory file is tiled by its records. What holds of one record, and of a row of them. -/
namespace SpriteKernel.Fslcl

open List
open Bytes

def view (b : Buffer) (p : Int) : Option (Name × Int) :=
  if fileNumber b p ≠ 0 then some (bytesFrom b (p + 8) (nameLength b p).toNat, fileNumber b p) else none

/-- A record of positive length inside its chunk; in use it has room for header, name and NUL. -/
structure Record (b : Buffer) (p : Int) : Prop where
  header : 8 ≤ recordLength b p
  inside : p % dirBlockSize + recordLength b p ≤ dirBlockSize
  named : fileNumber b p ≠ 0 → 1 ≤ nameLength b p
  room : fileNumber b p ≠ 0 → dirRecLength (nameLength b p) ≤ recordLength b p
  nul : fileNumber b p ≠ 0 → b (p + 8 + nameLength b p) = 0
  chars : fileNumber b p ≠ 0 → ∀ c ∈ bytesFrom b (p + 8) (nameLength b p).toNat, c ≠ 0

/-- Records one behind the other from one offset to another. -/
def Tiled (b : Buffer) : List Int → Int → Int → Prop
  | [], p, q => p = q
  | r :: rs, p, q => r = p ∧ Record b p ∧ Tiled b rs (p + recordLength b p) q

/-- What the records in use say. -/
def entries (b : Buffer) (rs : List Int) : List (Name × Int) := rs.filterMap (view b)

theorem le_dirRecLength {n : Int} (h : 0 ≤ n) : 9 + n ≤ dirRecLength n ∧ dirRecLength n ≤ 12 + n := by
  unfold dirRecLength
  rw [Int.tdiv_eq_ediv_of_nonneg h]
  omega

theorem Record.congr {b c : Buffer} {p : Int} (h : Record b p) (hk : ∀ k, p ≤ k → k < p + recordLength b p → c k = b k) :
    fileNumber c p = fileNumber b p ∧ recordLength c p = recordLength b p ∧ view c p = view b p ∧ Record c p := by
  have hlen := h.header
  have hnum : fileNumber c p = fileNumber b p := int_congr fun k h1 h2 => hk k h1 (by omega)
  have hrec : recordLength c p = recordLength b p := short_congr fun k h1 h2 => hk k (by omega) (by omega)
  have hname : nameLength c p = nameLength b p := short_congr fun k h1 h2 => hk k (by omega) (by omega)
  have hbytes : fileNumber b p ≠ 0 → bytesFrom c (p + 8) (nameLength b p).toNat = bytesFrom b (p + 8) (nameLength b p).toNat := by
    intro hu
    have hn := h.named hu
    have hr := h.room hu
    have hd := (le_dirRecLength (n := nameLength b p) (by omega)).1
    exact bytesFrom_congr fun k h1 h2 => hk k (by omega) (by omega)
  refine ⟨hnum, hrec, ?_, ⟨?_, ?_, ?_, ?_, ?_, ?_⟩⟩
  · unfold view
    rw [hnum, hname]
    split_ifs with hu
    · rw [hbytes hu]
    · rfl
  · rw [hrec]
    exact h.header
  · rw [hrec]
    exact h.inside
  · rw [hnum, hname]
    exact h.named
  · rw [hnum, hname, hrec]
    exact h.room
  · rw [hnum, hname]
    intro hu
    have hn := h.named hu
    have hr := h.room hu
    have hd := (le_dirRecLength (n := nameLength b p) (by omega)).1
    rw [hk _ (by omega) (by omega)]
    exact h.nul hu
  · rw [hnum, hname]
    intro hu
    rw [hbytes hu]
    exact h.chars hu

namespace Tiled
variable {b c : Buffer} {rs rs' : List Int} {p q m : Int}

theorem le (h : Tiled b rs p q) : p + 8 * rs.length ≤ q := by
  induction rs generalizing p with
  | nil =>
    simp only [Tiled] at h
    simp only [length_nil]
    omega
  | cons r rs ih =>
    obtain ⟨-, hr, htail⟩ := h
    have := ih htail
    have := hr.header
    simp only [length_cons]
    omega

theorem append : Tiled b (rs ++ rs') p q ↔ ∃ m, Tiled b rs p m ∧ Tiled b rs' m q := by
  induction rs generalizing p with
  | nil => simp [Tiled]
  | cons r rs ih =>
    simp only [cons_append, Tiled, ih]
    constructor
    · rintro ⟨hp, hr, m, h1, h2⟩
      exact ⟨m, ⟨hp, hr, h1⟩, h2⟩
    · rintro ⟨m, ⟨hp, hr, h1⟩, h2⟩
      exact ⟨hp, hr, m, h1, h2⟩

theorem congr (h : Tiled b rs p q) (hk : ∀ k, p ≤ k → k < q → c k = b k) :
    Tiled c rs p q ∧ entries c rs = entries b rs := by
  induction rs generalizing p with
  | nil =>
    exact ⟨h, filterMap_nil.trans filterMap_nil.symm⟩
  | cons r rs ih =>
    obtain ⟨rfl, hr, htail⟩ := h
    have hle := htail.le
    have hlen := hr.header
    obtain ⟨-, hrec, hview, hr'⟩ := hr.congr (c := c) fun k h1 h2 => hk k h1 (by omega)
    obtain ⟨htail', hentries⟩ := ih htail fun k h1 h2 => hk k (by omega) h2
    refine ⟨⟨rfl, hr', ?_⟩, ?_⟩
    · rw [hrec]
      exact htail'
    · unfold entries at hentries ⊢
      rw [filterMap_cons, filterMap_cons, hview, hentries]

theorem split (h : Tiled b rs p q) (hp : p ≤ m) (hq : m ≤ q) (hm : m % dirBlockSize = 0) :
    ∃ l r, rs = l ++ r ∧ Tiled b l p m ∧ Tiled b r m q := by
  induction rs generalizing p with
  | nil =>
    simp only [Tiled] at h
    exact ⟨[], [], rfl, by simp only [Tiled]; omega, by simp only [Tiled]; omega⟩
  | cons r rs ih =>
    by_cases hpm : p = m
    · subst hpm
      exact ⟨[], r :: rs, rfl, rfl, h⟩
    · obtain ⟨hrp, hr, htail⟩ := h
      have hin := hr.inside
      simp only [dirBlockSize] at hin hm
      obtain ⟨l, t, rfl, hl, ht⟩ := ih htail (by omega)
      exact ⟨r :: l, t, rfl, ⟨hrp, hr, hl⟩, ht⟩

theorem record (h : Tiled b rs p q) {r : Int} (hr : r ∈ rs) : Record b r ∧ p ≤ r ∧ r + recordLength b r ≤ q := by
  induction rs generalizing p with
  | nil => nomatch hr
  | cons a rs ih =>
    obtain ⟨rfl, ha, htail⟩ := h
    have hle := htail.le
    have hlen := ha.header
    rcases mem_cons.1 hr with rfl | hr
    · exact ⟨ha, Int.le_refl _, by omega⟩
    · obtain ⟨h1, h2, h3⟩ := ih htail hr
      exact ⟨h1, by omega, h3⟩

end Tiled

/-! ## Walks -/

/-- Where a walk over a row of records stops, and the record before it in the same chunk. -/
def firstStop (b : Buffer) (stop : Int → Bool) : List Int → Option Int → Option (Int × Option Int)
  | [], _ => none
  | r :: rs, last =>
    if stop r then some (r, last)
    else firstStop b stop rs (if (r + recordLength b r) % dirBlockSize = 0 then none else some r)

variable {b : Buffer} {stop : Int → Bool} {rs : List Int} {base length : Int} {last : Option Int}

theorem firstStop_none : firstStop b stop rs last = none ↔ ∀ r ∈ rs, stop r = false := by
  induction rs generalizing last with
  | nil => simp [firstStop]
  | cons r rs ih =>
    unfold firstStop
    split_ifs with hs
    · simp [hs]
    all_goals simp [ih, hs]

theorem firstStop_some {last l : Option Int} {r : Int} (h : firstStop b stop rs last = some (r, l)) :
    stop r = true ∧ ∃ pre post, rs = pre ++ r :: post ∧
      ((pre = [] ∧ l = last) ∨ l = none ∨
        ∃ pre' t, pre = pre' ++ [t] ∧ l = some t ∧ (t + recordLength b t) % dirBlockSize ≠ 0) := by
  induction rs generalizing last with
  | nil => nomatch h
  | cons a rs ih =>
    unfold firstStop at h
    by_cases hs : stop a = true
    · rw [if_pos hs] at h
      cases h
      exact ⟨hs, [], rs, rfl, .inl ⟨rfl, rfl⟩⟩
    · rw [if_neg hs] at h
      obtain ⟨hr, pre, post, rfl, hcase⟩ := ih h
      refine ⟨hr, a :: pre, post, rfl, .inr ?_⟩
      rcases hcase with ⟨rfl, hl⟩ | hl | ⟨pre', t, rfl, hl, ht⟩
      · split_ifs at hl with hend
        · exact .inl hl
        · exact .inr ⟨[], a, rfl, hl, hend⟩
      · exact .inl hl
      · exact .inr ⟨a :: pre', t, rfl, hl, ht⟩

theorem firstStop_append (stop : Int → Bool) (r : List Int) {l : List Int} {p m : Int} (h : Tiled b l p m)
    (hm : m % dirBlockSize = 0) (hl : l = [] → last = none) :
    firstStop b stop (l ++ r) last = (firstStop b stop l last).or (firstStop b stop r none) := by
  induction l generalizing p last with
  | nil =>
    rw [hl rfl]
    rfl
  | cons a l ih =>
    obtain ⟨rfl, ha, htail⟩ := h
    simp only [cons_append, firstStop]
    split_ifs with hs hend
    · rfl
    · exact ih htail fun _ => rfl
    · apply ih htail
      rintro rfl
      exact absurd (htail ▸ hm) hend

/-- The walk of a function over a block is the walk over the records of the block. -/
theorem scan_eq (stop : Int → Bool) {off : Int} {fuel : Nat} (last : Option Int)
    (h : Tiled b rs (base + off) (base + length))
    (hbase : base % dirBlockSize = 0) (hfuel : rs.length < fuel) :
    match firstStop b stop rs (last.map (base + ·)) with
    | some (r, l) => r < base + length ∧ scan b stop base length fuel off last = some (r - base, l.map (· - base))
    | none => ∃ l, scan b stop base length fuel off last = some (length, l) := by
  induction rs generalizing off fuel last with
  | nil =>
    simp only [Tiled] at h
    obtain ⟨fuel, rfl⟩ : ∃ n, fuel = n + 1 := ⟨fuel - 1, by simp at hfuel; omega⟩
    have hoff : ¬(off < length ∧ stop (base + off) = false) := by omega
    refine ⟨last, ?_⟩
    rw [scan, if_neg hoff]
    have : off = length := by omega
    rw [this]
  | cons r rs ih =>
    obtain ⟨rfl, hr, htail⟩ := h
    have hlen := hr.header
    have hle := htail.le
    obtain ⟨fuel, rfl⟩ : ∃ n, fuel = n + 1 := ⟨fuel - 1, by simp at hfuel; omega⟩
    simp only [length_cons] at hfuel
    unfold firstStop scan
    by_cases hs : stop (base + off) = true
    · have hn : ¬(off < length ∧ stop (base + off) = false) := by simp [hs]
      rw [if_pos hs, if_neg hn]
      have hoff : base + off - base = off := by omega
      refine ⟨by omega, ?_⟩
      cases last with
      | none => simp [hoff]
      | some l =>
        have hl : base + l - base = l := by omega
        simp [hoff, hl]
    · have hn : off < length ∧ stop (base + off) = false := ⟨by omega, by simpa using hs⟩
      rw [if_neg hs, if_pos hn]
      have hnext : base + off + recordLength b (base + off) = base + (off + recordLength b (base + off)) := by omega
      rw [hnext] at htail ⊢
      have hmod : (base + (off + recordLength b (base + off))) % dirBlockSize = 0 ↔
          (off + recordLength b (base + off)) % dirBlockSize = 0 := by
        simp only [dirBlockSize] at hbase ⊢
        omega
      have hlast : (if (base + (off + recordLength b (base + off))) % dirBlockSize = 0 then none else some (base + off)) =
          Option.map (base + ·) (if (off + recordLength b (base + off)) % dirBlockSize = 0 then none else some off) := by
        rw [if_congr hmod rfl rfl]
        split_ifs <;> rfl
      rw [hlast]
      exact ih _ htail (by omega)

end SpriteKernel.Fslcl
