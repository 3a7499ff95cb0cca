import SpriteKernel.Lib.Bytes

/- A row of bytes cut into pieces. A `Piece` is some bytes with the offset they belong at; where one that agrees with
   the row is stored, the row stands (`setBytes_of_agrees`). Ranges that `Tiles` follow one another, and together are
   the row (`Tiles.covers`, `Tiles.within`). -/
namespace Pieces

open List
open Bytes

structure Piece where
  offset : Int
  bytes : List UInt8
  deriving DecidableEq

def Piece.Covers (p : Piece) (k : Int) : Prop := p.offset ≤ k ∧ k < p.offset + p.bytes.length

theorem setBytes_of_not_covers {p : Piece} {k : Int} (h : ¬ p.Covers k) (b : Buffer) :
    setBytes p.offset p.bytes b k = b k :=
  if_neg h

/-- The piece is a part of the row `t`. -/
def Piece.Agrees (t : Buffer) (p : Piece) : Prop := p.bytes = bytesFrom t p.offset p.bytes.length

theorem length_bytesFrom (b : Buffer) (i : Int) (n : Nat) : (bytesFrom b i n).length = n := by
  rw [bytesFrom, length_map, length_range]

theorem agrees_bytesFrom (t : Buffer) (i : Int) (n : Nat) : Piece.Agrees t ⟨i, bytesFrom t i n⟩ := by
  show bytesFrom t i n = bytesFrom t i (bytesFrom t i n).length
  rw [length_bytesFrom]

theorem setBytes_of_agrees {t : Buffer} {p : Piece} (h : p.Agrees t) {k : Int} (hk : p.Covers k) (b : Buffer) :
    setBytes p.offset p.bytes b k = t k := by
  have hlt : (k - p.offset).toNat < p.bytes.length := by
    have h1 := hk.1
    have h2 := hk.2
    omega
  have hat : p.offset + ((k - p.offset).toNat : Int) = k := by
    have h1 := hk.1
    omega
  have hin : p.offset ≤ k ∧ k < p.offset + p.bytes.length := hk
  rw [setBytes, if_pos hin, getD_eq_getElem?_getD, List.getElem?_eq_getElem hlt, Option.getD_some]
  have hlt' : (k - p.offset).toNat < (bytesFrom t p.offset p.bytes.length).length := by
    rw [length_bytesFrom]
    exact hlt
  have hget : p.bytes[(k - p.offset).toNat] = (bytesFrom t p.offset p.bytes.length)[(k - p.offset).toNat] :=
    getElem_of_eq h _
  rw [hget]
  simp only [bytesFrom, getElem_map, getElem_range, hat]

/-- Ranges, each an offset and a size, that follow one another from `i` to `j`. -/
def Tiles : Int → List (Int × Int) → Int → Prop
  | i, [], j => i = j
  | i, r :: rs, j => r.1 = i ∧ 0 ≤ r.2 ∧ Tiles (i + r.2) rs j

theorem Tiles.le : ∀ {rs : List (Int × Int)} {i j : Int}, Tiles i rs j → i ≤ j
  | [], _, _, h => Int.le_of_eq h
  | r :: rs, i, j, h => by
    have hsize := h.2.1
    have hrest := Tiles.le h.2.2
    omega

theorem Tiles.covers {k : Int} : ∀ {rs : List (Int × Int)} {i j : Int}, Tiles i rs j → i ≤ k → k < j →
    ∃ r ∈ rs, r.1 ≤ k ∧ k < r.1 + r.2
  | [], i, j, h, h0, h1 => by
    have hij : i = j := h
    omega
  | r :: rs, i, j, h, h0, h1 => by
    have hat := h.1
    by_cases hk : k < i + r.2
    · exact ⟨r, mem_cons_self, by omega, by omega⟩
    · obtain ⟨q, hq, hqk⟩ := Tiles.covers h.2.2 (by omega) h1
      exact ⟨q, mem_cons_of_mem r hq, hqk⟩

theorem Tiles.within : ∀ {rs : List (Int × Int)} {i j : Int}, Tiles i rs j →
    ∀ r ∈ rs, i ≤ r.1 ∧ 0 ≤ r.2 ∧ r.1 + r.2 ≤ j
  | r :: rs, i, j, h, q, hq => by
    have hle := Tiles.le h.2.2
    have hat := h.1
    have hsize := h.2.1
    rcases mem_cons.1 hq with rfl | hmem
    · omega
    · have hq := Tiles.within h.2.2 q hmem
      omega

end Pieces
