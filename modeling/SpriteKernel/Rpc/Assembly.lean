import SpriteKernel.Rpc.Cuts
import SpriteKernel.Rpc.Server

/- Putting a message together from its packets. A packet `IsPart` of a message when it carries the bytes its sizes
   and offsets say; `Assembled` is what the buffers hold once some parts are copied in, in any order and however
   often: the message, when the parts tile it (`Assembled.complete`). -/
namespace SpriteKernel.Rpc

open List
open Machine Bytes Pieces

def Packet.params (p : Packet) : Int × Int := (p.hdr.paramOffset, p.hdr.paramSize)
def Packet.data (p : Packet) : Int × Int := (p.hdr.dataOffset, p.hdr.dataSize)

/-- A range of the `size` bytes of an area. -/
def InArea (r : Int × Int) (size : Int) : Prop := 0 ≤ r.1 ∧ 0 ≤ r.2 ∧ r.1 + r.2 ≤ size

/-- The packet carries a part of the message that `hdr` gives the sizes of. -/
structure IsPart (hdr : RpcHdr) (msg : Message) (p : Packet) : Prop where
  params : InArea p.params hdr.paramSize
  data : InArea p.data hdr.dataSize
  body : p.body = bytesFrom msg.param p.hdr.paramOffset p.hdr.paramSize.toNat ++
    bytesFrom msg.data p.hdr.dataOffset p.hdr.dataSize.toNat

/-- An area after the ranges `rs` of `src` were copied in: the greatest end is `actual`, the size noted. -/
structure AreaHolds (src dst : Buffer) (rs : List (Int × Int)) (actual : Int) : Prop where
  bytes : ∀ k, (∃ r ∈ rs, r.1 ≤ k ∧ k < r.1 + r.2) → dst k = src k
  le : ∀ r ∈ rs, r.1 + r.2 ≤ actual
  reached : actual = 0 ∨ ∃ r ∈ rs, r.1 + r.2 = actual

section area
variable {src dst : Buffer} {rs qs : List (Int × Int)} {actual size : Int}

theorem AreaHolds.nil (src dst : Buffer) : AreaHolds src dst [] 0 where
  bytes := fun _ ⟨_, hr, _⟩ => absurd hr (by simp)
  le := fun _ hr => absurd hr (by simp)
  reached := .inl rfl

section
variable (h : AreaHolds src dst rs actual)
include h

theorem AreaHolds.congr (hmem : ∀ r, r ∈ qs ↔ r ∈ rs) :
    AreaHolds src dst qs actual where
  bytes := fun k ⟨r, hr, hk⟩ => h.bytes k ⟨r, (hmem r).1 hr, hk⟩
  le := fun r hr => h.le r ((hmem r).1 hr)
  reached := h.reached.imp id (fun ⟨r, hr, he⟩ => ⟨r, (hmem r).2 hr, he⟩)

theorem AreaHolds.cons (r : Int × Int) (hr : 0 ≤ r.2) :
    AreaHolds src (setBytes r.1 (bytesFrom src r.1 r.2.toNat) dst) (r :: rs) (max actual (r.1 + r.2)) where
  bytes := by
    intro k hk
    have hcov : Piece.Covers ⟨r.1, bytesFrom src r.1 r.2.toNat⟩ k ↔ r.1 ≤ k ∧ k < r.1 + r.2 := by
      rw [Piece.Covers, length_bytesFrom, Int.toNat_of_nonneg hr]
    by_cases hin : r.1 ≤ k ∧ k < r.1 + r.2
    · exact setBytes_of_agrees (agrees_bytesFrom src r.1 r.2.toNat) (hcov.2 hin) dst
    · have hout := setBytes_of_not_covers (p := ⟨r.1, bytesFrom src r.1 r.2.toNat⟩) (fun hc => hin (hcov.1 hc)) dst
      rw [hout]
      obtain ⟨q, hq, hqk⟩ := hk
      rcases mem_cons.1 hq with rfl | hmem
      · exact absurd hqk hin
      · exact h.bytes k ⟨q, hmem, hqk⟩
  le := by
    intro q hq
    rcases mem_cons.1 hq with rfl | hmem
    · exact Int.le_max_right _ _
    · exact Int.le_trans (h.le q hmem) (Int.le_max_left _ _)
  reached := by
    rcases Int.le_total actual (r.1 + r.2) with hle | hle
    · exact .inr ⟨r, mem_cons_self, by omega⟩
    · rw [Int.max_eq_left hle]
      exact h.reached.imp id (fun ⟨q, hq, he⟩ => ⟨q, mem_cons_of_mem r hq, he⟩)

theorem AreaHolds.complete (htile : Tiles 0 qs size)
    (hmem : ∀ r, r ∈ rs ↔ r ∈ qs) :
    actual = size ∧ bytesFrom dst 0 size.toNat = bytesFrom src 0 size.toNat := by
  have h' : AreaHolds src dst qs actual := h.congr (fun r => (hmem r).symm)
  have hsize : 0 ≤ size := Tiles.le htile
  constructor
  · apply Int.le_antisymm
    · rcases h'.reached with h0 | ⟨r, hr, he⟩
      · omega
      · rw [← he]
        exact (Tiles.within htile r hr).2.2
    · rcases Int.le_iff_lt_or_eq.1 hsize with hpos | hzero
      · obtain ⟨r, hr, -, hlt⟩ := Tiles.covers (k := size - 1) htile (by omega) (by omega)
        have hle := h'.le r hr
        omega
      · rcases h'.reached with h0 | ⟨r, hr, he⟩
        · omega
        · have hin := Tiles.within htile r hr
          omega
  · apply bytesFrom_congr
    intro k h0 hk
    exact h'.bytes k (Tiles.covers htile h0 (by omega))

end

end area

/-- What a receiver's buffers hold after the packets `taken` of a message. -/
structure Assembled (hdr : RpcHdr) (msg : Message) (taken : List Packet) (b : Buffers)
    (actualParamSize actualDataSize : Int) : Prop where
  paramFits : hdr.paramSize ≤ b.paramLength
  dataFits : hdr.dataSize ≤ b.dataLength
  paramInt : b.paramLength < 2147483648
  dataInt : b.dataLength < 2147483648
  params : AreaHolds msg.param b.param (taken.map Packet.params) actualParamSize
  data : AreaHolds msg.data b.data (taken.map Packet.data) actualDataSize

section assembled
variable {hdr : RpcHdr} {msg : Message} {taken : List Packet} {b : Buffers} {ps ds : Int} {p : Packet}

theorem take_bytesFrom (c d : Buffer) (i j : Int) (m n : Nat) : (bytesFrom c i m ++ bytesFrom d j n).take m = bytesFrom c i m := by
  rw [take_append_of_le_length (Nat.le_of_eq (length_bytesFrom c i m).symm),
    take_of_length_le (Nat.le_of_eq (length_bytesFrom c i m))]

theorem drop_bytesFrom (c d : Buffer) (i j : Int) (m n : Nat) : (bytesFrom c i m ++ bytesFrom d j n).drop m = bytesFrom d j n :=
  drop_left' (length_bytesFrom c i m)

theorem rpcScatter_param (hp : IsPart hdr msg p) (hfit : hdr.paramSize ≤ b.paramLength)
    (hint : b.paramLength < 2147483648) :
    (rpcScatter p b).param =
      setBytes p.hdr.paramOffset (bytesFrom msg.param p.hdr.paramOffset p.hdr.paramSize.toNat) b.param := by
  obtain ⟨h0, h1, h2⟩ : 0 ≤ p.hdr.paramOffset ∧ 0 ≤ p.hdr.paramSize ∧
    p.hdr.paramOffset + p.hdr.paramSize ≤ hdr.paramSize := hp.params
  show (if p.hdr.paramSize ≠ 0 then _ else b.param) = _
  split
  · rw [scatterLength_of_fits h1 h0 (by omega) hint, bcopy, hp.body, take_bytesFrom]
  · have hzero : p.hdr.paramSize = 0 := by omega
    rw [hzero]
    exact (setBytes_nil _ _).symm

theorem rpcScatter_data (hp : IsPart hdr msg p) (hfit : hdr.dataSize ≤ b.dataLength)
    (hint : b.dataLength < 2147483648) :
    (rpcScatter p b).data =
      setBytes p.hdr.dataOffset (bytesFrom msg.data p.hdr.dataOffset p.hdr.dataSize.toNat) b.data := by
  obtain ⟨h0, h1, h2⟩ : 0 ≤ p.hdr.dataOffset ∧ 0 ≤ p.hdr.dataSize ∧
    p.hdr.dataOffset + p.hdr.dataSize ≤ hdr.dataSize := hp.data
  show (if p.hdr.dataSize ≠ 0 then _ else b.data) = _
  split
  · rw [scatterLength_of_fits h1 h0 (by omega) hint, bcopy, hp.body, drop_bytesFrom,
      take_of_length_le (Nat.le_of_eq (length_bytesFrom _ _ _))]
  · have hzero : p.hdr.dataSize = 0 := by omega
    rw [hzero]
    exact (setBytes_nil _ _).symm

theorem Assembled.congr (h : Assembled hdr msg taken b ps ds) {seen : List Packet} (hmem : ∀ q, q ∈ seen ↔ q ∈ taken) :
    Assembled hdr msg seen b ps ds :=
  { h with
    params := h.params.congr (fun r => by simp only [mem_map, hmem])
    data := h.data.congr (fun r => by simp only [mem_map, hmem]) }

theorem Assembled.scatter (h : Assembled hdr msg taken b ps ds) (hp : IsPart hdr msg p) :
    Assembled hdr msg (p :: taken) (rpcScatter p b) (max ps (int32 (p.hdr.paramSize + p.hdr.paramOffset)))
      (max ds (int32 (p.hdr.dataSize + p.hdr.dataOffset))) := by
  obtain ⟨h0, h1, h2⟩ : 0 ≤ p.hdr.paramOffset ∧ 0 ≤ p.hdr.paramSize ∧
    p.hdr.paramOffset + p.hdr.paramSize ≤ hdr.paramSize := hp.params
  obtain ⟨k0, k1, k2⟩ : 0 ≤ p.hdr.dataOffset ∧ 0 ≤ p.hdr.dataSize ∧
    p.hdr.dataOffset + p.hdr.dataSize ≤ hdr.dataSize := hp.data
  have hpf := h.paramFits
  have hdf := h.dataFits
  have hpi := h.paramInt
  have hdi := h.dataInt
  have hpend : int32 (p.hdr.paramSize + p.hdr.paramOffset) = p.hdr.paramOffset + p.hdr.paramSize := by
    rw [int32_of_fits (by omega) (by omega), Int.add_comm]
  have hdend : int32 (p.hdr.dataSize + p.hdr.dataOffset) = p.hdr.dataOffset + p.hdr.dataSize := by
    rw [int32_of_fits (by omega) (by omega), Int.add_comm]
  refine ⟨hpf, hdf, hpi, hdi, ?_, ?_⟩
  · rw [rpcScatter_param hp hpf hpi, hpend]
    exact h.params.cons p.params h1
  · rw [rpcScatter_data hp hdf hdi, hdend]
    exact h.data.cons p.data k1

end assembled
end SpriteKernel.Rpc
