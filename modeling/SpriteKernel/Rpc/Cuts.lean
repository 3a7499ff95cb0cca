import SpriteKernel.Rpc.Output
import Mathlib.Algebra.Group.Nat.Defs

/- What the fragments of a message are: how many (`length_cutMessage_le`), which
   parts of it they hold (`cutMessage_params`, `cutMessage_data`) and which bits
   they are marked with (`sendFragments_all`, `mask_getLsbD`). -/
namespace SpriteKernel.Rpc

open List
open Machine Bytes Pieces

section cuts
variable {payload fuel p d po dp : Nat}

def Cut.params (c : Cut) : Int × Int := (c.paramOffset, c.paramSize)
def Cut.data (c : Cut) : Int × Int := (c.dataOffset, c.dataSize)

/-- The parameters a fragment of `p` and `d` bytes takes, and the data. -/
def takenParam (payload p : Nat) : Nat := if p ≠ 0 then min payload p else 0
def takenData (payload p d : Nat) : Nat := if d ≠ 0 then min (payload - takenParam payload p) d else 0

theorem takenParam_le (payload p : Nat) : takenParam payload p ≤ p := by
  rw [takenParam]
  split <;> omega

theorem takenData_le (payload p d : Nat) : takenData payload p d ≤ d := by
  rw [takenData]
  split <;> omega

theorem taken_eq (payload p d : Nat) : takenParam payload p + takenData payload p d = min payload (p + d) := by
  rw [takenData, takenParam]
  split <;> split <;> omega

theorem cutMessage_step (h : 0 < p + d) : cutMessage payload (fuel + 1) p d po dp =
      ⟨takenParam payload p, takenData payload p d, po, dp⟩ ::
        cutMessage payload fuel (p - takenParam payload p) (d - takenData payload p d)
          (po + takenParam payload p) (dp + takenData payload p d) := by
  rw [cutMessage, if_pos (by omega)]
  rfl

theorem cutMessage_done {fuel po dp : Nat} : cutMessage payload fuel 0 0 po dp = [] := by
  cases fuel with
  | zero => rfl
  | succ fuel => rw [cutMessage, if_neg (by omega)]

theorem left_lt (hm : 0 < payload) {p d : Nat} (hpos : 0 < p + d) :
    p - takenParam payload p + (d - takenData payload p d) < p + d := by
  have htaken := taken_eq payload p d
  have hpl := takenParam_le payload p
  have hdl := takenData_le payload p d
  omega

/-- As long as a packet carries something, the loop ends with nothing left over. -/
theorem cutMessage_tiles (hm : 0 < payload) : ∀ (fuel p d po dp : Nat), p + d ≤ fuel →
    Tiles po ((cutMessage payload fuel p d po dp).map Cut.params) (po + p : Nat) ∧
      Tiles dp ((cutMessage payload fuel p d po dp).map Cut.data) (dp + d : Nat)
  | 0, p, d, po, dp, h => by
    have hp : p = 0 := by omega
    have hd : d = 0 := by omega
    rw [hp, hd]
    exact ⟨rfl, rfl⟩
  | fuel + 1, p, d, po, dp, h => by
    rcases Nat.eq_zero_or_pos (p + d) with h0 | hpos
    · have hp : p = 0 := by omega
      have hd : d = 0 := by omega
      rw [hp, hd, cutMessage_done]
      exact ⟨rfl, rfl⟩
    · have hpl := takenParam_le payload p
      have hdl := takenData_le payload p d
      have hlt := left_lt hm hpos
      obtain ⟨hparams, hdata⟩ := cutMessage_tiles hm fuel (p - takenParam payload p) (d - takenData payload p d)
        (po + takenParam payload p) (dp + takenData payload p d) (by omega)
      have hpe : po + takenParam payload p + (p - takenParam payload p) = po + p := by omega
      have hde : dp + takenData payload p d + (d - takenData payload p d) = dp + d := by omega
      rw [hpe, Int.natCast_add] at hparams
      rw [hde, Int.natCast_add] at hdata
      rw [cutMessage_step hpos, map_cons, map_cons]
      exact ⟨⟨rfl, Int.natCast_nonneg _, hparams⟩, ⟨rfl, Int.natCast_nonneg _, hdata⟩⟩

theorem length_cutMessage_le : ∀ {fuel p d po dp n : Nat}, p + d ≤ n * payload →
    (cutMessage payload fuel p d po dp).length ≤ n
  | 0, _, _, _, _, _, _ => Nat.zero_le _
  | fuel + 1, p, d, po, dp, n, h => by
    rcases Nat.eq_zero_or_pos (p + d) with h0 | hpos
    · have hp : p = 0 := by omega
      have hd : d = 0 := by omega
      rw [hp, hd, cutMessage_done]
      exact Nat.zero_le _
    · have htaken := taken_eq payload p d
      have hpl := takenParam_le payload p
      have hdl := takenData_le payload p d
      rw [cutMessage_step hpos, length_cons]
      cases n with
      | zero =>
        rw [Nat.zero_mul] at h
        omega
      | succ n =>
        rw [Nat.succ_mul] at h
        apply Nat.succ_le_succ
        apply length_cutMessage_le
        omega

theorem one_lt_length_cutMessage (hfuel : p + d ≤ fuel) (h : payload < p + d)
    (hm : 0 < payload) : 1 < (cutMessage payload fuel p d po dp).length := by
  have htaken := taken_eq payload p d
  obtain ⟨fuel, rfl⟩ : ∃ k, fuel = k + 1 := ⟨fuel - 1, by omega⟩
  obtain ⟨fuel, rfl⟩ : ∃ k, fuel = k + 1 := ⟨fuel - 1, by omega⟩
  rw [cutMessage_step (by omega), cutMessage_step (by omega), length_cons, length_cons]
  omega

end cuts

section fragments
variable {host : Host} {hdr : RpcHdr} {msg : Message} {nfrags : Nat} {mask : BitVec 32}

theorem fragID_getLsbD {i j : Nat} (hi : i < 32) : (fragID i).getLsbD j = decide (i = j) := by
  have h : fragID i = BitVec.twoPow 32 i := (BitVec.twoPow_eq 32 i).symm
  rw [h, BitVec.getLsbD_twoPow, decide_eq_true hi, Bool.true_and]

theorem fragID_and_ne {i : Nat} (hi : i < 32) : fragID i &&& mask ≠ 0 ↔ mask.getLsbD i = true := by
  have hbit : ∀ j, (fragID i &&& mask).getLsbD j = (decide (i = j) && mask.getLsbD j) := fun j => by
    rw [BitVec.getLsbD_and, fragID_getLsbD hi]
  have hzero : ∀ j, (0 : BitVec 32).getLsbD j = false := fun _ => BitVec.getLsbD_zero
  constructor
  · intro h
    by_contra hno
    apply h
    apply BitVec.eq_of_getLsbD_eq
    intro j _
    rw [hbit, hzero]
    rw [Bool.not_eq_true] at hno
    by_cases hij : i = j
    · rw [← hij, hno, Bool.and_false]
    · rw [decide_eq_false hij, Bool.false_and]
  · intro h hnone
    have := hbit i
    rw [hnone, h, hzero, decide_eq_true rfl] at this
    nomatch this

theorem fragID_and_not_zero {i : Nat} (hi : i < 32) : fragID i &&& ~~~0 ≠ 0 := by
  have hzero : (0 : BitVec 32).getLsbD i = false := BitVec.getLsbD_zero
  rw [fragID_and_ne hi, BitVec.getLsbD_not, hzero, decide_eq_true hi]
  rfl

theorem sendFragments_all : ∀ {i : Nat} {cs : List Cut}, i + cs.length ≤ 32 →
    sendFragments host hdr msg nfrags (~~~0) i cs =
      (cs.zipIdx i).map (fun c => fragmentPacket host hdr msg nfrags c.2 c.1)
  | _, [], _ => rfl
  | i, c :: cs, h => by
    rw [length_cons] at h
    rw [sendFragments, if_pos (fragID_and_not_zero (show i < 32 by omega)), zipIdx_cons, map_cons,
      sendFragments_all (by omega)]

theorem complete_eq : ∀ n ≤ 16, rpcCompleteMask[n]? = some (BitVec.ofNat 32 (2 ^ n - 1)) := by
  decide

theorem complete_getLsbD {n : Nat} (hn : n ≤ 16) (h : rpcCompleteMask[n]? = some mask)
    {j : Nat} (hj : j < 32) : mask.getLsbD j = decide (j < n) := by
  rw [complete_eq n hn] at h
  rw [← Option.some.inj h, BitVec.getLsbD_ofNat, Nat.testBit_two_pow_sub_one, decide_eq_true hj, Bool.true_and]

end fragments
end SpriteKernel.Rpc
