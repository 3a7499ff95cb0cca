import SpriteKernel.Rpc.Emitted

/- The mark of the last fragment that is sent: the loop of `RpcOutput` sets it in the header of
   the fragment, and then copies the flags of the message over it. -/
namespace SpriteKernel.Rpc

open List
open Bytes

/-- The header as the loop fills it in; `left` is what an earlier message left in its flags, `mask` what is still to
    be sent. -/
def fillFragment (host : Host) (hdr : RpcHdr) (nfrags i : Nat) (c : Cut) (left mask : BitVec 32) : RpcHdr :=
  let frag := { fragmentHdr host hdr nfrags i c with flags := if mask = 0 then left ||| Flag.lastFrag else left }
  { frag with flags := hdr.flags }

def outputFragments (host : Host) (hdr : RpcHdr) (msg : Message) (nfrags : Nat) (left : Nat → BitVec 32) :
    BitVec 32 → Nat → List Cut → List Packet
  | _, _, [] => []
  | mask, i, c :: cs =>
    if fragID i &&& mask ≠ 0 then
      let mask := mask &&& ~~~fragID i
      ⟨fillFragment host hdr nfrags i c (left i) mask,
        bytesFrom msg.param c.paramOffset c.paramSize ++ bytesFrom msg.data c.dataOffset c.dataSize⟩ ::
        outputFragments host hdr msg nfrags left mask (i + 1) cs
    else outputFragments host hdr msg nfrags left mask (i + 1) cs

def outputBatch (host : Host) (hdr : RpcHdr) (msg : Message) (dontSendMask : BitVec 32) (left : Nat → BitVec 32)
    (cuts : List Cut) : List Packet :=
  outputFragments host (marked host hdr) msg cuts.length left (sendFragMask (marked host hdr) dontSendMask cuts.length) 0 cuts

/-- The fragments that are to be sent: those outside the mask, or the last one to keep the call alive. -/
def toSend (hdr : RpcHdr) (dontSendMask : BitVec 32) (nfrags i : Nat) : Bool :=
  if rpcCompleteMask[nfrags]? = some dontSendMask ∨ hdr.has Flag.plsAck ∧ dontSendMask = 0 then i + 1 = nfrags
  else !dontSendMask.getLsbD i

/-- They are sent in their order, and the last of them is marked, unless the message itself is. -/
def BatchMarked (hdr : RpcHdr) (dontSendMask : BitVec 32) (nfrags : Nat) (pkts : List Packet) : Prop :=
  pkts.map (·.hdr.fragMask) = ((range nfrags).filter (toSend hdr dontSendMask nfrags)).map fragID ∧
  (hdr.has Flag.lastFrag = false → ∀ k, ∀ h : k < pkts.length, (pkts[k].hdr.has Flag.lastFrag = true ↔ k + 1 = pkts.length))

variable {host : Host} {hdr : RpcHdr} {msg : Message} {n i : Nat} {mask mask' : BitVec 32} {left : Nat → BitVec 32} {cs : List Cut}

theorem outputFragments_eq (hi : i + cs.length ≤ 32) (hmask : ∀ j, i ≤ j → mask.getLsbD j = mask'.getLsbD j) :
    outputFragments host hdr msg n left mask i cs = sendFragments host hdr msg n mask' i cs := by
  induction cs generalizing i mask with
  | nil => rfl
  | cons c cs ih =>
    rw [length_cons] at hi
    have hlt : i < 32 := by omega
    unfold outputFragments sendFragments
    by_cases hbit : mask.getLsbD i = true
    · rw [if_pos ((fragID_and_ne hlt).2 hbit), if_pos ((fragID_and_ne hlt).2 (hmask i (Nat.le_refl i) ▸ hbit))]
      apply congrArg (_ :: ·)
      apply ih (by omega)
      intro j hj
      rw [BitVec.getLsbD_and, BitVec.getLsbD_not, fragID_getLsbD hlt, ← hmask j (by omega),
        decide_eq_false (show i ≠ j by omega)]
      by_cases hj32 : j < 32
      · simp [hj32]
      · rw [BitVec.getLsbD_of_ge _ _ (by omega), Bool.false_and]
    · rw [if_neg (mt (fragID_and_ne hlt).1 hbit), if_neg (mt (fragID_and_ne hlt).1 (hmask i (Nat.le_refl i) ▸ hbit))]
      exact ih (by omega) fun j hj => hmask j (by omega)

theorem sendFragments_masks (hi : i + cs.length ≤ 32) :
    (sendFragments host hdr msg n mask i cs).map (·.hdr.fragMask) = ((range' i cs.length).filter mask.getLsbD).map fragID := by
  induction cs generalizing i with
  | nil => rfl
  | cons c cs ih =>
    rw [length_cons] at hi ⊢
    have htail := ih (i := i + 1) (by omega)
    unfold sendFragments
    rw [range'_succ, filter_cons]
    by_cases hbit : mask.getLsbD i = true
    · rw [if_pos ((fragID_and_ne (by omega)).2 hbit), if_pos hbit, map_cons, map_cons, htail]
      rfl
    · rw [if_neg (mt (fragID_and_ne (by omega)).1 hbit), if_neg hbit, htail]

theorem sendFragMask_getLsbD (hn : n ≤ maxNumFrags) (hi : i < n) :
    (sendFragMask hdr mask n).getLsbD i = toSend hdr mask n i := by
  have hmax : maxNumFrags = 16 := rfl
  unfold sendFragMask toSend
  split
  · rw [fragID_getLsbD (by omega)]
    exact decide_eq_decide.2 ⟨fun _ => by omega, fun _ => by omega⟩
  · rw [BitVec.getLsbD_not, decide_eq_true (show i < 32 by omega), Bool.true_and]

/-- **The batches that are marked** are those of a message that is marked itself, and the empty ones. -/
theorem batch_marked_iff {dontSendMask : BitVec 32} {cuts : List Cut} (hn : cuts.length ≤ maxNumFrags) :
    BatchMarked hdr dontSendMask cuts.length (outputBatch host hdr msg dontSendMask left cuts) ↔
      hdr.has Flag.lastFrag = true ∨ ∀ i < cuts.length, toSend hdr dontSendMask cuts.length i = false := by
  have hmax : maxNumFrags = 16 := rfl
  have hbatch : outputBatch host hdr msg dontSendMask left cuts = _ :=
    outputFragments_eq (by omega) fun _ _ => rfl
  have hasks : (marked host hdr).has Flag.plsAck = hdr.has Flag.plsAck := has_marked (marks_and host (by decide))
  have hlast : (marked host hdr).has Flag.lastFrag = hdr.has Flag.lastFrag := has_marked (marks_and host (by decide))
  have hmasks : (outputBatch host hdr msg dontSendMask left cuts).map (·.hdr.fragMask) =
      ((range cuts.length).filter (toSend hdr dontSendMask cuts.length)).map fragID := by
    rw [hbatch, sendFragments_masks (by omega), ← range_eq_range']
    congr 1
    apply filter_congr
    intro i hi
    rw [sendFragMask_getLsbD hn (mem_range.1 hi), toSend, toSend]
    exact if_congr (or_congr Iff.rfl (by rw [← hasks])) rfl rfl
  have hunmarked : ∀ p ∈ outputBatch host hdr msg dontSendMask left cuts, p.hdr.has Flag.lastFrag = hdr.has Flag.lastFrag := by
    intro p hp
    rw [hbatch] at hp
    obtain ⟨j, hj, rfl, -⟩ := mem_sendFragments hp
    exact hlast
  generalize outputBatch host hdr msg dontSendMask left cuts = pkts at hmasks hunmarked ⊢
  constructor
  · rintro ⟨-, hmarked⟩
    by_contra hno
    rw [not_or, Bool.not_eq_true] at hno
    obtain ⟨hhdr, hsome⟩ := hno
    push Not at hsome
    obtain ⟨i, hi, hsend⟩ := hsome
    -- there is a last packet, and it has the flags of the message
    have hmem : fragID i ∈ pkts.map (·.hdr.fragMask) := by
      rw [hmasks]
      exact mem_map_of_mem (mem_filter.2 ⟨mem_range.2 hi, by simpa using hsend⟩)
    have hpos : 0 < pkts.length := by
      rw [← length_map]
      exact length_pos_of_mem hmem
    have hat : pkts.length - 1 < pkts.length := by omega
    have := (hmarked hhdr _ hat).2 (by omega)
    rw [hunmarked _ (getElem_mem hat), hhdr] at this
    cases this
  · rintro (hhdr | hnone)
    · exact ⟨hmasks, fun hno => by rw [hhdr] at hno; cases hno⟩
    · have hnil : pkts = [] := by
        apply map_eq_nil_iff.1
        rw [hmasks, map_eq_nil_iff, filter_eq_nil_iff]
        exact fun i hi => by simp [hnone i (mem_range.1 hi)]
      exact ⟨hmasks, fun _ k hk => by rw [hnil] at hk; cases hk⟩

theorem batch_marked_close : BatchMarked { largestHdr with flags := Flag.lastFrag } 0 2
    (outputBatch ⟨true, false, false, 3, 0⟩ { largestHdr with flags := Flag.lastFrag } emptyMessage 0 (fun _ => 0)
      [⟨1024, 7680, 0, 0⟩, ⟨0, 8704, 1024, 7680⟩]) :=
  (batch_marked_iff (by decide)).2 (.inl (by decide))

/-- The two fragments of a request, neither of which is marked. -/
theorem batch_unmarked : ¬ BatchMarked largestHdr 0 (cutsOf 8704 largestHdr).length
    (outputBatch ⟨true, false, false, 3, 0⟩ largestHdr emptyMessage 0 (fun _ => 0) (cutsOf 8704 largestHdr)) := by
  rintro ⟨-, hmarked⟩
  have hlast := (hmarked (by decide) 1 (by decide)).2 (by decide)
  exact absurd hlast (by decide)

end SpriteKernel.Rpc
