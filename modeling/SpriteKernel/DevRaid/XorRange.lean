import SpriteKernel.DevRaid.Initiate

/- What `Xor2` and `Raid_XorRangeRequests` leave in their destination, and what the
   requests that are carried out together leave in the memory and on the disks. -/
namespace SpriteKernel.DevRaid.Initiate

open List BlockRequest
open Striping

/-- Two ranges of memory have no byte in common. -/
def Apart (a : Ptr) (m : Nat) (b : Ptr) (n : Nat) : Prop := a.buf ≠ b.buf ∨ a.off + m ≤ b.off ∨ b.off + n ≤ a.off

def InRange (q : Ptr) (len : Nat) (buf : Buf) (off : Int) : Prop := buf = q.buf ∧ q.off ≤ off ∧ off < q.off + len

instance (q : Ptr) (len : Nat) (buf : Buf) (off : Int) : Decidable (InRange q len buf off) := instDecidableAnd

variable {a b : Ptr}

theorem Apart.not_inRange {m n : Nat} (h : Apart a m b n) {buf : Buf} {off : Int} (ha : InRange a m buf off) :
    ¬ InRange b n buf off := by
  rintro ⟨hbuf, hlo, hhi⟩
  obtain ⟨habuf, halo, hahi⟩ := ha
  rcases h with hne | hle | hle
  · exact hne (habuf.symm.trans hbuf)
  · omega
  · omega

section xors
variable {address : Buf → Int} {mem : Mem} {source dest : Ptr} {n : Nat}

/-- The bytes of a range with those of another one exclusive-or'ed into them. -/
def Mem.xorInto (mem : Mem) (source dest : Ptr) (n : Nat) : Mem := fun buf off =>
  if InRange dest n buf off then mem buf off + mem source.buf (source.off + (off - dest.off)) else mem buf off

theorem xorInto_zero : mem.xorInto source dest 0 = mem := by
  funext buf off
  rw [Mem.xorInto, if_neg]
  rintro ⟨-, hlo, hhi⟩
  omega

theorem xorByte_eq : mem.xorByte source dest = mem.xorInto source dest 1 := by
  funext buf off
  rw [Mem.xorByte, Mem.xorInto]
  by_cases h : buf = dest.buf ∧ off = dest.off
  · have hin : InRange dest 1 buf off := ⟨h.1, by omega, by omega⟩
    rw [if_pos h, if_pos hin, h.1, h.2, Int.sub_self, Int.add_zero]
  · have hout : ¬ InRange dest 1 buf off := fun hin => h ⟨hin.1, by have := hin.2; omega⟩
    rw [if_neg h, if_neg hout]

theorem xorInto_append {a b : Nat} (h : Apart source (a + b) dest (a + b)) :
    (mem.xorInto source dest a).xorInto (source.add a) (dest.add a) b = mem.xorInto source dest (a + b) := by
  funext buf off
  have hsource : InRange (dest.add a) b buf off → ¬ InRange dest a source.buf (source.off + (off - dest.off)) := by
    rintro ⟨hbuf, hlo, hhi⟩ ⟨hbuf', hlo', hhi'⟩
    simp only [Ptr.add] at hlo hhi
    rcases h with hne | hle | hle
    · exact hne hbuf'
    · omega
    · omega
  have hwhole : InRange dest (a + b) buf off ↔ InRange dest a buf off ∨ InRange (dest.add a) b buf off := by
    simp only [InRange, Ptr.add]
    grind
  by_cases hb : InRange (dest.add a) b buf off
  · have ha : ¬ InRange dest a buf off := by
      rintro ⟨-, -, hhi⟩
      have hlo := hb.2.1
      simp only [Ptr.add] at hlo
      omega
    have hoff : (source.add a).off + (off - (dest.add a).off) = source.off + (off - dest.off) := by
      simp only [Ptr.add]
      omega
    rw [Mem.xorInto, if_pos hb, hoff, Mem.xorInto, Mem.xorInto, if_neg ha, show (source.add a).buf = source.buf from rfl,
      if_neg (hsource hb), Mem.xorInto, if_pos (hwhole.2 (.inr hb))]
  · rw [Mem.xorInto, if_neg hb, Mem.xorInto, Mem.xorInto]
    by_cases ha : InRange dest a buf off
    · rw [if_pos ha, if_pos (hwhole.2 (.inl ha))]
    · rw [if_neg ha, if_neg (fun h => (hwhole.1 h).elim ha hb)]

theorem add_zero_ptr (q : Ptr) : q.add 0 = q := by
  rw [Ptr.add, Int.add_zero]

theorem add_add_ptr (q : Ptr) (a b : Int) : (q.add a).add b = q.add (a + b) := by
  rw [Ptr.add, Ptr.add, Ptr.add, Int.add_assoc]

variable {m : Nat}

theorem Apart.add (h : Apart source (m + n) dest (m + n)) : Apart (source.add m) n (dest.add m) n := by
  rcases h with hne | hle | hle
  · exact .inl hne
  · exact .inr (.inl (by simp only [Ptr.add]; omega))
  · exact .inr (.inr (by simp only [Ptr.add]; omega))

theorem Apart.mono {m' k : Nat} (h : Apart a m b k) (hm : m' ≤ m) : Apart a m' b k := by
  rcases h with hne | hle | hle
  · exact .inl hne
  · exact .inr (.inl (by omega))
  · exact .inr (.inr hle)

theorem Apart.symm {k : Nat} (h : Apart a m b k) : Apart b k a m := by
  rcases h with hne | hle | hle
  · exact .inl (Ne.symm hne)
  · exact .inr (.inr hle)
  · exact .inr (.inl hle)

theorem xorUp_eq (h : Apart source n dest n) : mem.xorUp source dest n = mem.xorInto source dest n := by
  induction n generalizing mem source dest with
  | zero => exact xorInto_zero.symm
  | succ n ih =>
    have hrest : Apart (source.add 1) n (dest.add 1) n := Apart.add (m := 1) (by rwa [Nat.add_comm])
    rw [Mem.xorUp, ih hrest, xorByte_eq, Nat.add_comm n 1]
    exact xorInto_append (a := 1) (by rwa [Nat.add_comm 1 n])

theorem xorInto_append_down {a b : Nat} (h : Apart source (a + b) dest (a + b)) :
    (mem.xorInto (source.add a) (dest.add a) b).xorInto source dest a = mem.xorInto source dest (a + b) := by
  funext buf off
  simp only [Mem.xorInto, InRange, Ptr.add]
  rcases h with hne | hle | hle
  · grind
  · grind
  · grind

theorem xorDown_eq (h : Apart source n dest n) :
    mem.xorDown (source.add n) (dest.add n) n = mem.xorInto source dest n := by
  induction n generalizing mem with
  | zero => exact xorInto_zero.symm
  | succ n ih =>
    have hback : ((n + 1 : Nat) : Int) + -1 = n := by omega
    have hn : Apart source n dest n := (h.mono (Nat.le_succ n)).symm.mono (Nat.le_succ n) |>.symm
    rw [Mem.xorDown, add_add_ptr, add_add_ptr, hback, ih hn, xorByte_eq]
    exact xorInto_append_down h

theorem loopBytes_eq (n : Nat) : loopBytes address n source dest = n := by
  rw [loopBytes, if_neg (fun h => absurd h.1 (by omega)), Int.toNat_natCast]

theorem xor2_eq (h : Apart source n dest n) : xor2 address n source dest mem = mem.xorInto source dest n := by
  rw [xor2]
  split
  · exact xorUp_eq h
  · obtain ⟨a, b, hab, hb⟩ : ∃ a b : Nat, a + b = n ∧ ((n : Int) % 4).toNat = b := ⟨n - n % 4, n % 4, by omega, by omega⟩
    have hrest : (n : Int) - (b : Int) = a := by omega
    have htop : ∀ q : Ptr, q.add n = (q.add a).add b := by
      intro q
      rw [add_add_ptr, ← hab, Nat.cast_add]
    have happ : Apart source (a + b) dest (a + b) := by rwa [hab]
    simp only [hb, hrest, loopBytes_eq]
    rw [htop source, htop dest, xorDown_eq happ.add, xorDown_eq ((happ.mono (by omega)).symm.mono (by omega)).symm,
      xorInto_append_down happ, hab]

end xors

section calls
variable {address : Buf → Int} {mem : Mem} {dest : Ptr} {len : Nat} {calls : List XorCall}

def XorCall.into (call : XorCall) (mem : Mem) (buf : Buf) (off : Int) : Byte :=
  if InRange call.dest call.numBytes.toNat buf off then mem call.source.buf (call.source.off + (off - call.dest.off)) else 0

/-- A call stays inside a destination and does not read there. -/
structure XorCall.Fits (call : XorCall) (dest : Ptr) (len : Nat) : Prop where
  nonneg : 0 ≤ call.numBytes
  apart : Apart call.source call.numBytes.toNat dest len
  inside : ∀ buf off, InRange call.dest call.numBytes.toNat buf off → InRange dest len buf off

theorem xor2_apply {call : XorCall} (h : call.Fits dest len) (buf : Buf) (off : Int) :
    xor2 address call.numBytes call.source call.dest mem buf off = mem buf off + call.into mem buf off := by
  obtain ⟨n, hn⟩ : ∃ n : Nat, call.numBytes = n := ⟨call.numBytes.toNat, (Int.toNat_of_nonneg h.nonneg).symm⟩
  have happ : Apart call.source n call.dest n := by
    by_cases hbuf : call.source.buf = call.dest.buf
    · rcases Nat.eq_zero_or_pos n with hzero | hpos
      · rcases Int.le_total call.source.off call.dest.off with hle | hle
        · exact .inr (.inl (by omega))
        · exact .inr (.inr (by omega))
      · have hapart := h.apart
        have hfirst := h.inside call.dest.buf call.dest.off ⟨rfl, Int.le_refl _, by omega⟩
        have hlast := h.inside call.dest.buf (call.dest.off + (n - 1)) ⟨rfl, by omega, by omega⟩
        rcases hapart with hne | hle | hle
        · exact absurd (hbuf.trans hfirst.1) hne
        · exact .inr (.inl (by have := hfirst.2; omega))
        · exact .inr (.inr (by have := hlast.2; omega))
    · exact .inl hbuf
  rw [hn, xor2_eq happ, Mem.xorInto, XorCall.into, hn, Int.toNat_natCast]
  split
  · rfl
  · exact (add_zero _).symm

theorem xorAll_apply (h : ∀ call ∈ calls, call.Fits dest len) (buf : Buf) (off : Int) :
    xorAll address calls mem buf off = mem buf off + (calls.map fun call => call.into mem buf off).sum := by
  induction calls generalizing mem with
  | nil => exact (add_zero _).symm
  | cons call calls ih =>
    obtain ⟨hcall, hcalls⟩ := forall_mem_cons.1 h
    -- the later calls read what has not been changed
    have hsame : ∀ c ∈ calls, c.into (xor2 address call.numBytes call.source call.dest mem) buf off = c.into mem buf off := by
      intro c hc
      rw [XorCall.into, XorCall.into]
      split
      · rename_i hin
        rw [xor2_apply hcall, XorCall.into, if_neg, add_zero]
        intro hread
        refine (hcalls c hc).apart.not_inRange ?_ (hcall.inside _ _ hread)
        have hlo := hin.2
        exact ⟨rfl, by omega, by omega⟩
      · rfl
    rw [map_cons, sum_cons, xorAll, foldl_cons, ← xorAll, ih hcalls, xor2_apply hcall, add_assoc,
      map_congr_left hsame]

theorem xorAll_outside (h : ∀ call ∈ calls, call.Fits dest len) {buf : Buf} {off : Int} (hout : ¬ InRange dest len buf off) :
    xorAll address calls mem buf off = mem buf off := by
  rw [xorAll_apply h, sum_eq_zero, add_zero]
  intro x hx
  obtain ⟨call, hcall, rfl⟩ := mem_map.1 hx
  rw [XorCall.into, if_neg fun hin => hout ((h call hcall).inside _ _ hin)]

end calls

/-- An address of a disk is one that the request is for, and where its byte is. -/
def BlockRequest.Covers (r : BlockRequest) (addr : Nat) : Prop := r.startAddress ≤ addr ∧ addr < r.startAddress + r.bufferLen

instance (r : BlockRequest) (addr : Nat) : Decidable (r.Covers addr) := instDecidableAnd

def BlockRequest.byteAt (r : BlockRequest) (mem : Mem) (addr : Nat) : Byte :=
  mem r.buffer.buf (r.buffer.off + ((addr : Int) - r.startAddress))

theorem BlockRequest.Covers.inRange {r : BlockRequest} {addr : Nat} (h : r.Covers addr) :
    InRange r.buffer r.bufferLen r.buffer.buf (r.buffer.off + ((addr : Int) - r.startAddress)) := by
  obtain ⟨hlo, hhi⟩ := h
  exact ⟨rfl, by omega, by omega⟩

/-- The exclusive or of what the requests have for an address. -/
def reqSum (reqs : List BlockRequest) (val : BlockRequest → Byte) (addr : Nat) : Byte :=
  (reqs.map fun r => if r.Ok ∧ r.Covers addr then val r else 0).sum

section xorRange
variable {p : Params} {b : Nat} {r : BlockRequest} {reqs : List BlockRequest} {dest : Ptr} {ro rl : Nat} {mem : Mem}

/-- The request is for a part of the stripe unit at height `b`. -/
structure InUnit (p : Params) (b : Nat) (r : BlockRequest) : Prop where
  pos : 0 < r.bufferLen
  first : b * p.bytesPerStripeUnit ≤ r.startAddress
  last : r.startAddress + r.bufferLen ≤ (b + 1) * p.bytesPerStripeUnit

theorem InUnit.start_eq (h : InUnit p b r) :
    ∃ so, r.startAddress = b * p.bytesPerStripeUnit + so ∧ so + r.bufferLen ≤ p.bytesPerStripeUnit := by
  obtain ⟨so, hso⟩ := Nat.exists_eq_add_of_le h.first
  refine ⟨so, hso, ?_⟩
  have hlast := h.last
  rw [Nat.succ_mul] at hlast
  omega

theorem unit_div (b : Nat) {so U : Nat} (h : so < U) : (b * U + so) / U = b := quotient_of_lt h

theorem xorRangeRequest_eq {so : Nat} (hso : r.startAddress = b * p.bytesPerStripeUnit + so)
    (hlt : so < p.bytesPerStripeUnit) (hro : ro < p.bytesPerStripeUnit) :
    xorRangeRequest p r dest ro rl =
      { numBytes := (min (so + r.bufferLen) (ro + rl) : Int) - (max so ro : Nat)
        source := r.buffer.add ((max so ro : Nat) - (so : Int))
        dest := dest.add ((max so ro : Nat) - (ro : Int))
        sourceBuf := r.buffer
        sourceLen := r.bufferLen
        destBuf := dest
        destLen := rl } := by
  have hmod : r.startAddress % p.bytesPerStripeUnit = so := by rw [hso, Nat.mul_add_mod_of_lt hlt]
  have hdiv : r.startAddress / p.bytesPerStripeUnit = b := by rw [hso, unit_div b hlt]
  have hmax : max so ro < p.bytesPerStripeUnit := Nat.max_lt.2 ⟨hlt, hro⟩
  have hoff : p.stripeUnitOffset (b * p.bytesPerStripeUnit + max so ro) = max so ro := Nat.mul_add_mod_of_lt hmax
  have hsrc : ((b * p.bytesPerStripeUnit + max so ro : Nat) : Int) - r.startAddress = (max so ro : Nat) - (so : Int) := by
    rw [hso]
    omega
  simp only [xorRangeRequest, rangeRestrict, hmod, hdiv, hoff, hsrc]

/-- The request reaches the range or ends at it, and its buffer is not the destination. -/
structure Reaches (p : Params) (b ro rl : Nat) (dest : Ptr) (r : BlockRequest) : Prop where
  unit : InUnit p b r
  meets : r.startAddress ≤ b * p.bytesPerStripeUnit + ro + rl
  met : b * p.bytesPerStripeUnit + ro ≤ r.startAddress + r.bufferLen
  apart : Apart r.buffer r.bufferLen dest rl

theorem Reaches.fits (h : Reaches p b ro rl dest r) (hro : ro < p.bytesPerStripeUnit) :
    (xorRangeRequest p r dest ro rl).Fits dest rl := by
  obtain ⟨so, hso, hle⟩ := h.unit.start_eq
  have hpos := h.unit.pos
  have hmeets := h.meets
  have hmet := h.met
  rw [xorRangeRequest_eq hso (by omega) hro]
  refine ⟨by simp only; omega, ?_, ?_⟩
  · rcases h.apart with hne | hle | hle
    · exact .inl hne
    · exact .inr (.inl (by simp only [Ptr.add]; omega))
    · exact .inr (.inr (by simp only [Ptr.add]; omega))
  · rintro buf off ⟨hbuf, hlo, hhi⟩
    simp only [Ptr.add] at hbuf hlo hhi
    exact ⟨hbuf, by omega, by omega⟩

theorem Reaches.into (h : Reaches p b ro rl dest r) (hro : ro < p.bytesPerStripeUnit) {i : Nat} (hi : i < rl) :
    (xorRangeRequest p r dest ro rl).into mem dest.buf (dest.off + i) =
      if r.Covers (b * p.bytesPerStripeUnit + ro + i) then r.byteAt mem (b * p.bytesPerStripeUnit + ro + i) else 0 := by
  obtain ⟨so, hso, hle⟩ := h.unit.start_eq
  have hpos := h.unit.pos
  rw [xorRangeRequest_eq hso (by omega) hro, XorCall.into]
  by_cases hc : r.Covers (b * p.bytesPerStripeUnit + ro + i)
  · have hcov := hc
    rw [BlockRequest.Covers, hso] at hcov
    rw [if_pos hc, if_pos ⟨rfl, by simp only [Ptr.add]; omega, by simp only [Ptr.add]; omega⟩, byteAt, hso]
    congr 1
    simp only [Ptr.add]
    omega
  · have hcov := hc
    rw [BlockRequest.Covers, hso] at hcov
    rw [if_neg hc, if_neg]
    rintro ⟨-, hlo, hhi⟩
    simp only [Ptr.add] at hlo hhi
    omega

theorem mem_xorRangeRequests {call : XorCall} (h : call ∈ xorRangeRequests p reqs dest ro rl) :
    ∃ r ∈ reqs, r.Ok ∧ call = xorRangeRequest p r dest (p.stripeUnitOffset ro) rl := by
  obtain ⟨r, hr, hcall⟩ := mem_filterMap.1 h
  obtain ⟨hok, heq⟩ := Option.ite_none_right_eq_some.1 hcall
  exact ⟨r, hr, hok, (Option.some.inj heq).symm⟩

theorem xorRange_fits (hro : 0 < p.bytesPerStripeUnit)
    (h : ∀ r ∈ reqs, r.Ok → Reaches p b (p.stripeUnitOffset ro) rl dest r) :
    ∀ call ∈ xorRangeRequests p reqs dest ro rl, call.Fits dest rl := by
  intro call hcall
  obtain ⟨r, hr, hok, rfl⟩ := mem_xorRangeRequests hcall
  exact (h r hr hok).fits (Nat.mod_lt _ hro)

/-- **What `Raid_XorRangeRequests` leaves** in the destination. -/
theorem xorRange_apply {address : Buf → Int} (hU : 0 < p.bytesPerStripeUnit)
    (h : ∀ r ∈ reqs, r.Ok → Reaches p b (p.stripeUnitOffset ro) rl dest r) {i : Nat} (hi : i < rl) :
    xorAll address (xorRangeRequests p reqs dest ro rl) mem dest.buf (dest.off + i) =
      mem dest.buf (dest.off + i) +
        reqSum reqs (fun r => r.byteAt mem (b * p.bytesPerStripeUnit + p.stripeUnitOffset ro + i))
          (b * p.bytesPerStripeUnit + p.stripeUnitOffset ro + i) := by
  rw [xorAll_apply (xorRange_fits hU h)]
  congr 1
  induction reqs with
  | nil => rfl
  | cons r reqs ih =>
    obtain ⟨hr, hreqs⟩ := forall_mem_cons.1 h
    rw [reqSum, map_cons, sum_cons, ← reqSum, ← ih hreqs, xorRangeRequests, filterMap_cons]
    by_cases hok : r.Ok
    · have hthis : (xorRangeRequest p r dest (p.stripeUnitOffset ro) rl).into mem dest.buf (dest.off + i) = _ :=
        (hr hok).into (Nat.mod_lt _ hU) hi
      simp only [hok, if_true, true_and, map_cons, sum_cons]
      exact congrArg (· + _) hthis
    · simp only [hok, if_false, false_and, zero_add]
      rfl

end xorRange

section transfers
variable {out : Outcome} {reqs : List BlockRequest} {mem : Mem} {disks : Disks}

/-- What the requests leave that are carried out one after the other. -/
def transferAll (out : Outcome) (reqs : List BlockRequest) (mem : Mem) (disks : Disks) : Mem × Disks :=
  reqs.foldl (fun s r => transfer out r s) (mem, disks)

theorem transferAll_cons (r : BlockRequest) :
    transferAll out (r :: reqs) mem disks =
      transferAll out reqs (transfer out r (mem, disks)).1 (transfer out r (mem, disks)).2 := rfl

variable {r : BlockRequest}

theorem transfer_idle (h : r.state ≠ .ready) : transfer out r (mem, disks) = (mem, disks) := if_pos h

theorem transfer_read (h : r.operation = .read) (hready : r.state = .ready) :
    ∃ f, transfer out r (mem, disks) = (mem.fill r.buffer r.bufferLen f, disks) := by
  rw [transfer, if_neg (not_not.2 hready), h]
  cases out.fails r with
  | false => exact ⟨_, rfl⟩
  | true => exact ⟨_, rfl⟩

theorem transferAll_reads (h : ∀ r ∈ reqs, r.state = .ready → r.operation = .read) :
    (transferAll out reqs mem disks).2 = disks ∧
      ∀ buf off, (∀ r ∈ reqs, r.state = .ready → ¬ InRange r.buffer r.bufferLen buf off) →
        (transferAll out reqs mem disks).1 buf off = mem buf off := by
  induction reqs generalizing mem with
  | nil => exact ⟨rfl, fun _ _ _ => rfl⟩
  | cons r reqs ih =>
    obtain ⟨hr, hreqs⟩ := forall_mem_cons.1 h
    rw [transferAll_cons]
    by_cases hready : r.state = .ready
    · obtain ⟨f, hf⟩ := transfer_read (hr hready) hready
      rw [hf]
      obtain ⟨hdisks, hmem⟩ := @ih (mem.fill r.buffer r.bufferLen f) hreqs
      refine ⟨hdisks, fun buf off hout => ?_⟩
      obtain ⟨hnot, hothers⟩ := forall_mem_cons.1 hout
      rw [hmem buf off hothers]
      exact if_neg (hnot hready)
    · rw [transfer_idle hready]
      obtain ⟨hdisks, hmem⟩ := @ih mem hreqs
      exact ⟨hdisks, fun buf off hout => hmem buf off (forall_mem_cons.1 hout).2⟩

theorem transferAll_read_bytes (h : ∀ r ∈ reqs, r.state = .ready → r.operation = .read)
    (hapart : reqs.Pairwise fun r q => r.state = .ready → q.state = .ready → Apart r.buffer r.bufferLen q.buffer q.bufferLen)
    (hr : r ∈ reqs) (hready : r.state = .ready) (hok : out.fails r = false) {addr : Nat} (hcov : r.Covers addr) :
    r.byteAt (transferAll out reqs mem disks).1 addr = (disks r.col r.row).data addr := by
  have hin := hcov.inRange
  induction reqs generalizing mem with
  | nil => nomatch hr
  | cons q reqs ih =>
    obtain ⟨hq, hreqs⟩ := forall_mem_cons.1 h
    obtain ⟨hfirst, hrest⟩ := pairwise_cons.1 hapart
    have hdisks : (transfer out q (mem, disks)).2 = disks := by
      by_cases hqready : q.state = .ready
      · obtain ⟨f, hf⟩ := transfer_read (hq hqready) hqready
        rw [hf]
      · rw [transfer_idle hqready]
    rw [transferAll_cons, hdisks]
    rcases mem_cons.1 hr with rfl | hmem
    · rw [byteAt, (transferAll_reads hreqs).2 _ _ fun q hq hqready => (hfirst q hq hready hqready).not_inRange hin,
        transfer, if_neg (not_not.2 hready), hq hready, hok]
      simp only
      rw [Mem.fill, if_pos (show _ ∧ _ from hin)]
      obtain ⟨hlo, hhi⟩ := hcov
      congr 1
      omega
    · exact ih hreqs hrest hmem

def BlockRequest.written (out : Outcome) (r : BlockRequest) (mem : Mem) (disk : Disk) : Disk :=
  if out.fails r then (disk.fill r.startAddress r.bufferLen (out.leaves r)).fail
  else disk.fill r.startAddress r.bufferLen fun i => mem r.buffer.buf (r.buffer.off + i)

theorem transfer_write (h : r.operation = .write) (hready : r.state = .ready) :
    transfer out r (mem, disks) = (mem, disks.set r.col r.row (r.written out mem (disks r.col r.row))) := by
  rw [transfer, if_neg (not_not.2 hready), h, BlockRequest.written]
  cases out.fails r with
  | false => rfl
  | true => rfl

theorem transferAll_writes (h : ∀ r ∈ reqs, r.state = .ready → r.operation = .write) :
    (transferAll out reqs mem disks).1 = mem ∧
      ∀ col row, (∀ r ∈ reqs, r.state = .ready → ¬ (col = r.col ∧ row = r.row)) →
        (transferAll out reqs mem disks).2 col row = disks col row := by
  induction reqs generalizing disks with
  | nil => exact ⟨rfl, fun _ _ _ => rfl⟩
  | cons r reqs ih =>
    obtain ⟨hr, hreqs⟩ := forall_mem_cons.1 h
    rw [transferAll_cons]
    by_cases hready : r.state = .ready
    · rw [transfer_write (hr hready) hready]
      obtain ⟨hmem, hdisks⟩ := @ih (disks.set r.col r.row (r.written out mem (disks r.col r.row))) hreqs
      refine ⟨hmem, fun col row hout => ?_⟩
      obtain ⟨hnot, hothers⟩ := forall_mem_cons.1 hout
      rw [hdisks col row hothers]
      exact if_neg (hnot hready)
    · rw [transfer_idle hready]
      obtain ⟨hmem, hdisks⟩ := @ih disks hreqs
      exact ⟨hmem, fun col row hout => hdisks col row (forall_mem_cons.1 hout).2⟩

theorem transferAll_write_disk (h : ∀ r ∈ reqs, r.state = .ready → r.operation = .write)
    (hdistinct : reqs.Pairwise fun r q => ¬ (r.col = q.col ∧ r.row = q.row))
    (hr : r ∈ reqs) (hready : r.state = .ready) :
    (transferAll out reqs mem disks).2 r.col r.row = r.written out mem (disks r.col r.row) := by
  induction reqs generalizing disks with
  | nil => nomatch hr
  | cons q reqs ih =>
    obtain ⟨hq, hreqs⟩ := forall_mem_cons.1 h
    obtain ⟨hfirst, hrest⟩ := pairwise_cons.1 hdistinct
    rw [transferAll_cons]
    rcases mem_cons.1 hr with rfl | hmem
    · rw [transfer_write (hq hready) hready, (transferAll_writes hreqs).2 _ _ fun q hq _ => hfirst q hq]
      exact if_pos ⟨rfl, rfl⟩
    · by_cases hqready : q.state = .ready
      · rw [transfer_write (hq hqready) hqready, ih hreqs hrest hmem]
        congr 1
        exact if_neg fun heq => hfirst r hmem ⟨heq.1.symm, heq.2.symm⟩
      · rw [transfer_idle hqready]
        exact ih hreqs hrest hmem

end transfers

end SpriteKernel.DevRaid.Initiate
