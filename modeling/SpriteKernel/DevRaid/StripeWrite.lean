import SpriteKernel.DevRaid.StripeRequests

/- The write of a stripe. What is read before it (`Plan`) is so chosen, by each of the three algorithms and for each
   range, that its exclusive or is that of the units not written (`Plan.sum`). A `Task` is a write of sectors `f` to
   `t` of stripe `k`, where only the disk of unit `d` may be invalid; `Task.new` is what the units are to be. -/
namespace SpriteKernel.DevRaid.Initiate
open Striping Parity Finset BlockRequest

/-- What a unit of the stripe is taken to be: a unit that is not valid is what the others
    say. -/
def logical (p : Params) (disks : Disks) (k u o : Nat) : Byte :=
  if UnitValid p disks k u then unitByte p disks k u o
  else others p.numDataCol (fun v => unitByte p disks k v o) u

/-- The parity of the stripe is right. -/
def Consistent (p : Params) (disks : Disks) (k : Nat) : Prop :=
  ∀ o < p.bytesPerStripeUnit, Codeword p.numDataCol fun u => logical p disks k u o

/-- A disk of which something is valid is ready, and it is valid up to the end of a unit. -/
structure Disk.Sound (p : Params) (disk : Disk) : Prop where
  ready : 0 < disk.numValidSector → disk.state = .ready
  aligned : p.sectorsPerStripeUnit ∣ disk.numValidSector

structure Task (p : Params) where
  k : Nat
  f : Nat
  t : Nat
  user : Int → Byte
  disks : Disks
  d : Nat
  f_lt : f < t
  t_le : t ≤ p.dataSectorsPerStripe
  d_le : d ≤ p.numDataCol
  sound : ∀ u ≤ p.numDataCol, (disks (p.unitPlace k u).col (p.unitPlace k u).row).Sound p
  valid : ∀ u ≤ p.numDataCol, u ≠ d → UnitValid p disks k u
  consistent : Consistent p disks k

section task
variable {p : Params} (w : Task p)

def Task.Writes (u s : Nat) : Prop := w.f ≤ u * p.sectorsPerStripeUnit + s ∧ u * p.sectorsPerStripeUnit + s < w.t

instance (u s : Nat) : Decidable (w.Writes u s) := instDecidableAnd

def Task.old (u o : Nat) : Byte := logical p w.disks w.k u o

def Task.newData (u o : Nat) : Byte :=
  written (fun u => w.Writes u (o / p.bytesPerSector))
    (fun u => w.user ((u * p.bytesPerStripeUnit + o : Nat) - (w.f * p.bytesPerSector : Nat))) (fun u => w.old u o) u

/-- The units after the write, and the parity. -/
def Task.new (u o : Nat) : Byte :=
  if u < p.numDataCol then w.newData u o else ∑ v ∈ range p.numDataCol, w.newData v o

variable {w}

variable {u : Nat}

theorem old_of_valid (h : UnitValid p w.disks w.k u) (o : Nat) : w.old u o = unitByte p w.disks w.k u o := if_pos h

variable {o : Nat}

theorem sector_lt (h : o < p.bytesPerStripeUnit) : o / p.bytesPerSector < p.sectorsPerStripeUnit := by
  apply Nat.div_lt_of_lt_mul
  rwa [Nat.mul_comm, ← Params.bytesPerStripeUnit_eq]

theorem new_codeword (o : Nat) : Codeword p.numDataCol fun u => w.new u o := by
  rw [codeword_iff]
  rw [Task.new, if_neg (Nat.lt_irrefl _)]
  apply sum_congr rfl
  intro u hu
  rw [Task.new, if_pos (mem_range.1 hu)]

theorem new_data_eq (hu : u < p.numDataCol) (o : Nat) : w.new u o = w.newData u o := if_pos hu

theorem newData_of_not_writes (h : ¬ w.Writes u (o / p.bytesPerSector)) : w.newData u o = w.old u o := if_neg h

theorem new_parity_eq (ho : o < p.bytesPerStripeUnit)
    (h : ∀ u < p.numDataCol, ¬ w.Writes u (o / p.bytesPerSector)) : w.new p.numDataCol o = w.old p.numDataCol o := by
  rw [codeword_iff.1 (new_codeword o)]
  refine Eq.trans ?_ (codeword_iff.1 (w.consistent o ho)).symm
  apply sum_congr rfl
  intro u hu
  rw [new_data_eq (mem_range.1 hu), newData_of_not_writes (h u (mem_range.1 hu))]
  rfl

end task

section sums
variable {val : BlockRequest → Byte} {addr : Nat} {val' : BlockRequest → Byte}

theorem reqSum_append (l l' : List BlockRequest) : reqSum (l ++ l') val addr = reqSum l val addr + reqSum l' val addr := by
  rw [reqSum, List.map_append, List.sum_append]
  rfl

theorem reqSum_congr {reqs : List BlockRequest}
    (h : ∀ r ∈ reqs, r.Ok → r.Covers addr → val r = val' r) : reqSum reqs val addr = reqSum reqs val' addr := by
  rw [reqSum, reqSum]
  congr 1
  apply List.map_congr_left
  intro r hr
  by_cases hcov : r.Ok ∧ r.Covers addr
  · rw [if_pos hcov, if_pos hcov, h r hr hcov.1 hcov.2]
  · rw [if_neg hcov, if_neg hcov]

theorem reqSum_map_congr {l : List BlockRequest} {g g' : BlockRequest → BlockRequest}
    (hcov : ∀ r ∈ l, ((g r).Ok ∧ (g r).Covers addr) ↔ ((g' r).Ok ∧ (g' r).Covers addr))
    (hval : ∀ r ∈ l, (g' r).Covers addr → val (g r) = val' (g' r)) :
    reqSum (l.map g) val addr = reqSum (l.map g') val' addr := by
  rw [reqSum, reqSum, List.map_map, List.map_map]
  congr 1
  apply List.map_congr_left
  intro r hr
  simp only [Function.comp]
  by_cases h : (g' r).Ok ∧ (g' r).Covers addr
  · rw [if_pos h, if_pos ((hcov r hr).2 h), hval r hr h.2]
  · rw [if_neg h, if_neg (mt (hcov r hr).1 h)]

theorem reqSum_units {n : Nat} {f : Nat → Option BlockRequest} {g : BlockRequest → BlockRequest} {span : Nat → Prop}
    [DecidablePred span] {φ : Nat → Byte}
    (hsome : ∀ u < n, ∀ r, f u = some r → ((g r).Ok ∧ (g r).Covers addr ↔ span u) ∧ (span u → val (g r) = φ u))
    (hnone : ∀ u < n, f u = none → ¬ span u) :
    reqSum (((List.range n).filterMap f).map g) val addr = ∑ u ∈ range n, if span u then φ u else 0 := by
  induction n with
  | zero => rfl
  | succ n ih =>
    rw [List.range_succ, List.filterMap_append, List.map_append, reqSum_append, sum_range_succ,
      ih (fun u hu => hsome u (by omega)) fun u hu => hnone u (by omega)]
    cases hf : f n with
    | none =>
      rw [if_neg (hnone n (by omega) hf)]
      simp [hf, reqSum]
    | some r =>
      obtain ⟨hcov, hval⟩ := hsome n (by omega) r hf
      by_cases hspan : span n
      · simp [hf, reqSum, hcov, hspan, hval hspan]
      · simp [hf, reqSum, hcov, hspan]

end sums

def InSpan (p : Params) (x₀ x₁ rs rn u s : Nat) : Prop :=
  x₀ ≤ u * p.sectorsPerStripeUnit + s ∧ u * p.sectorsPerStripeUnit + s < x₁ ∧ rs ≤ s ∧ s < rs + rn

instance (p : Params) (x₀ x₁ rs rn u s : Nat) : Decidable (InSpan p x₀ x₁ rs rn u s) := instDecidableAnd

section spans
variable {p : Params} {k : Nat} {operation : Operation} {disks : Disks} {buffer : Ptr} {x₀ x₁ rs rn u : Nat} {r : BlockRequest}

theorem dataRequest_some (h : dataRequest p k operation x₀ x₁ buffer rs rn u = some r) :
    ∃ lo hi, lo < hi ∧ hi ≤ p.sectorsPerStripeUnit ∧
      r = unitRequest p k operation u lo hi
        (buffer.add (p.sectorToByte (max x₀ (u * p.sectorsPerStripeUnit) - x₀))) ∧
      lo = max (max x₀ (u * p.sectorsPerStripeUnit) - u * p.sectorsPerStripeUnit) rs ∧
      hi = min (min x₁ ((u + 1) * p.sectorsPerStripeUnit) - u * p.sectorsPerStripeUnit) (rs + rn) := by
  obtain ⟨hlt, heq⟩ := Option.ite_none_right_eq_some.1 h
  refine ⟨_, _, hlt, ?_, (Option.some.inj heq).symm, rfl, rfl⟩
  rw [Nat.succ_mul]
  omega

theorem inSpan_iff {s : Nat} (hs : s < p.sectorsPerStripeUnit) :
    InSpan p x₀ x₁ rs rn u s ↔
      max (max x₀ (u * p.sectorsPerStripeUnit) - u * p.sectorsPerStripeUnit) rs ≤ s ∧
        s < min (min x₁ ((u + 1) * p.sectorsPerStripeUnit) - u * p.sectorsPerStripeUnit) (rs + rn) := by
  rw [InSpan, Nat.succ_mul]
  omega

theorem not_inSpan_of_none (h : dataRequest p k operation x₀ x₁ buffer rs rn u = none) {s : Nat}
    (hs : s < p.sectorsPerStripeUnit) : ¬ InSpan p x₀ x₁ rs rn u s := by
  rw [inSpan_iff hs]
  rintro ⟨hlo, hhi⟩
  rw [dataRequest, if_pos (by omega)] at h
  cases h

theorem reqSum_data {o : Nat} (ho : o < p.bytesPerStripeUnit) {φ : Nat → Byte}
    (halign : ∀ u < p.numDataCol, Aligned p disks k u)
    (hφ : ∀ u < p.numDataCol, UnitValid p disks k u → unitByte p disks k u o = φ u)
    (hvalid : ∀ r ∈ (List.range p.numDataCol).filterMap (dataRequest p k operation x₀ x₁ buffer rs rn), r.Valid p disks) :
    reqSum (((List.range p.numDataCol).filterMap (dataRequest p k operation x₀ x₁ buffer rs rn)).map (mark p disks))
        (fun r => (disks r.col r.row).data (p.height k * p.bytesPerStripeUnit + o)) (p.height k * p.bytesPerStripeUnit + o) =
      ∑ u ∈ range p.numDataCol, if InSpan p x₀ x₁ rs rn u (o / p.bytesPerSector) then φ u else 0 := by
  apply reqSum_units
  · intro u hu r hr
    have hthis := hvalid r (List.mem_filterMap.2 ⟨u, List.mem_range.2 hu, hr⟩)
    obtain ⟨lo, hi, hlt, hhi, rfl, rfl, rfl⟩ := dataRequest_some hr
    refine ⟨?_, fun _ => ?_⟩
    · rw [inSpan_iff (sector_lt ho), covers_mark]
      exact (and_iff_right (mark_of_valid hthis)).trans (covers_unitRequest o)
    · exact (unitByte_eq o).symm.trans (hφ u hu ((valid_unitRequest (halign u hu) hlt hhi).1 hthis))
  · intro u _ hnone
    exact not_inSpan_of_none hnone (sector_lt ho)

theorem reqSum_parity {o : Nat} {c : Byte} (halign : Aligned p disks k p.numDataCol) (hle : rs + rn ≤ p.sectorsPerStripeUnit)
    (hc : UnitValid p disks k p.numDataCol → unitByte p disks k p.numDataCol o = c)
    (hvalid : ∀ r ∈ (parityRequest p k operation buffer rs rn).toList, r.Valid p disks) :
    reqSum ((parityRequest p k operation buffer rs rn).toList.map (mark p disks))
        (fun r => (disks r.col r.row).data (p.height k * p.bytesPerStripeUnit + o)) (p.height k * p.bytesPerStripeUnit + o) =
      if rs ≤ o / p.bytesPerSector ∧ o / p.bytesPerSector < rs + rn then c else 0 := by
  rw [parityRequest] at hvalid ⊢
  split
  · rename_i hpos
    have hthis := hvalid (unitRequest p k operation p.numDataCol rs (rs + rn) buffer) (by simp [hpos])
    have hbyte := hc ((valid_unitRequest halign (by omega) hle).1 hthis)
    simp only [Option.toList_some, List.map_cons, List.map_nil, reqSum, List.sum_cons, List.sum_nil, add_zero]
    rw [← hbyte, unitByte_eq]
    refine if_congr ?_ rfl rfl
    rw [covers_mark, covers_unitRequest]
    exact and_iff_right (mark_of_valid hthis)
  · rw [if_neg (by omega)]
    rfl

/-- The buffer of the request lies between two offsets from a pointer. -/
structure BlockRequest.Within (r : BlockRequest) (q : Ptr) (a b : Nat) : Prop where
  buf : r.buffer.buf = q.buf
  first : q.off + a ≤ r.buffer.off
  last : r.buffer.off + r.bufferLen ≤ q.off + b

variable {q : Ptr} {a b a' b' : Nat}

theorem BlockRequest.Within.apart {r' : BlockRequest} (h : r.Within q a b)
    (h' : r'.Within q a' b') (hle : b ≤ a') : Apart r.buffer r.bufferLen r'.buffer r'.bufferLen := by
  have hlast := h.last
  have hfirst := h'.first
  exact .inr (.inl (by omega))

theorem BlockRequest.Within.mono (h : r.Within q a b) (ha : a' ≤ a) (hb : b ≤ b') : r.Within q a' b' := by
  have hfirst := h.first
  have hlast := h.last
  exact ⟨h.buf, by omega, by omega⟩

theorem BlockRequest.Within.add {c : Nat} (h : r.Within (q.add c) a b) : r.Within q (c + a) (c + b) := by
  have hfirst := h.first
  have hlast := h.last
  simp only [Ptr.add] at hfirst hlast
  exact ⟨h.buf, by omega, by omega⟩

theorem dataRequest_within (h : dataRequest p k operation x₀ x₁ buffer rs rn u = some r) :
    r.Within buffer ((max x₀ (u * p.sectorsPerStripeUnit) - x₀) * p.bytesPerSector)
      ((min x₁ ((u + 1) * p.sectorsPerStripeUnit) - x₀) * p.bytesPerSector) := by
  obtain ⟨lo, hi, hlt, hhi, rfl, hlo, hhi'⟩ := dataRequest_some h
  refine ⟨rfl, ?_, ?_⟩
  · show _ ≤ buffer.off + (p.sectorToByte _ : Nat)
    rw [Params.sectorToByte_eq]
  · rw [unitRequest_len]
    show buffer.off + (p.sectorToByte _ : Nat) + _ ≤ _
    have hle : (max x₀ (u * p.sectorsPerStripeUnit) - x₀) * p.bytesPerSector + (hi - lo) * p.bytesPerSector ≤
        (min x₁ ((u + 1) * p.sectorsPerStripeUnit) - x₀) * p.bytesPerSector := by
      rw [← Nat.add_mul]
      apply Nat.mul_le_mul_right
      omega
    rw [Params.sectorToByte_eq]
    omega

theorem dataRequest_within_all (h : dataRequest p k operation x₀ x₁ buffer rs rn u = some r) :
    r.Within buffer 0 ((x₁ - x₀) * p.bytesPerSector) :=
  (dataRequest_within h).mono (Nat.zero_le _) (Nat.mul_le_mul_right _ (by omega))

theorem dataRequests_apart :
    ((List.range p.numDataCol).filterMap (dataRequest p k operation x₀ x₁ buffer rs rn)).Pairwise fun r q =>
      Apart r.buffer r.bufferLen q.buffer q.bufferLen := by
  rw [List.pairwise_filterMap]
  apply List.pairwise_lt_range.imp
  intro u v huv r hr q hq
  refine (dataRequest_within hr).apart (dataRequest_within hq) (Nat.mul_le_mul_right _ ?_)
  have hle : (u + 1) * p.sectorsPerStripeUnit ≤ v * p.sectorsPerStripeUnit := Nat.mul_le_mul_right _ huv
  omega

theorem distinct_dataRequests :
    ((List.range p.numDataCol).filterMap (dataRequest p k operation x₀ x₁ buffer rs rn)).Pairwise fun r q =>
      ¬ (r.col = q.col ∧ r.row = q.row) := by
  rw [List.pairwise_filterMap]
  apply (List.nodup_range.imp_of_mem ?_)
  intro u v hu hv huv r hr q hq heq
  obtain ⟨_, _, _, _, rfl, _⟩ := dataRequest_some hr
  obtain ⟨_, _, _, _, rfl, _⟩ := dataRequest_some hq
  exact huv (Params.unitPlace_injective (Nat.le_of_lt (List.mem_range.1 hu)) (Nat.le_of_lt (List.mem_range.1 hv)) heq.1)

end spans

/-- A range of the units that has all of what is written: `rn` sectors from `rs` on. -/
structure Task.Range {p : Params} (w : Task p) (rs rn : Nat) : Prop where
  le : rs + rn ≤ p.sectorsPerStripeUnit
  lt : rs < p.sectorsPerStripeUnit
  holds : ∀ u, w.f < (u + 1) * p.sectorsPerStripeUnit → u * p.sectorsPerStripeUnit < w.t →
    rs ≤ max w.f (u * p.sectorsPerStripeUnit) - u * p.sectorsPerStripeUnit ∧
      min w.t ((u + 1) * p.sectorsPerStripeUnit) - u * p.sectorsPerStripeUnit ≤ rs + rn

structure Plan {p : Params} (w : Task p) (rs rn : Nat) (l : List BlockRequest) : Prop where
  region : w.Range rs rn
  shape : ∀ r ∈ l, ∃ u ≤ p.numDataCol, ∃ lo hi q, lo < hi ∧ rs ≤ lo ∧ hi ≤ rs + rn ∧
    r = unitRequest p w.k .read u lo hi q ∧ (q.buf = .readBuf ∨ q.buf = .parityBuf)
  apart : l.Pairwise fun r q => Apart r.buffer r.bufferLen q.buffer q.bufferLen
  sum : (∀ r ∈ l, r.Valid p w.disks) → ∀ o < p.bytesPerStripeUnit, rs ≤ o / p.bytesPerSector →
    o / p.bytesPerSector < rs + rn →
      reqSum (l.map (mark p w.disks))
          (fun r => (w.disks r.col r.row).data (p.height w.k * p.bytesPerStripeUnit + o))
          (p.height w.k * p.bytesPerStripeUnit + o) =
        ∑ u ∈ range p.numDataCol, if w.Writes u (o / p.bytesPerSector) then 0 else w.old u o

def AtEnd (p : Params) (k : Nat) (r : BlockRequest) : Prop :=
  ∃ lo hi, lo < hi ∧ hi ≤ p.sectorsPerStripeUnit ∧
    r.startAddress = p.sectorToByte (p.height k * p.sectorsPerStripeUnit + lo) ∧ r.bufferLen = p.sectorToByte (hi - lo) ∧
      (lo = 0 ∨ hi = p.sectorsPerStripeUnit)

section plans
variable {p : Params} {w : Task p} {rs rn : Nat}

/-- The data units from sector `x₀` to `x₁`. -/
def dataList (p : Params) (k x₀ x₁ : Nat) (buffer : Ptr) (rs rn : Nat) : List BlockRequest :=
  (List.range p.numDataCol).filterMap (dataRequest p k .read x₀ x₁ buffer rs rn)

def restList (w : Task p) (rs rn : Nat) : List BlockRequest :=
  dataList p w.k 0 w.f ⟨.readBuf, 0⟩ rs rn ++
    dataList p w.k w.t p.dataSectorsPerStripe ((⟨.readBuf, 0⟩ : Ptr).add (p.sectorToByte w.f)) rs rn

def parityList (w : Task p) (rs rn : Nat) : List BlockRequest :=
  (parityRequest p w.k .read ⟨.parityBuf, 0⟩ rs rn).toList

variable {x₀ x₁ : Nat} {buffer : Ptr} {k : Nat} {r : BlockRequest}

theorem mem_dataList (h : r ∈ dataList p k x₀ x₁ buffer rs rn) :
    ∃ u < p.numDataCol, dataRequest p k .read x₀ x₁ buffer rs rn u = some r := by
  obtain ⟨u, hu, hr⟩ := List.mem_filterMap.1 h
  exact ⟨u, List.mem_range.1 hu, hr⟩

theorem Task.aligned (w : Task p) {u : Nat} (hu : u ≤ p.numDataCol) : Aligned p w.disks w.k u := (w.sound u hu).aligned

variable {o : Nat}

theorem reqSum_dataList (hvalid : ∀ r ∈ dataList p w.k x₀ x₁ buffer rs rn, r.Valid p w.disks)
    (ho : o < p.bytesPerStripeUnit) :
    reqSum ((dataList p w.k x₀ x₁ buffer rs rn).map (mark p w.disks))
        (fun r => (w.disks r.col r.row).data (p.height w.k * p.bytesPerStripeUnit + o))
        (p.height w.k * p.bytesPerStripeUnit + o) =
      ∑ u ∈ range p.numDataCol, if InSpan p x₀ x₁ rs rn u (o / p.bytesPerSector) then w.old u o else 0 :=
  reqSum_data ho (fun _ hu => w.aligned (Nat.le_of_lt hu)) (fun _ _ hv => (old_of_valid hv o).symm) hvalid

theorem reqSum_parityList (hle : rs + rn ≤ p.sectorsPerStripeUnit) (hvalid : ∀ r ∈ parityList w rs rn, r.Valid p w.disks) (o : Nat) :
    reqSum ((parityList w rs rn).map (mark p w.disks))
        (fun r => (w.disks r.col r.row).data (p.height w.k * p.bytesPerStripeUnit + o))
        (p.height w.k * p.bytesPerStripeUnit + o) =
      if rs ≤ o / p.bytesPerSector ∧ o / p.bytesPerSector < rs + rn then w.old p.numDataCol o else 0 :=
  reqSum_parity (w.aligned (Nat.le_refl _)) hle (fun hv => (old_of_valid hv o).symm) hvalid

theorem unit_end {u : Nat} (hu : u < p.numDataCol) {s : Nat} (hs : s < p.sectorsPerStripeUnit) :
    u * p.sectorsPerStripeUnit + s < p.dataSectorsPerStripe := by
  have hle : (u + 1) * p.sectorsPerStripeUnit ≤ p.dataSectorsPerStripe := Nat.mul_le_mul_right _ hu
  rw [Nat.succ_mul] at hle
  omega

theorem reqSum_rest (hvalid : ∀ r ∈ restList w rs rn, r.Valid p w.disks) (ho : o < p.bytesPerStripeUnit) :
    reqSum ((restList w rs rn).map (mark p w.disks))
        (fun r => (w.disks r.col r.row).data (p.height w.k * p.bytesPerStripeUnit + o))
        (p.height w.k * p.bytesPerStripeUnit + o) =
      if rs ≤ o / p.bytesPerSector ∧ o / p.bytesPerSector < rs + rn then
        ∑ u ∈ range p.numDataCol, if w.Writes u (o / p.bytesPerSector) then 0 else w.old u o
      else 0 := by
  rw [restList] at hvalid ⊢
  rw [List.map_append, reqSum_append, reqSum_dataList (fun r hr => hvalid r (List.mem_append_left _ hr)) ho,
    reqSum_dataList (fun r hr => hvalid r (List.mem_append_right _ hr)) ho, ← sum_add_distrib]
  have hs := sector_lt ho
  split
  · rename_i hin
    apply sum_congr rfl
    intro u hu
    have hend := unit_end (mem_range.1 hu) hs
    have hf := w.f_lt
    rcases Nat.lt_or_ge (u * p.sectorsPerStripeUnit + o / p.bytesPerSector) w.f with hbefore | hafter
    · rw [if_pos ⟨Nat.zero_le _, hbefore, hin⟩, if_neg (fun h => absurd h.1 (by omega)), add_zero,
        if_neg (fun h => absurd h.1 (by omega))]
    · rw [if_neg (fun h => absurd h.2.1 (by omega)), zero_add]
      rcases Nat.lt_or_ge (u * p.sectorsPerStripeUnit + o / p.bytesPerSector) w.t with hlt | hge
      · rw [if_neg (fun h => absurd h.1 (by omega)), if_pos ⟨hafter, hlt⟩]
      · rw [if_pos ⟨hge, hend, hin⟩, if_neg (fun h => absurd h.2 (by omega))]
  · rename_i hout
    apply sum_eq_zero
    intro u _
    rw [if_neg (fun h => hout h.2.2), if_neg (fun h => hout h.2.2), add_zero]

theorem reqSum_written (hvalid : ∀ r ∈ dataList p w.k w.f w.t buffer rs rn, r.Valid p w.disks)
    (ho : o < p.bytesPerStripeUnit) :
    reqSum ((dataList p w.k w.f w.t buffer rs rn).map (mark p w.disks))
        (fun r => (w.disks r.col r.row).data (p.height w.k * p.bytesPerStripeUnit + o))
        (p.height w.k * p.bytesPerStripeUnit + o) =
      if rs ≤ o / p.bytesPerSector ∧ o / p.bytesPerSector < rs + rn then
        ∑ u ∈ range p.numDataCol, if w.Writes u (o / p.bytesPerSector) then w.old u o else 0
      else 0 := by
  rw [reqSum_dataList hvalid ho]
  split
  · rename_i hin
    apply sum_congr rfl
    intro u _
    refine if_congr ?_ rfl rfl
    exact ⟨fun h => ⟨h.1, h.2.1⟩, fun h => ⟨h.1, h.2, hin⟩⟩
  · rename_i hout
    apply sum_eq_zero
    intro u _
    exact if_neg fun h => hout h.2.2

theorem shape_dataList (h : r ∈ dataList p k x₀ x₁ buffer rs rn) :
    ∃ u < p.numDataCol, ∃ lo hi q, lo < hi ∧ rs ≤ lo ∧ hi ≤ rs + rn ∧ hi ≤ p.sectorsPerStripeUnit ∧
      r = unitRequest p k .read u lo hi q ∧ q.buf = buffer.buf ∧
        lo = max (max x₀ (u * p.sectorsPerStripeUnit) - u * p.sectorsPerStripeUnit) rs ∧
        hi = min (min x₁ ((u + 1) * p.sectorsPerStripeUnit) - u * p.sectorsPerStripeUnit) (rs + rn) := by
  obtain ⟨u, hu, hr⟩ := mem_dataList h
  obtain ⟨lo, hi, hlt, hhi, heq, hlo, hhi'⟩ := dataRequest_some hr
  exact ⟨u, hu, lo, hi, _, hlt, by omega, by omega, hhi, heq, rfl, hlo, hhi'⟩

theorem shape_parityList (h : r ∈ parityList w rs rn) :
    0 < rn ∧ r = unitRequest p w.k .read p.numDataCol rs (rs + rn) ⟨.parityBuf, 0⟩ := by
  rw [parityList, parityRequest] at h
  split at h
  · rename_i hpos
    exact ⟨hpos, by simpa using h⟩
  · simp at h

theorem within_dataList (h : r ∈ dataList p k x₀ x₁ buffer rs rn) :
    r.Within buffer 0 ((x₁ - x₀) * p.bytesPerSector) := by
  obtain ⟨u, _, hr⟩ := mem_dataList h
  exact dataRequest_within_all hr

/-- The two parts of the rest of the stripe fill the buffer up to where what is written
    would be. -/
theorem within_restList (h : r ∈ restList w rs rn) :
    r.Within ⟨.readBuf, 0⟩ 0 ((p.dataSectorsPerStripe - (w.t - w.f)) * p.bytesPerSector) := by
  have hf := w.f_lt
  have ht := w.t_le
  rcases List.mem_append.1 h with hr | hr
  · exact (within_dataList hr).mono (Nat.le_refl _) (Nat.mul_le_mul_right _ (by omega))
  · have hin := (within_dataList hr).add
    rw [Params.sectorToByte_eq, ← Nat.add_mul] at hin
    exact hin.mono (Nat.zero_le _) (Nat.mul_le_mul_right _ (by omega))

theorem apart_restList : (restList w rs rn).Pairwise fun r q => Apart r.buffer r.bufferLen q.buffer q.bufferLen := by
  rw [restList, List.pairwise_append]
  refine ⟨dataRequests_apart, dataRequests_apart, fun r hr q hq => ?_⟩
  refine (within_dataList hr).apart (within_dataList hq).add ?_
  rw [Params.sectorToByte_eq, Nat.add_zero]
  exact Nat.mul_le_mul_right _ (Nat.sub_le _ _)

theorem Task.wholeRange (w : Task p) : w.Range 0 p.sectorsPerStripeUnit := by
  refine ⟨by omega, p.sectors_pos, fun u _ _ => ⟨Nat.zero_le _, ?_⟩⟩
  rw [Nat.succ_mul]
  omega

theorem shape_restList (h : r ∈ restList w rs rn) :
    ∃ u < p.numDataCol, ∃ lo hi q, lo < hi ∧ rs ≤ lo ∧ hi ≤ rs + rn ∧ hi ≤ p.sectorsPerStripeUnit ∧
      r = unitRequest p w.k .read u lo hi q ∧ q.buf = .readBuf := by
  rcases List.mem_append.1 h with hr | hr
  · obtain ⟨u, hu, lo, hi, q, hlt, hlo, hhi, hle, heq, hbuf, _⟩ := shape_dataList hr
    exact ⟨u, hu, lo, hi, q, hlt, hlo, hhi, hle, heq, hbuf⟩
  · obtain ⟨u, hu, lo, hi, q, hlt, hlo, hhi, hle, heq, hbuf, _⟩ := shape_dataList hr
    exact ⟨u, hu, lo, hi, q, hlt, hlo, hhi, hle, heq, hbuf⟩

/-- **The rest of the stripe is read.** -/
theorem plan_reconstruct (h : w.Range rs rn) : Plan w rs rn (restList w rs rn) where
  region := h
  shape := by
    intro r hr
    obtain ⟨u, hu, lo, hi, q, hlt, hlo, hhi, _, heq, hbuf⟩ := shape_restList hr
    exact ⟨u, Nat.le_of_lt hu, lo, hi, q, hlt, hlo, hhi, heq, .inl hbuf⟩
  apart := apart_restList
  sum := by
    intro hvalid o ho hlo hhi
    rw [reqSum_rest hvalid ho, if_pos ⟨hlo, hhi⟩]

theorem old_modified (ho : o < p.bytesPerStripeUnit) :
    (∑ u ∈ range p.numDataCol, if w.Writes u (o / p.bytesPerSector) then w.old u o else 0) + w.old p.numDataCol o =
      ∑ u ∈ range p.numDataCol, if w.Writes u (o / p.bytesPerSector) then 0 else w.old u o :=
  sum_modified (fun u => w.Writes u (o / p.bytesPerSector)) (w.consistent o ho)

/-- **What is to be written and the parity are read.** -/
theorem plan_modify (h : w.Range rs rn) :
    Plan w rs rn (dataList p w.k w.f w.t ⟨.readBuf, 0⟩ 0 p.sectorsPerStripeUnit ++ parityList w rs rn) where
  region := h
  shape := by
    intro r hr
    rcases List.mem_append.1 hr with hd | hp
    · obtain ⟨u, hu, lo, hi, q, hlt, -, -, hle, heq, hbuf, hlo, hhi⟩ := shape_dataList hd
      have hholds := h.holds u (by rw [Nat.succ_mul] at *; omega) (by omega)
      exact ⟨u, Nat.le_of_lt hu, lo, hi, q, hlt, by omega, by omega, heq, .inl hbuf⟩
    · obtain ⟨hpos, heq⟩ := shape_parityList hp
      exact ⟨p.numDataCol, Nat.le_refl _, rs, rs + rn, _, by omega, Nat.le_refl _, Nat.le_refl _, heq, .inr rfl⟩
  apart := by
    rw [List.pairwise_append]
    refine ⟨dataRequests_apart, ?_, fun r hr q hq => ?_⟩
    · rw [parityList, parityRequest]
      split <;> simp
    · obtain ⟨-, heq⟩ := shape_parityList hq
      left
      rw [(within_dataList hr).buf, heq]
      exact fun h => by cases h
  sum := by
    intro hvalid o ho hlo hhi
    have hs := sector_lt ho
    rw [List.map_append, reqSum_append, reqSum_written (fun r hr => hvalid r (List.mem_append_left _ hr)) ho,
      reqSum_parityList h.le (fun r hr => hvalid r (List.mem_append_right _ hr)), if_pos ⟨Nat.zero_le _, by omega⟩,
      if_pos ⟨hlo, hhi⟩, old_modified ho]

/-- **Both**, in ranges that together are the unit. -/
theorem plan_split {fs fn : Nat} (hr : rs + rn ≤ p.sectorsPerStripeUnit)
    (hsplit : ∀ s < p.sectorsPerStripeUnit, (fs ≤ s ∧ s < fs + fn) ↔ ¬ (rs ≤ s ∧ s < rs + rn)) :
    Plan w 0 p.sectorsPerStripeUnit
      (restList w fs fn ++
        dataList p w.k w.f w.t
          ((⟨.readBuf, 0⟩ : Ptr).add (p.sectorToByte (p.dataSectorsPerStripe - (w.t - w.f)))) rs rn ++
        parityList w rs rn) where
  region := w.wholeRange
  shape := by
    intro r hmem
    rcases List.mem_append.1 hmem with hdata | hp
    · rcases List.mem_append.1 hdata with hrest | hd
      · obtain ⟨u, hu, lo, hi, q, hlt, -, -, hle, heq, hbuf⟩ := shape_restList hrest
        exact ⟨u, Nat.le_of_lt hu, lo, hi, q, hlt, Nat.zero_le _, by omega, heq, .inl hbuf⟩
      · obtain ⟨u, hu, lo, hi, q, hlt, -, -, hle, heq, hbuf, -⟩ := shape_dataList hd
        exact ⟨u, Nat.le_of_lt hu, lo, hi, q, hlt, Nat.zero_le _, by omega, heq, .inl hbuf⟩
    · obtain ⟨hpos, heq⟩ := shape_parityList hp
      exact ⟨p.numDataCol, Nat.le_refl _, rs, rs + rn, _, by omega, Nat.zero_le _, by omega, heq, .inr rfl⟩
  apart := by
    rw [List.pairwise_append, List.pairwise_append]
    refine ⟨⟨apart_restList, dataRequests_apart, fun r hr q hq => ?_⟩, ?_, fun r hr q hq => ?_⟩
    · refine (within_restList hr).apart (within_dataList hq).add ?_
      rw [Params.sectorToByte_eq, Nat.add_zero]
    · rw [parityList, parityRequest]
      split <;> simp
    · obtain ⟨-, heq⟩ := shape_parityList hq
      left
      rw [heq]
      rcases List.mem_append.1 hr with hrest | hd
      · rw [(within_restList hrest).buf]
        exact fun h => by cases h
      · rw [(within_dataList hd).buf]
        exact fun h => by cases h
  sum := by
    intro hvalid o ho _ _
    have hs := sector_lt ho
    rw [List.map_append, List.map_append, reqSum_append, reqSum_append,
      reqSum_rest (fun r hr => hvalid r (List.mem_append_left _ (List.mem_append_left _ hr))) ho,
      reqSum_written (fun r hr => hvalid r (List.mem_append_left _ (List.mem_append_right _ hr))) ho,
      reqSum_parityList hr (fun r hr => hvalid r (List.mem_append_right _ hr))]
    by_cases hin : fs ≤ o / p.bytesPerSector ∧ o / p.bytesPerSector < fs + fn
    · have hout := (hsplit _ hs).1 hin
      rw [if_pos hin, if_neg hout, if_neg hout, add_zero, add_zero]
    · have hin' := not_not.1 (mt (hsplit _ hs).2 hin)
      rw [if_neg hin, if_pos hin', if_pos hin', zero_add, old_modified ho]

end plans

end SpriteKernel.DevRaid.Initiate
