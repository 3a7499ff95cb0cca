import SpriteKernel.DevRaid.StripeWriteRun

/- The write phase of a stripe write: what the old contents that have been read and the new
   data give (`newParity_eq`), and what the writes leave (`Writing.written`). -/
namespace SpriteKernel.DevRaid.Initiate
open BlockRequest (mark byteAt)
open Striping Parity Finset Params Disk

def OnUnit (p : Params) (k u : Nat) (r : BlockRequest) : Prop :=
  r.col = (p.unitPlace k u).col ∧ r.row = (p.unitPlace k u).row

/-- The requests of the write phase, of which those that are ready go on. -/
structure Writing {p : Params} (w : Task p) (io : StripeIo) : Prop where
  status : io.status = .waiting .stripeWrite ∨ io.status = .waiting .stripeIo ∧ ¬ UnitValid p w.disks w.k w.d
  disks : io.disks = w.disks
  reqs : ∀ r ∈ io.reqControl.reqs, r.operation = .write ∧ ∃ u ≤ p.numDataCol, OnUnit p w.k u r ∧
    InUnit p (p.height w.k) r ∧ (r.state = .ready → UnitValid p w.disks w.k u) ∧
      ∀ o < p.bytesPerStripeUnit, r.Covers (p.height w.k * p.bytesPerStripeUnit + o) →
        r.byteAt io.mem (p.height w.k * p.bytesPerStripeUnit + o) = w.new u o
  distinct : io.reqControl.reqs.Pairwise fun r q => ¬ (r.col = q.col ∧ r.row = q.row)
  complete : ∀ u ≤ p.numDataCol, UnitValid p w.disks w.k u → ∀ o < p.bytesPerStripeUnit, w.new u o ≠ w.old u o →
    ∃ r ∈ io.reqControl.reqs, r.state = .ready ∧ OnUnit p w.k u r ∧ r.Covers (p.height w.k * p.bytesPerStripeUnit + o)

/-- Of a disk only a part has changed, or it has failed as well. -/
structure Disk.Changed (start len : Nat) (mayFail : Prop) (old new : Disk) : Prop where
  data : ∀ a, a < start ∨ start + len ≤ a → new.data a = old.data a
  state : new.state = old.state ∧ new.numValidSector = old.numValidSector ∧ new.saved = old.saved ∨
    mayFail ∧ new.state = .failed ∧ new.numValidSector = 0 ∧ new.saved = 0

/-- What a write that succeeds leaves. -/
structure Written {p : Params} (w : Task p) (disks : Disks) : Prop where
  bytes : ∀ u ≤ p.numDataCol, UnitValid p disks w.k u → ∀ o < p.bytesPerStripeUnit, unitByte p disks w.k u o = w.new u o
  valid : ∀ u ≤ p.numDataCol, u ≠ w.d → UnitValid p disks w.k u
  changed : ∀ u ≤ p.numDataCol,
    Changed (p.height w.k * p.bytesPerStripeUnit) p.bytesPerStripeUnit (u = w.d)
      (w.disks (p.unitPlace w.k u).col (p.unitPlace w.k u).row) (disks (p.unitPlace w.k u).col (p.unitPlace w.k u).row)
  others : ∀ col row, (∀ u ≤ p.numDataCol, ¬ (col = (p.unitPlace w.k u).col ∧ row = (p.unitPlace w.k u).row)) →
    disks col row = w.disks col row

/-- Of the stripe's writes only those on the disk of unit `d` fail, and no other disk fails. -/
structure Task.OnlyFails {p : Params} (w : Task p) (out : Outcome) : Prop where
  writes : ∀ r, ∀ u ≤ p.numDataCol, OnUnit p w.k u r → r.operation = .write → out.fails r = true → u = w.d
  disks : ∀ col row, out.failDisk col row = true → col = (p.unitPlace w.k w.d).col ∧ row = (p.unitPlace w.k w.d).row

section writes
variable {p : Params} {w : Task p} {io : StripeIo} {out : Outcome}

variable {r : BlockRequest} {u start len : Nat} {mayFail : Prop} {old new : Disk}

theorem OnUnit.unit_eq {v : Nat} (hu : u ≤ p.numDataCol) (hv : v ≤ p.numDataCol)
    (h : OnUnit p w.k u r) (h' : OnUnit p w.k v r) : u = v := unitPlace_injective hu hv (h.1.symm.trans h'.1)

theorem Disk.fail_data (disk : Disk) : disk.fail.data = disk.data := by
  rw [Disk.fail]
  split <;> rfl

theorem Disk.fail_valid (disk : Disk) : disk.fail.numValidSector = disk.numValidSector ∨ disk.fail.numValidSector = 0 := by
  rw [Disk.fail]
  split
  · exact .inr rfl
  · exact .inl rfl

theorem Disk.fail_fail (disk : Disk) : disk.fail.fail = disk.fail := by
  by_cases h : disk.state = .ready
  · have heq : disk.fail = { disk with state := .failed, saved := 0, numValidSector := 0 } := if_pos h
    rw [heq]
    exact if_neg nofun
  · have heq : disk.fail = disk := if_neg h
    rw [heq, heq]

theorem Disk.Changed.fail (h : Changed start len mayFail old new)
    (hmay : mayFail) : Changed start len mayFail old new.fail := by
  refine ⟨fun a ha => (congrFun new.fail_data a).trans (h.data a ha), ?_⟩
  rw [Disk.fail]
  split
  · exact .inr ⟨hmay, rfl, rfl, rfl⟩
  · exact h.state

theorem Disk.Changed.of_fail
    (h : Changed start len mayFail old.fail new) (hmay : mayFail) : Changed start len mayFail old new := by
  refine ⟨fun a ha => (h.data a ha).trans (congrFun old.fail_data a), ?_⟩
  have hstate := h.state
  rw [Disk.fail] at hstate
  split at hstate
  · rcases hstate with ⟨h1, h2, h3⟩ | hfailed
    · exact .inr ⟨hmay, h1, h2, h3⟩
    · exact .inr hfailed
  · exact hstate

theorem Disk.Changed.same (start len : Nat) (mayFail : Prop) (disk : Disk) : Changed start len mayFail disk disk :=
  ⟨fun _ _ => rfl, .inl ⟨rfl, rfl, rfl⟩⟩

variable {a : Nat}

theorem InUnit.fill_data (h : InUnit p (p.height w.k) r) (disk : Disk) (bytes : Nat → Byte) (ha : a < p.height w.k * p.bytesPerStripeUnit ∨ p.height w.k * p.bytesPerStripeUnit + p.bytesPerStripeUnit ≤ a) :
    (disk.fill r.startAddress r.bufferLen bytes).data a = disk.data a := by
  have hfirst := h.first
  have hlast := h.last
  rw [Nat.succ_mul] at hlast
  apply if_neg
  omega

theorem fill_covered (h : r.Covers a) (disk : Disk) (bytes : Nat → Byte) :
    (disk.fill r.startAddress r.bufferLen bytes).data a = bytes (a - r.startAddress) := if_pos h

theorem fill_uncovered (h : ¬ r.Covers a) (disk : Disk) (bytes : Nat → Byte) :
    (disk.fill r.startAddress r.bufferLen bytes).data a = disk.data a := if_neg h

theorem Task.ready_of_valid (w : Task p) (hu : u ≤ p.numDataCol) (h : UnitValid p w.disks w.k u) :
    (w.disks (p.unitPlace w.k u).col (p.unitPlace w.k u).row).state = .ready := by
  apply (w.sound u hu).ready
  have hpos := p.sectors_pos
  exact Nat.lt_of_lt_of_le (by omega) h

theorem written_disk (h : Writing w io) (hout : w.OnlyFails out) (hr : r ∈ io.reqControl.reqs)
    (hready : r.state = .ready) (hu : u ≤ p.numDataCol) (hon : OnUnit p w.k u r) :
    let disk := w.disks (p.unitPlace w.k u).col (p.unitPlace w.k u).row
    let disk' := (io.complete out).disks (p.unitPlace w.k u).col (p.unitPlace w.k u).row
    disk' = disk.fill r.startAddress r.bufferLen (fun i => io.mem r.buffer.buf (r.buffer.off + i)) ∨
      u = w.d ∧ disk'.numValidSector = 0 ∧
        Changed (p.height w.k * p.bytesPerStripeUnit) p.bytesPerStripeUnit (u = w.d) disk disk' := by
  intro disk disk'
  obtain ⟨hwrite, v, hv, hon', hin, hvalid, -⟩ := h.reqs r hr
  have huv := hon.unit_eq hu hv hon'
  rw [← huv] at hvalid
  have hdisk : disk' = r.written out io.mem disk := by
    have hthis : (transferAll out io.reqControl.reqs io.mem io.disks).2 r.col r.row = _ := transferAll_write_disk
      (fun q hq _ => (h.reqs q hq).1) h.distinct hr hready
    rw [h.disks, hon.1, hon.2] at hthis
    show (transferAll out io.reqControl.reqs io.mem io.disks).2 _ _ = _
    rw [h.disks]
    exact hthis
  rw [BlockRequest.written] at hdisk
  split at hdisk
  · rename_i hfails
    right
    have hud : u = w.d := hout.writes r u hu hon hwrite hfails
    have hstate : (disk.fill r.startAddress r.bufferLen (out.leaves r)).state = .ready := w.ready_of_valid hu (hvalid hready)
    rw [Disk.fail, if_pos hstate] at hdisk
    rw [hdisk]
    exact ⟨hud, rfl, ⟨fun a ha => hin.fill_data disk _ ha, .inr ⟨hud, rfl, rfl, rfl⟩⟩⟩
  · exact .inl hdisk

theorem untouched_disk (h : Writing w io) {col row : Nat} (hno : ∀ r ∈ io.reqControl.reqs, r.state = .ready →
    ¬ (col = r.col ∧ row = r.row)) : (io.complete out).disks col row = w.disks col row := by
  have hthis : (transferAll out io.reqControl.reqs io.mem io.disks).2 col row = io.disks col row :=
    (transferAll_writes fun q hq _ => (h.reqs q hq).1).2 col row hno
  rw [h.disks] at hthis
  show (transferAll out io.reqControl.reqs io.mem io.disks).2 _ _ = _
  rw [h.disks]
  exact hthis

/-- **What the write phase leaves.** -/
theorem Writing.written (h : Writing w io) (hout : w.OnlyFails out) : Written w (io.complete out).disks := by
  have hS := p.sectors_pos
  have hcases : ∀ u ≤ p.numDataCol,
      (∃ r ∈ io.reqControl.reqs, r.state = .ready ∧ OnUnit p w.k u r) ∨
        (io.complete out).disks (p.unitPlace w.k u).col (p.unitPlace w.k u).row =
          w.disks (p.unitPlace w.k u).col (p.unitPlace w.k u).row ∧
        ∀ r ∈ io.reqControl.reqs, r.state = .ready → ¬ OnUnit p w.k u r := by
    intro u _
    by_cases hex : ∃ r ∈ io.reqControl.reqs, r.state = .ready ∧ OnUnit p w.k u r
    · exact .inl hex
    · have hno : ∀ r ∈ io.reqControl.reqs, r.state = .ready → ¬ OnUnit p w.k u r :=
        fun r hr hready hon => hex ⟨r, hr, hready, hon⟩
      exact .inr ⟨untouched_disk h fun r hr hready heq => hno r hr hready ⟨heq.1.symm, heq.2.symm⟩, hno⟩
  constructor
  · intro u hu hvalid o ho
    rcases hcases u hu with ⟨r, hr, hready, hon⟩ | ⟨hsame, hno⟩
    · obtain ⟨-, v, hv, hon', -, hwas, hbytes⟩ := h.reqs r hr
      rw [← hon.unit_eq hu hv hon'] at hwas
      rcases written_disk h hout hr hready hu hon with heq | ⟨-, hzero, -⟩
      · rw [unitByte_eq, heq]
        by_cases hcov : r.Covers (p.height w.k * p.bytesPerStripeUnit + o)
        · have hbyte := hbytes o ho hcov
          rw [← hon.unit_eq hu hv hon'] at hbyte
          rw [← hbyte, byteAt, fill_covered hcov]
          obtain ⟨hlo, -⟩ := hcov
          congr 2
          omega
        · rw [fill_uncovered hcov, ← unitByte_eq, ← old_of_valid (hwas hready)]
          -- nothing is to change there: the request is the only one for the unit
          by_contra hne
          obtain ⟨q, hq, -, honq, hcovq⟩ := h.complete u hu (hwas hready) o ho (Ne.symm hne)
          by_cases hqr : q = r
          · exact hcov (hqr ▸ hcovq)
          · have : Std.Symm fun r q : BlockRequest => ¬ (r.col = q.col ∧ r.row = q.row) :=
              ⟨fun a b hab heq => hab ⟨heq.1.symm, heq.2.symm⟩⟩
            exact h.distinct.forall hq hr hqr ⟨honq.1.trans hon.1.symm, honq.2.trans hon.2.symm⟩
      · rw [UnitValid, isValid, hzero] at hvalid
        omega
    · rw [UnitValid, hsame] at hvalid
      rw [unitByte_eq, hsame, ← unitByte_eq, ← old_of_valid hvalid]
      by_contra hne
      obtain ⟨q, hq, hready, honq, -⟩ := h.complete u hu hvalid o ho (Ne.symm hne)
      exact hno q hq hready honq
  · intro u hu hud
    rcases hcases u hu with ⟨r, hr, hready, hon⟩ | ⟨hsame, -⟩
    · rcases written_disk h hout hr hready hu hon with heq | ⟨hud', -⟩
      · rw [UnitValid, heq]
        exact w.valid u hu hud
      · exact absurd hud' hud
    · rw [UnitValid, hsame]
      exact w.valid u hu hud
  · intro u hu
    rcases hcases u hu with ⟨r, hr, hready, hon⟩ | ⟨hsame, -⟩
    · rcases written_disk h hout hr hready hu hon with heq | ⟨-, -, hchanged⟩
      · obtain ⟨-, v, hv, hon', hin, -⟩ := h.reqs r hr
        rw [heq]
        exact ⟨fun a ha => hin.fill_data _ _ ha, .inl ⟨rfl, rfl, rfl⟩⟩
      · exact hchanged
    · rw [hsame]
      exact Changed.same _ _ _ _
  · intro col row hno
    refine untouched_disk h fun r hr _ heq => ?_
    obtain ⟨-, v, hv, hon, -⟩ := h.reqs r hr
    exact hno v hv ⟨heq.1.trans hon.1, heq.2.trans hon.2⟩

theorem Written.failDisks (h : Written w io.disks) (hout : w.OnlyFails out) : Written w (io.failDisks out).disks := by
  have hdisk : ∀ col row, (io.failDisks out).disks col row = io.disks col row ∨
      (io.failDisks out).disks col row = (io.disks col row).fail ∧ col = (p.unitPlace w.k w.d).col ∧
        row = (p.unitPlace w.k w.d).row := by
    intro col row
    by_cases hfail : out.failDisk col row = true
    · exact .inr ⟨if_pos hfail, hout.disks col row hfail⟩
    · exact .inl (if_neg hfail)
  constructor
  · intro u hu hvalid o ho
    rcases hdisk (p.unitPlace w.k u).col (p.unitPlace w.k u).row with heq | ⟨heq, -⟩
    · rw [UnitValid, heq] at hvalid
      rw [unitByte, heq]
      exact h.bytes u hu hvalid o ho
    · rw [UnitValid, heq] at hvalid
      rw [unitByte, heq, fail_data]
      refine h.bytes u hu ?_ o ho
      rw [UnitValid, isValid]
      rcases (io.disks (p.unitPlace w.k u).col (p.unitPlace w.k u).row).fail_valid with hsame | hzero
      · rw [← hsame]
        exact hvalid
      · rw [isValid, hzero] at hvalid
        omega
  · intro u hu hud
    rcases hdisk (p.unitPlace w.k u).col (p.unitPlace w.k u).row with heq | ⟨-, hcol, -⟩
    · rw [UnitValid, heq]
      exact h.valid u hu hud
    · exact absurd (unitPlace_injective hu w.d_le hcol) hud
  · intro u hu
    rcases hdisk (p.unitPlace w.k u).col (p.unitPlace w.k u).row with heq | ⟨heq, hcol, -⟩
    · rw [heq]
      exact h.changed u hu
    · rw [heq]
      exact (h.changed u hu).fail (unitPlace_injective hu w.d_le hcol)
  · intro col row hno
    rcases hdisk col row with heq | ⟨-, hcol, hrow⟩
    · rw [heq]
      exact h.others col row hno
    · exact absurd ⟨hcol, hrow⟩ (hno w.d w.d_le)

theorem Writing.failures (h : Writing w io) (hout : w.OnlyFails out) :
    (failures out io.reqControl.reqs).length ≤ 1 ∧
      (¬ UnitValid p w.disks w.k w.d → (failures out io.reqControl.reqs).length = 0) := by
  have hon : ∀ r ∈ io.reqControl.reqs.filter (fun r => r.state = .ready ∧ out.fails r), OnUnit p w.k w.d r ∧
      UnitValid p w.disks w.k w.d := by
    intro r hr
    obtain ⟨hmem, hboth⟩ := List.mem_filter.1 hr
    obtain ⟨hready, hfails⟩ := of_decide_eq_true hboth
    obtain ⟨hwrite, u, hu, honu, -, hvalid, -⟩ := h.reqs r hmem
    have hud := hout.writes r u hu honu hwrite hfails
    rw [hud] at honu hvalid
    exact ⟨honu, hvalid hready⟩
  rw [Initiate.failures, List.length_map]
  have hdistinct := h.distinct.filter (fun r => decide (r.state = .ready ∧ out.fails r = true))
  revert hon hdistinct
  generalize io.reqControl.reqs.filter (fun r => decide (r.state = .ready ∧ out.fails r = true)) = l
  intro hon hdistinct
  constructor
  · match l, hon, hdistinct with
    | [], _, _ => exact Nat.zero_le _
    | [_], _, _ => exact Nat.le_refl _
    | r :: q :: l, hon, hdistinct =>
      have hr := (hon r List.mem_cons_self).1
      have hq := (hon q (List.mem_cons_of_mem r List.mem_cons_self)).1
      exact absurd ⟨hr.1.trans hq.1.symm, hr.2.trans hq.2.symm⟩ ((List.pairwise_cons.1 hdistinct).1 q List.mem_cons_self)
  · intro hinvalid
    match l, hon with
    | [], _ => rfl
    | r :: l, hon => exact absurd (hon r List.mem_cons_self).2 hinvalid

/-- **The write phase succeeds.** -/
theorem Writing.step (h : Writing w io) (hout : w.OnlyFails out) :
    (io.step p out).status = .done 0 ∧ Written w (io.step p out).disks := by
  obtain ⟨hone, hnone⟩ := h.failures hout
  have hwritten := (h.written hout).failDisks hout
  rw [StripeIo.step]
  rcases h.status with hstatus | ⟨hstatus, hinvalid⟩
  · rw [hstatus]
    simp only [StripeIo.callDone, if_pos hone]
    exact ⟨trivial, hwritten⟩
  · rw [hstatus]
    simp only [StripeIo.callDone, hnone hinvalid]
    exact ⟨trivial, hwritten⟩

end writes

section newData
variable {p : Params} {w : Task p} {rs rn : Nat} {mem : Mem}

def writeList (w : Task p) (rs rn : Nat) : List BlockRequest :=
  (List.range p.numDataCol).filterMap (dataRequest p w.k .write w.f w.t ⟨.user, 0⟩ rs rn)

def BlockRequest.settle (p : Params) (disks : Disks) (r : BlockRequest) : BlockRequest :=
  { r with state := if r.Valid p disks then .ready else .completed }

theorem ok_settle (disks : Disks) (r : BlockRequest) : (r.settle p disks).Ok := by
  rw [BlockRequest.Ok, BlockRequest.settle]
  split
  · exact .inl rfl
  · exact .inr rfl

variable {disks : Disks} {r : BlockRequest}

theorem covers_settle {addr : Nat} : (r.settle p disks).Covers addr ↔ r.Covers addr := Iff.rfl

theorem ready_settle : (r.settle p disks).state = .ready ↔ r.Valid p disks := by
  rw [BlockRequest.settle]
  split
  · rename_i h
    exact ⟨fun _ => h, fun _ => rfl⟩
  · rename_i h
    exact ⟨nofun, fun h' => absurd h' h⟩

theorem mem_writeList (h : w.Range rs rn) (hr : r ∈ writeList w rs rn) :
    ∃ u < p.numDataCol, ∃ lo hi q, lo < hi ∧ rs ≤ lo ∧ hi ≤ rs + rn ∧ r = unitRequest p w.k .write u lo hi q ∧ q.buf = .user ∧
      (∀ s < p.sectorsPerStripeUnit, (lo ≤ s ∧ s < hi) ↔ w.Writes u s) ∧
      q.off = ((u * p.sectorsPerStripeUnit + lo - w.f) * p.bytesPerSector : Nat) ∧ w.f ≤ u * p.sectorsPerStripeUnit + lo := by
  obtain ⟨u, hu, hreq⟩ := List.mem_filterMap.1 hr
  obtain ⟨lo, hi, hlt, hhi, heq, hlo, hhi'⟩ := dataRequest_some hreq
  have hholds := h.holds u (by omega) (by omega)
  refine ⟨u, List.mem_range.1 hu, lo, hi, _, hlt, by omega, by omega, heq, rfl, fun s hs => ?_, ?_, by omega⟩
  · rw [Task.Writes]
    rw [Nat.succ_mul] at hhi' hholds
    omega
  · show (0 : Int) + _ = _
    rw [Int.zero_add, sectorToByte_eq]
    congr 2
    omega

variable {o : Nat}

theorem byteAt_writeList (h : w.Range rs rn) (huser : ∀ off, mem .user off = w.user off) (hr : r ∈ writeList w rs rn) {u : Nat} (hu : u ≤ p.numDataCol) (hon : OnUnit p w.k u r) (ho : o < p.bytesPerStripeUnit) (hcov : r.Covers (p.height w.k * p.bytesPerStripeUnit + o)) :
    w.Writes u (o / p.bytesPerSector) ∧
      r.byteAt mem (p.height w.k * p.bytesPerStripeUnit + o) =
        w.user ((u * p.bytesPerStripeUnit + o : Nat) - (w.f * p.bytesPerSector : Nat)) := by
  obtain ⟨v, hv, lo, hi, q, hlt, -, -, heq, hbuf, hspan, hoff, hfirst⟩ := mem_writeList h hr
  have huv : u = v := by
    rw [heq] at hon
    exact unitPlace_injective hu (Nat.le_of_lt hv) hon.1.symm
  rw [heq, covers_unitRequest] at hcov
  refine ⟨huv ▸ (hspan _ (sector_lt ho)).1 hcov, ?_⟩
  rw [byteAt, heq, unitRequest_start]
  show mem q.buf (q.off + _) = _
  rw [hbuf, huser, hoff, huv]
  congr 1
  have hmul : w.f * p.bytesPerSector ≤ (v * p.sectorsPerStripeUnit + lo) * p.bytesPerSector := Nat.mul_le_mul_right _ hfirst
  have hexp : (v * p.sectorsPerStripeUnit + lo) * p.bytesPerSector = v * p.bytesPerStripeUnit + lo * p.bytesPerSector := by
    rw [Nat.add_mul, Nat.mul_assoc, ← bytesPerStripeUnit_eq]
  rw [Nat.sub_mul]
  omega

theorem reqSum_writeList (h : w.Range rs rn) (huser : ∀ off, mem .user off = w.user off) (ho : o < p.bytesPerStripeUnit) (hlo : rs ≤ o / p.bytesPerSector) (hhi : o / p.bytesPerSector < rs + rn) :
    reqSum ((writeList w rs rn).map (BlockRequest.settle p w.disks))
        (fun r => r.byteAt mem (p.height w.k * p.bytesPerStripeUnit + o)) (p.height w.k * p.bytesPerStripeUnit + o) =
      ∑ u ∈ range p.numDataCol, if w.Writes u (o / p.bytesPerSector) then
        w.user ((u * p.bytesPerStripeUnit + o : Nat) - (w.f * p.bytesPerSector : Nat)) else 0 := by
  apply reqSum_units
  · intro u hu r hr
    have hmem : r ∈ writeList w rs rn := List.mem_filterMap.2 ⟨u, List.mem_range.2 hu, hr⟩
    obtain ⟨lo, hi, hlt, hhi', heq, hlo', hhi''⟩ := dataRequest_some hr
    have hon : OnUnit p w.k u r := by rw [heq]; exact ⟨rfl, rfl⟩
    have hcov : r.Covers (p.height w.k * p.bytesPerStripeUnit + o) ↔ w.Writes u (o / p.bytesPerSector) := by
      constructor
      · exact fun hcov => (byteAt_writeList h huser hmem (Nat.le_of_lt hu) hon ho hcov).1
      · intro hw
        have hs := sector_lt ho
        rw [heq, covers_unitRequest, hlo', hhi'']
        exact (inSpan_iff hs).1 ⟨hw.1, hw.2, hlo, hhi⟩
    exact ⟨(and_iff_right (ok_settle _ r)).trans (covers_settle.trans hcov),
      fun hw => (byteAt_writeList h huser hmem (Nat.le_of_lt hu) hon ho (hcov.2 hw)).2⟩
  · intro u hu hnone hw
    exact not_inSpan_of_none hnone (sector_lt ho) ⟨hw.1, hw.2, hlo, hhi⟩

theorem writing_data (h : w.Range rs rn) (huser : ∀ off, mem .user off = w.user off) :
    ∀ r ∈ (writeList w rs rn).map (BlockRequest.settle p w.disks), r.operation = .write ∧ ∃ u < p.numDataCol, OnUnit p w.k u r ∧
      InUnit p (p.height w.k) r ∧ (r.state = .ready → UnitValid p w.disks w.k u) ∧
        ∀ o < p.bytesPerStripeUnit, r.Covers (p.height w.k * p.bytesPerStripeUnit + o) →
          r.byteAt mem (p.height w.k * p.bytesPerStripeUnit + o) = w.new u o := by
  intro r' hr'
  obtain ⟨r, hr, rfl⟩ := List.mem_map.1 hr'
  obtain ⟨u, hu, lo, hi, q, hlt, -, hhi, heq, -, -⟩ := mem_writeList h hr
  have hle := h.le
  have hon : OnUnit p w.k u r := by rw [heq]; exact ⟨rfl, rfl⟩
  refine ⟨by rw [heq]; rfl, u, hu, hon, ?_, fun hready => ?_, fun o ho hcov => ?_⟩
  · have hin : InUnit p (p.height w.k) r := by
      rw [heq]
      exact unitRequest_inUnit hlt (Nat.le_trans hhi hle)
    exact ⟨hin.pos, hin.first, hin.last⟩
  · rw [ready_settle, heq] at hready
    exact (valid_unitRequest (w.aligned (Nat.le_of_lt hu)) hlt (by omega)).1 hready
  · obtain ⟨hw, hbyte⟩ := byteAt_writeList h huser hr (Nat.le_of_lt hu) hon ho hcov
    rw [new_data_eq hu, Task.newData, written, if_pos hw]
    exact hbyte

theorem distinct_data : ((writeList w rs rn).map (BlockRequest.settle p w.disks)).Pairwise fun r q =>
    ¬ (r.col = q.col ∧ r.row = q.row) := by
  rw [List.pairwise_map]
  exact distinct_dataRequests

theorem complete_data (h : w.Range rs rn) {u : Nat} (hu : u < p.numDataCol) (hvalid : UnitValid p w.disks w.k u) (ho : o < p.bytesPerStripeUnit) (hw : w.Writes u (o / p.bytesPerSector)) :
    ∃ r ∈ (writeList w rs rn).map (BlockRequest.settle p w.disks), r.state = .ready ∧ OnUnit p w.k u r ∧
      r.Covers (p.height w.k * p.bytesPerStripeUnit + o) := by
  obtain ⟨s, hs⟩ : ∃ s, s = o / p.bytesPerSector := ⟨_, rfl⟩
  have hsS : s < p.sectorsPerStripeUnit := hs ▸ sector_lt ho
  obtain ⟨hw1, hw2⟩ := hw
  have hsucc : (u + 1) * p.sectorsPerStripeUnit = u * p.sectorsPerStripeUnit + p.sectorsPerStripeUnit := Nat.succ_mul _ _
  obtain ⟨-, hreq⟩ := written_dataRequest (w := w) (u := u) (by omega) (by omega) h .write ⟨.user, 0⟩
  have hmem : _ ∈ writeList w rs rn := List.mem_filterMap.2 ⟨u, List.mem_range.2 hu, hreq⟩
  obtain ⟨lo, hi, hlt, hhi, heq, hlo, hhi'⟩ := dataRequest_some hreq
  rw [heq] at hmem
  refine ⟨_, List.mem_map.2 ⟨_, hmem, rfl⟩, ready_settle.2 ?_, ⟨rfl, rfl⟩, ?_⟩
  · exact (valid_unitRequest (w.aligned (Nat.le_of_lt hu)) hlt hhi).2 hvalid
  · rw [covers_settle, covers_unitRequest, ← hs]
    have hholds := h.holds u (by omega) (by omega)
    omega

theorem byte_in_range (h : w.Range rs rn) {i : Nat} (hi : i < p.sectorToByte rn) :
    p.sectorToByte rs + i < p.bytesPerStripeUnit ∧ rs ≤ (p.sectorToByte rs + i) / p.bytesPerSector ∧
      (p.sectorToByte rs + i) / p.bytesPerSector < rs + rn := by
  have hB := p.bytesPerSector_pos
  have hle : (rs + rn) * p.bytesPerSector ≤ p.bytesPerStripeUnit := by
    rw [bytesPerStripeUnit_eq]
    exact Nat.mul_le_mul_right _ h.le
  rw [sectorToByte_eq] at hi ⊢
  rw [Nat.add_mul] at hle
  rw [Nat.le_div_iff_mul_le hB, Nat.div_lt_iff_lt_mul hB, Nat.add_mul]
  omega

theorem reaches_of_range {lo hi : Nat} (h : w.Range rs rn) (hlt : lo < hi) (hlo : rs ≤ lo) (hhi : hi ≤ rs + rn)
    (hstart : r.startAddress = p.height w.k * p.bytesPerStripeUnit + lo * p.bytesPerSector)
    (hlen : r.bufferLen = (hi - lo) * p.bytesPerSector) (hbuf : r.buffer.buf ≠ .newParityBuf) :
    Reaches p (p.height w.k) (p.sectorToByte rs) (p.sectorToByte rn) ⟨.newParityBuf, 0⟩ r := by
  have hB := p.bytesPerSector_pos
  have h1 : rs * p.bytesPerSector ≤ lo * p.bytesPerSector := Nat.mul_le_mul_right _ hlo
  have h2 : lo * p.bytesPerSector < hi * p.bytesPerSector := Nat.mul_lt_mul_of_pos_right hlt hB
  have h3 : hi * p.bytesPerSector ≤ (rs + rn) * p.bytesPerSector := Nat.mul_le_mul_right _ hhi
  have h4 : (rs + rn) * p.bytesPerSector ≤ p.bytesPerStripeUnit := by
    rw [bytesPerStripeUnit_eq]
    exact Nat.mul_le_mul_right _ h.le
  rw [Nat.add_mul] at h3 h4
  rw [Nat.sub_mul] at hlen
  refine ⟨⟨by omega, by omega, by rw [Nat.succ_mul]; omega⟩, ?_, ?_, .inl hbuf⟩
  · rw [sectorToByte_eq, sectorToByte_eq]
    omega
  · rw [sectorToByte_eq]
    omega

/-- What the data are exclusive-or'ed with, and into. -/
structure ReadIn (w : Task p) (rs rn : Nat) (reqs : List BlockRequest) (mem : Mem) : Prop where
  region : w.Range rs rn
  user : ∀ off, mem .user off = w.user off
  reaches : ∀ r ∈ reqs, r.Ok → Reaches p (p.height w.k) (p.sectorToByte rs) (p.sectorToByte rn) ⟨.newParityBuf, 0⟩ r
  buf : ∀ r ∈ reqs, r.buffer.buf ≠ .newParityBuf
  sum : ∀ o < p.bytesPerStripeUnit, rs ≤ o / p.bytesPerSector → o / p.bytesPerSector < rs + rn →
    reqSum reqs (fun r => r.byteAt mem (p.height w.k * p.bytesPerStripeUnit + o)) (p.height w.k * p.bytesPerStripeUnit + o) =
      ∑ u ∈ range p.numDataCol, if w.Writes u (o / p.bytesPerSector) then 0 else w.old u o

theorem Reaches.settle {b ro rl : Nat} {dest : Ptr} (h : Reaches p b ro rl dest r) :
    Reaches p b ro rl dest (r.settle p disks) := ⟨⟨h.unit.pos, h.unit.first, h.unit.last⟩, h.meets, h.met, h.apart⟩

theorem reaches_writeList (h : w.Range rs rn) : ∀ r ∈ (writeList w rs rn).map (BlockRequest.settle p w.disks), r.Ok →
    Reaches p (p.height w.k) (p.sectorToByte rs) (p.sectorToByte rn) ⟨.newParityBuf, 0⟩ r := by
  intro r' hr' _
  obtain ⟨r, hr, rfl⟩ := List.mem_map.1 hr'
  obtain ⟨u, hu, lo, hi, q, hlt, hlo, hhi, rfl, hbuf, -⟩ := mem_writeList h hr
  have hne : q.buf ≠ .newParityBuf := by
    rw [hbuf]
    nofun
  exact (reaches_of_range h hlt hlo hhi unitRequest_start unitRequest_len hne).settle

theorem newParity_eq {reqs : List BlockRequest} (h : ReadIn w rs rn reqs mem) {address : Buf → Int} {rangeOff : Nat}
    (hro : p.stripeUnitOffset rangeOff = p.sectorToByte rs) {mem' : Mem}
    (hmem' : mem' = xorAll address
      (xorRangeRequests p ((writeList w rs rn).map (BlockRequest.settle p w.disks)) ⟨.newParityBuf, 0⟩ rangeOff (p.sectorToByte rn))
      (xorAll address (xorRangeRequests p reqs ⟨.newParityBuf, 0⟩ rangeOff (p.sectorToByte rn))
        (mem.fill ⟨.newParityBuf, 0⟩ p.bytesPerStripeUnit fun _ => 0))) :
    (∀ off, mem' .user off = w.user off) ∧
      ∀ i < p.sectorToByte rn, mem' .newParityBuf i = w.new p.numDataCol (p.sectorToByte rs + i) := by
  have hU := p.bytesPerStripeUnit_pos
  obtain ⟨mem₁, hmem₁⟩ : ∃ mem₁, mem₁ = mem.fill ⟨.newParityBuf, 0⟩ p.bytesPerStripeUnit fun _ => 0 := ⟨_, rfl⟩
  obtain ⟨mem₂, hmem₂⟩ : ∃ mem₂, mem₂ =
      xorAll address (xorRangeRequests p reqs ⟨.newParityBuf, 0⟩ rangeOff (p.sectorToByte rn)) mem₁ := ⟨_, rfl⟩
  rw [← hmem₁, ← hmem₂] at hmem'
  have hreach : ∀ r ∈ reqs, r.Ok → Reaches p (p.height w.k) (p.stripeUnitOffset rangeOff) (p.sectorToByte rn) ⟨.newParityBuf, 0⟩ r := by
    rw [hro]
    exact h.reaches
  have hreach' : ∀ r ∈ (writeList w rs rn).map (BlockRequest.settle p w.disks), r.Ok →
      Reaches p (p.height w.k) (p.stripeUnitOffset rangeOff) (p.sectorToByte rn) ⟨.newParityBuf, 0⟩ r := by
    rw [hro]
    exact reaches_writeList h.region
  have hother : ∀ off, ¬ InRange ⟨.newParityBuf, 0⟩ (p.sectorToByte rn) .user off := fun _ hin => nomatch hin.1
  have huser₂ : ∀ off, mem₂ .user off = w.user off := by
    intro off
    rw [hmem₂, xorAll_outside (xorRange_fits hU hreach) (hother off), hmem₁, ← h.user off]
    exact if_neg fun hin => nomatch hin.1
  constructor
  · intro off
    rw [hmem', xorAll_outside (xorRange_fits hU hreach') (hother off), huser₂]
  · intro i hi
    obtain ⟨ho, hlo, hhi⟩ := byte_in_range h.region hi
    have hU' : i < p.bytesPerStripeUnit := by omega
    have hfirst := (congrArg (fun m : Mem => m .newParityBuf (0 + (i : Int))) hmem₂).trans (xorRange_apply hU hreach hi)
    have hsecond := (congrArg (fun m : Mem => m .newParityBuf (0 + (i : Int))) hmem').trans (xorRange_apply hU hreach' hi)
    rw [hro, Nat.add_assoc] at hfirst hsecond
    have hzero : mem₁ .newParityBuf (0 + (i : Int)) = 0 := by
      rw [hmem₁]
      exact if_pos ⟨rfl, by simp, by simpa using hU'⟩
    have hsame : reqSum reqs (fun r => r.byteAt mem₁ (p.height w.k * p.bytesPerStripeUnit + (p.sectorToByte rs + i)))
        (p.height w.k * p.bytesPerStripeUnit + (p.sectorToByte rs + i)) =
          reqSum reqs (fun r => r.byteAt mem (p.height w.k * p.bytesPerStripeUnit + (p.sectorToByte rs + i)))
            (p.height w.k * p.bytesPerStripeUnit + (p.sectorToByte rs + i)) := by
      apply reqSum_congr
      intro r hr _ _
      rw [byteAt, byteAt, hmem₁]
      exact if_neg fun hin => h.buf r hr hin.1
    rw [hfirst, hsame, hzero, zero_add, h.sum _ ho hlo hhi, reqSum_writeList h.region huser₂ ho hlo hhi] at hsecond
    refine hsecond.trans ?_
    rw [codeword_iff.1 (new_codeword _), zero_add]
    refine (sum_reconstructed (B := Byte) (fun u => w.Writes u ((p.sectorToByte rs + i) / p.bytesPerSector))).trans ?_
    apply sum_congr rfl
    intro u hu
    exact (new_data_eq (mem_range.1 hu) _).symm

end newData

section phases
variable {p : Params} {w : Task p} {io : StripeIo} {out : Outcome}

theorem no_failures {reqs : List BlockRequest} (h : failures out reqs = []) :
    ∀ r ∈ reqs, r.state = .ready → out.fails r = false := by
  intro r hr hready
  by_contra hfails
  have hmem : r.complete out ∈ failures out reqs :=
    List.mem_map.2 ⟨r, List.mem_filter.2 ⟨hr, decide_eq_true ⟨hready, by simpa using hfails⟩⟩, rfl⟩
  rw [h] at hmem
  nomatch hmem

theorem complete_ok {r : BlockRequest} (hready : r.state = .ready) (hok : out.fails r = false) :
    r.complete out = { r with state := .completed } := by
  rw [BlockRequest.complete, if_pos hready, hok]
  rfl

theorem Planned.readIn (h : Planned w io) (hok : failures out io.reqControl.reqs = []) :
    ∃ rs rn, p.stripeUnitOffset io.rangeOff = p.sectorToByte rs ∧ io.rangeLen = p.sectorToByte rn ∧
      ReadIn w rs rn (io.complete out).reqControl.reqs (io.complete out).mem := by
  obtain ⟨rs, rn, l, hplan, hreqs, hvalid, hro, hrl, -⟩ := h.plan
  have hfails := no_failures hok
  rw [hreqs] at hfails
  have hready : ∀ r ∈ l, (r.mark p w.disks).state = .ready := fun r hr => if_pos (hvalid r hr)
  have hread : ∀ r ∈ l.map (mark p w.disks), r.state = .ready → r.operation = .read := by
    intro r' hr' _
    obtain ⟨r, hr, rfl⟩ := List.mem_map.1 hr'
    obtain ⟨u, hu, lo, hi, q, -, -, -, rfl, -⟩ := hplan.shape r hr
    rfl
  have hdone : (io.complete out).reqControl.reqs = l.map fun r => { r with state := .completed } := by
    show io.reqControl.reqs.map (BlockRequest.complete out) = _
    rw [hreqs, List.map_map]
    apply List.map_congr_left
    intro r hr
    exact complete_ok (hready r hr) (hfails _ (List.mem_map.2 ⟨r, hr, rfl⟩) (hready r hr))
  have hmem : (io.complete out).mem = (transferAll out (l.map (mark p w.disks)) io.mem w.disks).1 := by
    show (transferAll out io.reqControl.reqs io.mem io.disks).1 = _
    rw [hreqs, h.base.disks]
  refine ⟨rs, rn, hro, hrl, hplan.region, fun off => ?_, fun r' hr' _ => ?_, fun r' hr' => ?_, fun o ho hlo hhi => ?_⟩
  · rw [hmem, (transferAll_reads hread).2 _ _ fun r' hr' _ hin => ?_]
    · exact h.base.user off
    · obtain ⟨r, hr, rfl⟩ := List.mem_map.1 hr'
      obtain ⟨u, hu, lo, hi, q, -, -, -, rfl, hq⟩ := hplan.shape r hr
      have hbuf : q.buf = .user := hin.1.symm
      rcases hq with hq | hq <;> rw [hq] at hbuf <;> nomatch hbuf
  · rw [hdone] at hr'
    obtain ⟨r, hr, rfl⟩ := List.mem_map.1 hr'
    obtain ⟨u, hu, lo, hi, q, hlt, hlo, hhi, rfl, hq⟩ := hplan.shape r hr
    have hne : q.buf ≠ .newParityBuf := by rcases hq with hq | hq <;> rw [hq] <;> nofun
    exact reaches_of_range hplan.region hlt hlo hhi
      (unitRequest_start : (unitRequest p w.k .read u lo hi q).startAddress = _)
      (unitRequest_len : (unitRequest p w.k .read u lo hi q).bufferLen = _) hne
  · rw [hdone] at hr'
    obtain ⟨r, hr, rfl⟩ := List.mem_map.1 hr'
    obtain ⟨u, hu, lo, hi, q, -, -, -, rfl, hq⟩ := hplan.shape r hr
    show q.buf ≠ _
    rcases hq with hq | hq <;> rw [hq] <;> nofun
  · rw [hdone, ← hplan.sum hvalid o ho hlo hhi, reqSum, reqSum, List.map_map, List.map_map]
    congr 1
    apply List.map_congr_left
    intro r hr
    have hr' : r.mark p w.disks ∈ l.map (mark p w.disks) := List.mem_map.2 ⟨r, hr, rfl⟩
    simp only [Function.comp]
    by_cases hcov : r.Covers (p.height w.k * p.bytesPerStripeUnit + o)
    · rw [if_pos ⟨.inr rfl, hcov⟩, if_pos ⟨mark_of_valid (hvalid r hr), hcov⟩, hmem]
      have hapart : (l.map (mark p w.disks)).Pairwise fun r q => r.state = .ready → q.state = .ready →
          Apart r.buffer r.bufferLen q.buffer q.bufferLen := by
        rw [List.pairwise_map]
        exact hplan.apart.imp fun h _ _ => h
      exact transferAll_read_bytes hread hapart hr' (hready r hr) (hfails _ hr' (hready r hr)) (covers_mark.2 hcov)
    · rw [if_neg fun h => hcov h.2, if_neg fun h => hcov h.2]

variable {rs rn : Nat}

theorem settle_eq {rc : RequestControl}
    (hrc : rc = addRequests p w.disks io.reqControl.reset (writeList w rs rn)) :
    rc.completeFailed.reqs = (writeList w rs rn).map (BlockRequest.settle p w.disks) := by
  have hreqs : rc.reqs = (writeList w rs rn).map (mark p w.disks) := by
    rw [hrc, addRequests_reqs]
    rfl
  rw [RequestControl.completeFailed]
  split
  · rename_i hpos
    have hinvalid : ∃ r ∈ writeList w rs rn, ¬ r.Valid p w.disks := by
      by_contra hall
      rw [hrc, (numFailed_eq_zero rfl).2 fun r hr => by_contra fun hr' => hall ⟨r, hr, hr'⟩] at hpos
      exact Nat.lt_irrefl _ hpos
    obtain ⟨q, hq, hqinvalid, hfailed⟩ := addRequests_failedReq io.reqControl.reset hinvalid
    rw [← hrc] at hfailed
    simp only [hreqs, hfailed]
    rw [List.map_map]
    apply List.map_congr_left
    intro r hr
    simp only [Function.comp]
    by_cases hvalid : r.Valid p w.disks
    · have hne : ¬ some (r.mark p w.disks) = some (q.mark p w.disks) := by
        intro heq
        have hstate := congrArg BlockRequest.state (Option.some.inj heq)
        rw [mark, mark, if_pos hvalid, if_neg hqinvalid] at hstate
        cases hstate
      rw [if_neg hne, mark, BlockRequest.settle, if_pos hvalid, if_pos hvalid]
    · have honly : ∀ r ∈ writeList w rs rn, ¬ r.Valid p w.disks →
          dataRequest p w.k .write w.f w.t ⟨.user, 0⟩ rs rn w.d = some r := by
        intro r hr hr'
        obtain ⟨u, hu, hreq⟩ := List.mem_filterMap.1 hr
        have hu := Nat.le_of_lt (List.mem_range.1 hu)
        obtain ⟨lo, hi, hlt, hhi, rfl, -⟩ := dataRequest_some hreq
        have hud : u = w.d := by
          by_contra hne
          exact hr' ((valid_unitRequest (w.aligned hu) hlt hhi).2 (w.valid u hu hne))
        rw [← hud]
        exact hreq
      have heq : r = q := Option.some.inj ((honly r hr hvalid).symm.trans (honly q hq hqinvalid))
      rw [heq, if_pos rfl, mark, BlockRequest.settle, if_neg hqinvalid, if_neg hqinvalid]
  · rw [hreqs]
    have hvalid := (numFailed_eq_zero (show io.reqControl.reset.numFailed = 0 from rfl)).1 (by rw [← hrc]; omega)
    apply List.map_congr_left
    intro r hr
    rw [mark, BlockRequest.settle, if_pos (hvalid r hr), if_pos (hvalid r hr)]

theorem Task.invalid_of_request (w : Task p) {operation : Operation} {u lo hi : Nat} {q : Ptr} (hu : u ≤ p.numDataCol)
    (hlt : lo < hi) (hhi : hi ≤ p.sectorsPerStripeUnit) (h : ¬ (unitRequest p w.k operation u lo hi q).Valid p w.disks) :
    u = w.d ∧ ¬ UnitValid p w.disks w.k w.d := by
  rw [valid_unitRequest (w.aligned hu) hlt hhi] at h
  have hud : u = w.d := by
    by_contra hne
    exact h (w.valid u hu hne)
  exact ⟨hud, hud ▸ h⟩

theorem writing_of_lists (h : w.Range rs rn) {mem : Mem} (huser : ∀ off, mem .user off = w.user off)
    (hparity : ∀ i < p.sectorToByte rn, mem .newParityBuf i = w.new p.numDataCol (p.sectorToByte rs + i)) (io : StripeIo)
    (hstatus : io.status = .waiting .stripeWrite ∨ io.status = .waiting .stripeIo ∧ ¬ UnitValid p w.disks w.k w.d)
    (hdisks : io.disks = w.disks) (hmem : io.mem = mem)
    (hreqs : io.reqControl.reqs = (writeList w rs rn).map (BlockRequest.settle p w.disks) ++
      (parityRequest p w.k .write ⟨.newParityBuf, 0⟩ rs rn).toList.map (mark p w.disks)) :
    Writing w io := by
  have hle := h.le
  have hB := p.bytesPerSector_pos
  have hpar : ∀ r ∈ (parityRequest p w.k .write ⟨.newParityBuf, 0⟩ rs rn).toList, 0 < rn ∧
      r = unitRequest p w.k .write p.numDataCol rs (rs + rn) ⟨.newParityBuf, 0⟩ := by
    intro r hr
    rw [parityRequest] at hr
    split at hr
    · rename_i hpos
      exact ⟨hpos, by simpa using hr⟩
    · simp at hr
  have hvalid : 0 < rn → ((unitRequest p w.k .write p.numDataCol rs (rs + rn) ⟨.newParityBuf, 0⟩).Valid p w.disks ↔
      UnitValid p w.disks w.k p.numDataCol) :=
    fun hpos => valid_unitRequest (w.aligned (Nat.le_refl _)) (by omega) hle
  refine ⟨hstatus, hdisks, ?_, ?_, ?_⟩
  · rw [hreqs, hmem]
    intro r hr
    rcases List.mem_append.1 hr with hd | hp
    · obtain ⟨hwrite, u, hu, hrest⟩ := writing_data h huser r hd
      exact ⟨hwrite, u, Nat.le_of_lt hu, hrest⟩
    · obtain ⟨r', hr', rfl⟩ := List.mem_map.1 hp
      obtain ⟨hpos, rfl⟩ := hpar r' hr'
      have hin : InUnit p (p.height w.k) (unitRequest p w.k .write p.numDataCol rs (rs + rn) ⟨.newParityBuf, 0⟩) :=
        unitRequest_inUnit (by omega) hle
      refine ⟨rfl, p.numDataCol, Nat.le_refl _, ⟨rfl, rfl⟩, ⟨hin.pos, hin.first, hin.last⟩, fun hready => ?_, fun o ho hcov => ?_⟩
      · by_contra hinvalid
        rw [← hvalid hpos] at hinvalid
        rw [mark, if_neg hinvalid] at hready
        cases hready
      · rw [covers_mark, covers_unitRequest, Nat.le_div_iff_mul_le hB, Nat.div_lt_iff_lt_mul hB, Nat.add_mul] at hcov
        obtain ⟨i, rfl⟩ := Nat.exists_eq_add_of_le hcov.1
        have hbyte := hparity i (by rw [sectorToByte_eq]; omega)
        rw [sectorToByte_eq] at hbyte
        rw [← hbyte]
        show mem .newParityBuf ((0 : Int) + (_ - ((unitRequest p w.k .write p.numDataCol rs (rs + rn) ⟨.newParityBuf, 0⟩).startAddress : Int))) = _
        rw [unitRequest_start]
        congr 1
        omega
  · rw [hreqs, List.pairwise_append]
    refine ⟨distinct_data, ?_, fun r hr q hq heq => ?_⟩
    · rw [parityRequest]
      split <;> simp
    · obtain ⟨q', hq', rfl⟩ := List.mem_map.1 hq
      obtain ⟨-, rfl⟩ := hpar q' hq'
      obtain ⟨-, u, hu, hon, -⟩ := writing_data h huser r hr
      have hun : u = p.numDataCol :=
        unitPlace_injective (Nat.le_of_lt hu) (Nat.le_refl _) (hon.1.symm.trans heq.1)
      omega
  · rw [hreqs]
    intro u hu hvalidu o ho hne
    rcases Nat.lt_or_eq_of_le hu with hlt | rfl
    · have hw : w.Writes u (o / p.bytesPerSector) := by
        by_contra hnot
        rw [new_data_eq hlt, newData_of_not_writes hnot] at hne
        exact hne rfl
      obtain ⟨r, hr, hrest⟩ := complete_data h hlt hvalidu ho hw
      exact ⟨r, List.mem_append_left _ hr, hrest⟩
    · obtain ⟨u, hu', hw⟩ : ∃ u < p.numDataCol, w.Writes u (o / p.bytesPerSector) := by
        by_contra hnone
        exact hne (new_parity_eq ho fun u hu' hw => hnone ⟨u, hu', hw⟩)
      have hin : rs ≤ o / p.bytesPerSector ∧ o / p.bytesPerSector < rs + rn := by
        obtain ⟨s, hs⟩ : ∃ s, s = o / p.bytesPerSector := ⟨_, rfl⟩
        have hsS : s < p.sectorsPerStripeUnit := hs ▸ sector_lt ho
        obtain ⟨hw1, hw2⟩ := hw
        have hsucc : (u + 1) * p.sectorsPerStripeUnit = u * p.sectorsPerStripeUnit + p.sectorsPerStripeUnit := Nat.succ_mul _ _
        have hholds := h.holds u (by omega) (by omega)
        omega
      have hpos : 0 < rn := by omega
      refine ⟨_, List.mem_append_right _ (List.mem_map.2
        ⟨unitRequest p w.k .write p.numDataCol rs (rs + rn) ⟨.newParityBuf, 0⟩, by simp [parityRequest, hpos], rfl⟩),
        if_pos ((hvalid hpos).2 hvalidu), ⟨rfl, rfl⟩, ?_⟩
      rw [covers_mark, covers_unitRequest]
      exact hin

theorem Planned.base_complete (h : Planned w io) : Base w (io.complete out) := by
  obtain ⟨rs, rn, l, hplan, hreqs, -⟩ := h.plan
  have hread : ∀ r ∈ io.reqControl.reqs, r.operation = .read ∧ r.buffer.buf ≠ .user := by
    rw [hreqs]
    intro r' hr'
    obtain ⟨r, hr, rfl⟩ := List.mem_map.1 hr'
    obtain ⟨u, hu, lo, hi, q, -, -, -, rfl, hq⟩ := hplan.shape r hr
    refine ⟨rfl, fun hbuf => ?_⟩
    replace hbuf : q.buf = .user := hbuf
    rcases hq with hq | hq <;> rw [hq] at hbuf <;> nomatch hbuf
  obtain ⟨hdisks, hmem⟩ : _ ∧ ∀ buf off, _ → (transferAll out io.reqControl.reqs io.mem io.disks).1 buf off = io.mem buf off :=
    transferAll_reads fun r hr _ => (hread r hr).1
  refine ⟨h.base.first, h.base.nth, h.base.buffer, h.base.readBuf, h.base.parityBuf, fun off => ?_, hdisks.trans h.base.disks⟩
  exact (hmem _ _ fun r hr _ hin => (hread r hr).2 hin.1.symm).trans (h.base.user off)

structure Computed (w : Task p) (rs rn : Nat) (io : StripeIo) : Prop where
  first : io.firstSector = w.k * p.dataSectorsPerStripe + w.f
  disks : io.disks = w.disks
  offset : p.stripeUnitOffset io.rangeOff = p.sectorToByte rs
  length : io.rangeLen = p.sectorToByte rn
  user : ∀ off, io.mem .user off = w.user off
  parity : ∀ i < p.sectorToByte rn, io.mem .newParityBuf i = w.new p.numDataCol (p.sectorToByte rs + i)
  reqs : io.reqControl.reqs = (writeList w rs rn).map (BlockRequest.settle p w.disks)
  failed : 0 < io.reqControl.numFailed → ¬ UnitValid p w.disks w.k w.d

theorem completeFailed_numFailed (rc : RequestControl) : rc.completeFailed.numFailed = rc.numFailed := by
  rw [RequestControl.completeFailed]
  split <;> rfl

theorem Base.computed (h : Base w io) (hro : p.stripeUnitOffset io.rangeOff = p.sectorToByte rs)
    (hrl : io.rangeLen = p.sectorToByte rn) (hin : ReadIn w rs rn io.reqControl.reqs io.mem) :
    Computed w rs rn (io.computeParity p) := by
  have hdata : addDataRangeRequests p io.disks .write io.firstSector io.nthSector io.buffer io.rangeOff io.rangeLen
      io.reqControl.reset = addRequests p w.disks io.reqControl.reset (writeList w rs rn) := by
    rw [h.disks, h.first, h.nth, h.buffer, hrl, addDataRangeRequests_eq w.t_le, rangeSectors_eq hro,
      byteToSector_sectorToByte]
    rfl
  have hreqs := settle_eq hdata
  have hmem : (io.computeParity p).mem = xorAll io.address
      (xorRangeRequests p ((writeList w rs rn).map (BlockRequest.settle p w.disks)) ⟨.newParityBuf, 0⟩ io.rangeOff (p.sectorToByte rn))
      (xorAll io.address (xorRangeRequests p io.reqControl.reqs ⟨.newParityBuf, 0⟩ io.rangeOff (p.sectorToByte rn))
        (io.mem.fill ⟨.newParityBuf, 0⟩ p.bytesPerStripeUnit fun _ => 0)) := by
    rw [← hreqs, ← hrl]
    rfl
  obtain ⟨huser, hparity⟩ := newParity_eq hin hro hmem
  refine ⟨h.first, h.disks, hro, hrl, huser, hparity, hreqs, fun hpos => ?_⟩
  replace hpos : 0 < (addDataRangeRequests p io.disks .write io.firstSector io.nthSector io.buffer io.rangeOff io.rangeLen
      io.reqControl.reset).completeFailed.numFailed := hpos
  rw [completeFailed_numFailed, hdata] at hpos
  by_contra hvalid
  rw [(numFailed_eq_zero rfl).2] at hpos
  · exact Nat.lt_irrefl _ hpos
  · intro r hr
    obtain ⟨u, hu, lo, hi, q, hlt, -, hhi, rfl, -⟩ := mem_writeList hin.region hr
    by_contra hr'
    exact (w.invalid_of_request (Nat.le_of_lt hu) hlt (Nat.le_trans hhi hin.region.le) hr').2 hvalid

/-- **The write phase begins**, or the write fails before it. -/
theorem Base.writeNew (h : Base w io) (hro : p.stripeUnitOffset io.rangeOff = p.sectorToByte rs)
    (hrl : io.rangeLen = p.sectorToByte rn) (hin : ReadIn w rs rn io.reqControl.reqs io.mem) :
    Writing w (io.writeNew p) ∨ Failed w (io.writeNew p) := by
  have hle := hin.region.le
  have hcomp : Computed w rs rn (io.computeParity p) := h.computed hro hrl hin
  rw [StripeIo.writeNew]
  revert hcomp
  generalize io.computeParity p = io₁
  intro hcomp
  have hpar : addParityRangeRequest p io₁.disks .write io₁.firstSector ⟨.newParityBuf, 0⟩ io₁.rangeOff io₁.rangeLen
      io₁.reqControl = addRequests p w.disks io₁.reqControl (parityRequest p w.k .write ⟨.newParityBuf, 0⟩ rs rn).toList := by
    rw [hcomp.disks, hcomp.first, hcomp.length, addParityRangeRequest_eq w.f_lt_data, rangeSectors_eq hcomp.offset,
      byteToSector_sectorToByte]
  simp only [hpar]
  obtain ⟨rc, hrc⟩ : ∃ rc, rc =
      addRequests p w.disks io₁.reqControl (parityRequest p w.k .write ⟨.newParityBuf, 0⟩ rs rn).toList := ⟨_, rfl⟩
  rw [← hrc]
  have hreqs : rc.reqs = (writeList w rs rn).map (BlockRequest.settle p w.disks) ++
      (parityRequest p w.k .write ⟨.newParityBuf, 0⟩ rs rn).toList.map (mark p w.disks) := by
    rw [hrc, addRequests_reqs, hcomp.reqs]
  have hinvalid : 0 < rc.numFailed → ¬ UnitValid p w.disks w.k w.d := by
    intro hpos hvalid
    rw [hrc, addRequests_numFailed] at hpos
    have hzero : io₁.reqControl.numFailed = 0 := by
      by_contra hne
      exact hcomp.failed (by omega) hvalid
    have hnil : ((parityRequest p w.k .write ⟨.newParityBuf, 0⟩ rs rn).toList.filter fun r => ¬ r.Valid p w.disks) = [] := by
      rw [List.filter_eq_nil_iff]
      intro r hr
      rw [parityRequest] at hr
      split at hr
      · have heq : r = unitRequest p w.k .write p.numDataCol rs (rs + rn) ⟨.newParityBuf, 0⟩ := by simpa using hr
        intro hr'
        rw [heq] at hr'
        exact (w.invalid_of_request (Nat.le_refl _) (by omega) hle (of_decide_eq_true hr')).2 hvalid
      · simp at hr
    rw [hzero, hnil] at hpos
    exact Nat.lt_irrefl _ hpos
  cases hm : rc.numFailed with
  | zero => exact .inl (writing_of_lists hin.region hcomp.user hcomp.parity _ (.inl rfl) hcomp.disks rfl hreqs)
  | succ n =>
    cases n with
    | zero =>
      exact .inl (writing_of_lists hin.region hcomp.user hcomp.parity _ (.inr ⟨rfl, hinvalid (by omega)⟩) hcomp.disks rfl hreqs)
    | succ n => exact .inr ⟨⟨2, rfl, by decide⟩, hcomp.disks⟩

end phases

end SpriteKernel.DevRaid.Initiate
