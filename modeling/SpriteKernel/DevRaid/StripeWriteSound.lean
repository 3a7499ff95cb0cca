import SpriteKernel.DevRaid.StripeWriteDone

/- Whole runs of `InitiateStripeWrite`: a write that is reported successful has changed the
   stripe's contents as it should, and one that is not has changed nothing. -/
namespace SpriteKernel.DevRaid.Initiate
open Striping Parity Finset

section fail
variable {p : Params} {w : Task p} {io : StripeIo} {out : Outcome}

theorem set_same (disks : Disks) (col row : Nat) (d : Disk) : (disks.set col row d) col row = d := if_pos ⟨rfl, rfl⟩

def failUnit (p : Params) (disks : Disks) (k d : Nat) : Disks :=
  disks.set (p.unitPlace k d).col (p.unitPlace k d).row (disks (p.unitPlace k d).col (p.unitPlace k d).row).fail

variable {disks : Disks} {k d u : Nat}

theorem failUnit_of_ne (hu : u ≤ p.numDataCol) (hd : d ≤ p.numDataCol) (h : u ≠ d) :
    failUnit p disks k d (p.unitPlace k u).col (p.unitPlace k u).row = disks (p.unitPlace k u).col (p.unitPlace k u).row :=
  if_neg fun heq => h (Params.unitPlace_injective hu hd heq.1)

theorem failUnit_data (disks : Disks) (k d col row : Nat) : (failUnit p disks k d col row).data = (disks col row).data := by
  rw [failUnit, Disks.set]
  split
  · rename_i heq
    rw [heq.1, heq.2, Disk.fail_data]
  · rfl

theorem unitByte_failUnit (disks : Disks) (k d u o : Nat) : unitByte p (failUnit p disks k d) k u o = unitByte p disks k u o := by
  rw [unitByte, failUnit_data]
  rfl

theorem valid_failUnit (h : UnitValid p (failUnit p disks k d) k u) : UnitValid p disks k u := by
  rw [UnitValid, failUnit, Disks.set] at h
  split at h
  · rename_i heq
    rcases (disks (p.unitPlace k d).col (p.unitPlace k d).row).fail_valid with hsame | hzero
    · rw [Disk.isValid, hsame, ← heq.1, ← heq.2] at h
      exact h
    · have hpos := p.sectors_pos
      rw [Disk.isValid, hzero] at h
      omega
  · exact h

theorem Disk.Sound.fail {disk : Disk} (h : disk.Sound p) : disk.fail.Sound p := by
  rw [Disk.fail]
  split
  · exact ⟨fun hpos => absurd hpos (Nat.lt_irrefl 0), Nat.dvd_zero _⟩
  · exact h

theorem sound_failUnit {col row : Nat} (h : (disks col row).Sound p) : (failUnit p disks k d col row).Sound p := by
  rw [failUnit, Disks.set]
  split
  · rename_i heq
    rw [← heq.1, ← heq.2]
    exact h.fail
  · exact h

variable {o : Nat}

theorem logical_failUnit (hcons : Consistent p disks k)
    (hvalid : ∀ u ≤ p.numDataCol, u ≠ d → UnitValid p disks k u) (hd : d ≤ p.numDataCol) (hu : u ≤ p.numDataCol)
    (ho : o < p.bytesPerStripeUnit) : logical p (failUnit p disks k d) k u o = logical p disks k u o := by
  by_cases h : UnitValid p disks k u
  · by_cases h' : UnitValid p (failUnit p disks k d) k u
    · rw [logical, if_pos h', logical, if_pos h, unitByte_failUnit]
    · have hud : u = d := by
        by_contra hne
        rw [UnitValid, failUnit_of_ne hu hd hne] at h'
        exact h' h
      rw [logical, if_neg h']
      refine Eq.trans ?_ ((hcons o ho).eq_others hu).symm
      apply others_congr
      intro v hv hvu
      rw [unitByte_failUnit, logical, if_pos (hvalid v hv (hud ▸ hvu))]
  · rw [logical, if_neg fun h' => h (valid_failUnit h'), logical, if_neg h]
    apply others_congr
    intro v _ _
    exact unitByte_failUnit disks k d v o

/-- The write goes on with the disk of unit `d` failed. -/
def Task.fail (w : Task p) : Task p :=
  { w with
    disks := failUnit p w.disks w.k w.d
    sound := fun u hu => sound_failUnit (w.sound u hu)
    valid := fun u hu hud => by
      rw [UnitValid, failUnit_of_ne hu w.d_le hud]
      exact w.valid u hu hud
    consistent := fun o ho => by
      refine Eq.trans (sum_congr rfl fun u hu => ?_) (w.consistent o ho)
      exact logical_failUnit w.consistent w.valid w.d_le (Nat.lt_succ_iff.1 (mem_range.1 hu)) ho }

theorem fail_old (hu : u ≤ p.numDataCol) (ho : o < p.bytesPerStripeUnit) : w.fail.old u o = w.old u o :=
  logical_failUnit w.consistent w.valid w.d_le hu ho

theorem fail_newData (hu : u < p.numDataCol) (ho : o < p.bytesPerStripeUnit) : w.fail.newData u o = w.newData u o := by
  rw [Task.newData, Task.newData, written, written, fail_old (Nat.le_of_lt hu) ho]
  rfl

theorem fail_new (ho : o < p.bytesPerStripeUnit) : w.fail.new u o = w.new u o := by
  rw [Task.new, Task.new]
  split
  · rename_i hlt
    exact fail_newData hlt ho
  · exact sum_congr rfl fun v hv => fail_newData (mem_range.1 hv) ho

theorem fail_fail : w.fail.fail = w.fail := by
  have hdisks : w.fail.fail.disks = w.fail.disks := by
    funext col row
    show failUnit p (failUnit p w.disks w.k w.d) w.k w.d col row = failUnit p w.disks w.k w.d col row
    rw [failUnit, Disks.set]
    split
    · rename_i heq
      rw [heq.1, heq.2, failUnit, set_same, Disk.fail_fail]
    · rfl
  simp only [Task.fail] at hdisks ⊢
  congr

theorem Written.of_fail (h : Written w.fail disks) : Written w disks where
  bytes u hu hvalid o ho := (h.bytes u hu hvalid o ho).trans (fail_new ho)
  valid := h.valid
  changed u hu := by
    have hchanged := h.changed u hu
    by_cases hud : u = w.d
    · subst hud
      have hdisk : w.fail.disks (p.unitPlace w.k w.d).col (p.unitPlace w.k w.d).row =
          (w.disks (p.unitPlace w.k w.d).col (p.unitPlace w.k w.d).row).fail := set_same _ _ _ _
      replace hchanged : Disk.Changed _ _ _ (w.fail.disks (p.unitPlace w.k w.d).col (p.unitPlace w.k w.d).row) _ := hchanged
      rw [hdisk] at hchanged
      exact hchanged.of_fail rfl
    · have hdisk : w.fail.disks (p.unitPlace w.k u).col (p.unitPlace w.k u).row = _ := failUnit_of_ne hu w.d_le hud
      replace hchanged : Disk.Changed _ _ _ (w.fail.disks (p.unitPlace w.k u).col (p.unitPlace w.k u).row) _ := hchanged
      rw [hdisk] at hchanged
      exact hchanged
  others col row hno := (h.others col row hno).trans (if_neg (hno w.d w.d_le))

end fail

section steps
variable {p : Params} {w : Task p} {io : StripeIo} {out : Outcome} {rs rn : Nat} {l : List BlockRequest} {disks : Disks}

theorem ReadIn.fail {reqs : List BlockRequest} {mem : Mem} (h : ReadIn w rs rn reqs mem) : ReadIn w.fail rs rn reqs mem where
  region := ⟨h.region.le, h.region.lt, h.region.holds⟩
  user := h.user
  reaches := h.reaches
  buf := h.buf
  sum o ho hlo hhi := by
    refine (h.sum o ho hlo hhi).trans (sum_congr rfl fun u hu => ?_)
    rw [fail_old (Nat.le_of_lt (mem_range.1 hu)) ho]
    rfl

theorem failDisks_eq (hdisks : io.disks = w.disks) (hout : w.OnlyFails out) :
    (io.failDisks out).disks = w.disks ∨ (io.failDisks out).disks = w.fail.disks := by
  by_cases hfail : out.failDisk (p.unitPlace w.k w.d).col (p.unitPlace w.k w.d).row = true
  · right
    funext col row
    show (if out.failDisk col row then (io.disks col row).fail else io.disks col row) = failUnit p w.disks w.k w.d col row
    rw [hdisks, failUnit, Disks.set]
    by_cases hat : col = (p.unitPlace w.k w.d).col ∧ row = (p.unitPlace w.k w.d).row
    · rw [if_pos hat, hat.1, hat.2, if_pos hfail]
    · rw [if_neg hat, if_neg fun h => hat (hout.disks col row h)]
  · left
    funext col row
    show (if out.failDisk col row then (io.disks col row).fail else io.disks col row) = _
    rw [hdisks]
    refine if_neg fun h => hfail ?_
    obtain ⟨hcol, hrow⟩ := hout.disks col row h
    rw [← hcol, ← hrow]
    exact h

theorem Base.of_disks {w' : Task p} (h : Base w io) {io' : StripeIo} (hio : io' = { io with disks := w'.disks })
    (hk : w'.k = w.k) (hf : w'.f = w.f) (ht : w'.t = w.t) (huser : w'.user = w.user) : Base w' io' := by
  rw [hio]
  refine ⟨?_, ?_, h.buffer, h.readBuf, h.parityBuf, ?_, rfl⟩
  · rw [hk, hf]
    exact h.first
  · rw [hk, ht]
    exact h.nth
  · rw [huser]
    exact h.user

theorem exists_failedReq (h : l ≠ []) (f : BlockRequest → Bool) : ∃ r ∈ l, (l.find? f).or l.getLast? = some r := by
  cases hfind : l.find? f with
  | some r => exact ⟨r, List.mem_of_find?_eq_some hfind, rfl⟩
  | none => exact ⟨l.getLast h, List.getLast_mem h, List.getLast?_eq_some_getLast h⟩

theorem complete_start (r : BlockRequest) : (r.complete out).startAddress = r.startAddress := by
  rw [BlockRequest.complete]
  split <;> rfl

theorem complete_len (r : BlockRequest) : (r.complete out).bufferLen = r.bufferLen := by
  rw [BlockRequest.complete]
  split <;> rfl

theorem Planned.failed_atEnd (hreqs : io.reqControl.reqs = l.map (BlockRequest.mark p w.disks))
    (hend : ∀ r ∈ l, AtEnd p w.k r) {r : BlockRequest} (hr : r ∈ failures out io.reqControl.reqs) : AtEnd p w.k r := by
  obtain ⟨q, hq, rfl⟩ := List.mem_map.1 hr
  have hmem := (List.mem_filter.1 hq).1
  rw [hreqs] at hmem
  obtain ⟨q', hq', rfl⟩ := List.mem_map.1 hmem
  obtain ⟨lo, hi, hlt, hhi, hstart, hlen, hat⟩ := hend q' hq'
  exact ⟨lo, hi, hlt, hhi, (complete_start _).trans hstart, (complete_len _).trans hlen, hat⟩

theorem recover_failure (call : RecoverProc → StripeIo → StripeIo) (h : io.recoverProc = .stripeIOFailure)
    (r : BlockRequest) : io.recover p call r = call .stripeIOFailure { io with recoverProc := .stripeIOFailure } := by
  rw [StripeIo.recover, if_neg fun hsplit => hsplit.2.2 h, h]

/-- **The reads before a write come to their end.** -/
theorem Planned.step (h : Planned w io) (hout : w.OnlyFails out) :
    ∃ w', (w' = w ∨ w' = w.fail) ∧ (Before w' (io.step p out) ∨ Writing w' (io.step p out)) := by
  have hcomplete : Base w (io.complete out) := h.base_complete
  have hread : failures out io.reqControl.reqs = [] → _ := h.readIn
  obtain ⟨io₂, hio₂⟩ : ∃ io₂, io₂ = (io.complete out).failDisks out := ⟨_, rfl⟩
  obtain ⟨w', hw', hbase, hread'⟩ : ∃ w', (w' = w ∨ w' = w.fail) ∧ Base w' io₂ ∧ (failures out io.reqControl.reqs = [] →
      ∃ rs rn, p.stripeUnitOffset io₂.rangeOff = p.sectorToByte rs ∧ io₂.rangeLen = p.sectorToByte rn ∧
        ReadIn w' rs rn io₂.reqControl.reqs io₂.mem) := by
    rcases failDisks_eq hcomplete.disks hout with hdisks | hdisks
    · refine ⟨w, .inl rfl, hcomplete.of_disks ?_ rfl rfl rfl rfl, fun hok => ?_⟩
      · rw [hio₂, ← hdisks]
        rfl
      · rw [hio₂]
        exact hread hok
    · refine ⟨w.fail, .inr rfl, hcomplete.of_disks ?_ rfl rfl rfl rfl, fun hok => ?_⟩
      · rw [hio₂, ← hdisks]
        rfl
      · obtain ⟨rs, rn, hro, hrl, hin⟩ := hread hok
        rw [hio₂]
        exact ⟨rs, rn, hro, hrl, hin.fail⟩
  refine ⟨w', hw', ?_⟩
  have hk : w'.k = w.k := by rcases hw' with rfl | rfl <;> rfl
  rw [StripeIo.step, h.status]
  simp only [← hio₂]
  by_cases hok : failures out io.reqControl.reqs = []
  · obtain ⟨rs, rn, hro, hrl, hin⟩ := hread' hok
    rw [hok]
    rcases hbase.writeNew hro hrl hin with hwriting | hfailed
    · exact .inr hwriting
    · exact .inl (.inr hfailed)
  · obtain ⟨r, hr, hchosen⟩ := exists_failedReq hok out.last
    obtain ⟨n, hn⟩ := Nat.exists_eq_succ_of_ne_zero (mt List.length_eq_zero_iff.1 hok)
    rw [hn, hchosen]
    have hbase' : Base w' { io₂ with reqControl := { io₂.reqControl with failedReq := some r } } :=
      ⟨hbase.first, hbase.nth, hbase.buffer, hbase.readBuf, hbase.parityBuf, hbase.user, hbase.disks⟩
    left
    show Before w' (StripeIo.recover p _ { io₂ with reqControl := { io₂.reqControl with failedReq := some r } } r)
    obtain ⟨rs, rn, l, -, hreqs, -, -, hrl, hend⟩ := h.plan
    rcases hend with hproc | hend
    · rw [recover_failure _ (by rw [hio₂]; exact hproc)]
      exact recovers 2 _ _ ⟨hbase.first, hbase.nth, hbase.buffer, hbase.readBuf, hbase.parityBuf, hbase.user, hbase.disks⟩
    · refine hbase'.recover (recovers 2) fun hU => ?_
      have hlen : io.rangeLen = p.bytesPerStripeUnit := by
        rw [hio₂] at hU
        exact hU
      rw [hk]
      exact Planned.failed_atEnd hreqs (hend (sectorToByte_inj.1 (hrl.symm.trans hlen))) hr

theorem writing_dataOnly (hinvalid : ¬ UnitValid p w.disks w.k p.numDataCol) (huser : ∀ off, io.mem .user off = w.user off)
    (hdisks : io.disks = w.disks) (hstatus : io.status = .waiting .stripeIo)
    (hvalid : ∀ r ∈ writeList w 0 p.sectorsPerStripeUnit, r.Valid p w.disks)
    (hreqs : io.reqControl.reqs = (writeList w 0 p.sectorsPerStripeUnit).map (BlockRequest.mark p w.disks)) : Writing w io := by
  have hd : p.numDataCol = w.d := by
    by_contra hne
    exact hinvalid (w.valid _ (Nat.le_refl _) hne)
  have hsettle : (writeList w 0 p.sectorsPerStripeUnit).map (BlockRequest.mark p w.disks) =
      (writeList w 0 p.sectorsPerStripeUnit).map (BlockRequest.settle p w.disks) := by
    apply List.map_congr_left
    intro r hr
    rw [BlockRequest.mark, BlockRequest.settle, if_pos (hvalid r hr), if_pos (hvalid r hr)]
  rw [hsettle] at hreqs
  refine ⟨.inr ⟨hstatus, hd ▸ hinvalid⟩, hdisks, ?_, ?_, ?_⟩
  · rw [hreqs]
    intro r hr
    obtain ⟨hwrite, u, hu, hrest⟩ := writing_data w.wholeRange huser r hr
    exact ⟨hwrite, u, Nat.le_of_lt hu, hrest⟩
  · rw [hreqs]
    exact distinct_data
  · rw [hreqs]
    intro u hu hvalidu o ho hne
    have hlt : u < p.numDataCol := Nat.lt_of_le_of_ne hu fun heq => hinvalid (heq ▸ hvalidu)
    refine complete_data w.wholeRange hlt hvalidu ho ?_
    by_contra hnot
    rw [new_data_eq hlt, newData_of_not_writes hnot] at hne
    exact hne rfl

theorem Base.initiate (h : Base w io) : Before w (io.initiateStripeWrite p) ∨ Writing w (io.initiateStripeWrite p) := by
  obtain ⟨rc, hrc⟩ : ∃ rc, rc = addParityRequest p io.disks .read io.firstSector io.parityBuf io.reqControl.reset := ⟨_, rfl⟩
  have hparity : rc = addRequests p w.disks io.reqControl.reset (parityList w 0 p.sectorsPerStripeUnit) := by
    rw [hrc, addParityRequest, h.addParity wholeUnit_eq.1 wholeUnit_eq.2]
  rw [StripeIo.initiateStripeWrite, ← hrc]
  by_cases hpos : 0 < rc.numFailed
  · have hinvalid : ¬ UnitValid p w.disks w.k p.numDataCol := by
      intro hvalid
      rw [hparity, (numFailed_eq_zero rfl).2] at hpos
      · exact Nat.lt_irrefl _ hpos
      · intro r hr
        obtain ⟨hS, rfl⟩ := shape_parityList hr
        exact (valid_unitRequest (w.aligned (Nat.le_refl _)) (by omega) (by omega)).2 hvalid
    have hdata : addDataRequests p io.disks .write io.firstSector io.nthSector io.buffer rc.reset =
        addRequests p w.disks rc.reset (writeList w 0 p.sectorsPerStripeUnit) := by
      rw [addDataRequests, h.disks, h.first, h.nth, h.buffer, addDataRangeRequests_eq w.t_le, rangeSectors_eq wholeUnit_eq.1,
        wholeUnit_eq.2, Params.byteToSector_sectorToByte]
      rfl
    rw [if_pos hpos, hdata]
    by_cases hzero : (addRequests p w.disks rc.reset (writeList w 0 p.sectorsPerStripeUnit)).numFailed = 0
    · simp only [if_pos hzero]
      refine .inr (writing_dataOnly hinvalid h.user h.disks rfl ((numFailed_eq_zero rfl).1 hzero) ?_)
      show (addRequests p w.disks rc.reset (writeList w 0 p.sectorsPerStripeUnit)).reqs = _
      rw [addRequests_reqs]
      rfl
    · simp only [if_neg hzero]
      exact .inl (.inr ⟨⟨2, rfl, by decide⟩, h.disks⟩)
  · have hbase : ∀ proc, Base w { io with reqControl := rc, recoverProc := proc } :=
      fun _ => ⟨h.first, h.nth, h.buffer, h.readBuf, h.parityBuf, h.user, h.disks⟩
    rw [if_neg hpos]
    split
    · exact .inl ((hbase .reconstructWrite).readModifyWrite (recovers 2))
    · exact .inl ((hbase .readModifyWrite).reconstructWrite (recovers 2))

/-- What there is of a write when some of its requests have come to their end. -/
def Sound (w : Task p) (io : StripeIo) : Prop :=
  io.status = .done 0 ∧ Written w io.disks ∨ io.status ≠ .done 0 ∧ (io.disks = w.disks ∨ io.disks = w.fail.disks)

theorem Sound.of_fail (h : Sound w.fail io) : Sound w io := by
  rcases h with ⟨hdone, hwritten⟩ | ⟨hnot, hdisks⟩
  · exact .inl ⟨hdone, hwritten.of_fail⟩
  · rw [fail_fail] at hdisks
    exact .inr ⟨hnot, .inr (hdisks.elim id id)⟩

theorem run_done {m : Nat} (h : io.status = .done m) (outs : List Outcome) : io.run p outs = io := by
  induction outs with
  | nil => rfl
  | cons out outs ih =>
    have hstep : io.step p out = io := by rw [StripeIo.step, h]
    rw [StripeIo.run, List.foldl_cons, hstep]
    exact ih

/-- **Every run** of a stripe write. -/
theorem run_sound (h : Before w io ∨ Writing w io) (outs : List Outcome) (houts : ∀ out ∈ outs, w.OnlyFails out) :
    Sound w (io.run p outs) := by
  induction outs generalizing w io with
  | nil =>
    right
    rcases h with (hplanned | hfailed) | hwriting
    · exact ⟨fun hdone => (nomatch hplanned.status.symm.trans hdone), .inl hplanned.base.disks⟩
    · obtain ⟨m, hm, hne⟩ := hfailed.status
      exact ⟨fun hdone => hne (Status.done.inj (hm.symm.trans hdone)), .inl hfailed.disks⟩
    · refine ⟨fun hdone => ?_, .inl hwriting.disks⟩
      rcases hwriting.status with hstatus | ⟨hstatus, -⟩
      · nomatch hstatus.symm.trans hdone
      · nomatch hstatus.symm.trans hdone
  | cons out outs ih =>
    obtain ⟨hout, hrest⟩ := List.forall_mem_cons.1 houts
    rw [StripeIo.run, List.foldl_cons, ← StripeIo.run]
    rcases h with (hplanned | hfailed) | hwriting
    · obtain ⟨w', rfl | rfl, hnext⟩ := hplanned.step hout
      · exact ih hnext hrest
      · exact (ih hnext fun out hmem => ⟨(hrest out hmem).writes, (hrest out hmem).disks⟩).of_fail
    · obtain ⟨m, hm, hne⟩ := hfailed.status
      have hstep : io.step p out = io := by rw [StripeIo.step, hm]
      rw [hstep]
      exact ih (.inl (.inr hfailed)) hrest
    · obtain ⟨hdone, hwritten⟩ := hwriting.step hout
      rw [run_done hdone]
      exact .inl ⟨hdone, hwritten⟩

theorem Written.logical_eq (h : Written w disks) {u o : Nat} (hu : u ≤ p.numDataCol) (ho : o < p.bytesPerStripeUnit) :
    logical p disks w.k u o = w.new u o := by
  rw [logical]
  split
  · rename_i hvalid
    exact h.bytes u hu hvalid o ho
  · rename_i hinvalid
    refine Eq.trans ?_ ((new_codeword o).eq_others hu).symm
    apply others_congr
    intro v hv hvu
    refine h.bytes v hv (h.valid v hv fun hvd => ?_) o ho
    have hud : u ≠ w.d := fun hud => hvu (hvd.trans hud.symm)
    exact hinvalid (h.valid u hu hud)

theorem Written.consistent (h : Written w disks) : Consistent p disks w.k := by
  intro o ho
  refine Eq.trans (sum_congr rfl fun u hu => ?_) (new_codeword (w := w) o)
  exact h.logical_eq (Nat.lt_succ_iff.1 (mem_range.1 hu)) ho

end steps

/-- The state of a stripe that only disk `d` may be lost of. -/
structure OneLost (p : Params) (disks : Disks) (k d : Nat) : Prop where
  sound : ∀ u ≤ p.numDataCol, (disks (p.unitPlace k u).col (p.unitPlace k u).row).Sound p
  valid : ∀ u ≤ p.numDataCol, u ≠ d → UnitValid p disks k u

/-- Of all that happens, only disk `d` of the stripe fails a write or is failed. -/
structure OnlyDisk (p : Params) (k d : Nat) (out : Outcome) : Prop where
  writes : ∀ r, r.operation = .write → out.fails r = true → OnUnit p k d r
  disks : ∀ col row, out.failDisk col row = true → col = (p.unitPlace k d).col ∧ row = (p.unitPlace k d).row

theorem buffer_offset (p : Params) {u s f : Nat} (h : f ≤ u * p.sectorsPerStripeUnit + s) (i : Nat) :
    ((u * p.bytesPerStripeUnit + (p.sectorToByte s + i) : Nat) : Int) - (f * p.bytesPerSector : Nat) =
      (p.sectorToByte (u * p.sectorsPerStripeUnit + s - f) + i : Nat) := by
  have hmul : f * p.bytesPerSector ≤ (u * p.sectorsPerStripeUnit + s) * p.bytesPerSector := Nat.mul_le_mul_right _ h
  rw [Nat.add_mul, Nat.mul_assoc, ← Params.bytesPerStripeUnit_eq] at hmul
  rw [Params.sectorToByte_eq, Params.sectorToByte_eq, Nat.sub_mul, Nat.add_mul, Nat.mul_assoc, ← Params.bytesPerStripeUnit_eq]
  omega

theorem byte_of_sector (p : Params) {s i : Nat} (hs : s < p.sectorsPerStripeUnit) (hi : i < p.bytesPerSector) :
    p.sectorToByte s + i < p.bytesPerStripeUnit ∧ (p.sectorToByte s + i) / p.bytesPerSector = s := by
  have hle : (s + 1) * p.bytesPerSector ≤ p.bytesPerStripeUnit := by
    rw [Params.bytesPerStripeUnit_eq]
    exact Nat.mul_le_mul_right _ hs
  rw [Nat.succ_mul] at hle
  rw [Params.sectorToByte_eq]
  exact ⟨by omega, quotient_of_lt hi⟩

/-- **A stripe write leaves the stripe consistent**, whatever is read and whatever fails of one disk. -/
theorem stripe_write_consistent (p : Params) {k f t d : Nat} {disks : Disks} (hft : f < t) (ht : t ≤ p.dataSectorsPerStripe)
    (hd : d ≤ p.numDataCol) (hlost : OneLost p disks k d) (hcons : Consistent p disks k) (address : Buf → Int) (mem : Mem)
    (outs : List Outcome) (houts : ∀ out ∈ outs, OnlyDisk p k d out)
    {io : StripeIo}
    (hio : io = ((StripeIo.make (k * p.dataSectorsPerStripe + f) (k * p.dataSectorsPerStripe + t) address mem disks).initiateStripeWrite p).run
      p outs)
    (hdone : io.status = .done 0) :
    Consistent p io.disks k ∧
      ∀ u < p.numDataCol, ∀ s < p.sectorsPerStripeUnit, ∀ i < p.bytesPerSector,
        logical p io.disks k u (p.sectorToByte s + i) =
          if f ≤ u * p.sectorsPerStripeUnit + s ∧ u * p.sectorsPerStripeUnit + s < t then
            mem .user (p.sectorToByte (u * p.sectorsPerStripeUnit + s - f) + i)
          else logical p disks k u (p.sectorToByte s + i) := by
  let w : Task p := ⟨k, f, t, mem .user, disks, d, hft, ht, hd, hlost.sound, hlost.valid, hcons⟩
  have hbase : Base w (StripeIo.make (k * p.dataSectorsPerStripe + f) (k * p.dataSectorsPerStripe + t) address mem disks) :=
    ⟨rfl, rfl, rfl, rfl, rfl, fun _ => rfl, rfl⟩
  have hwritten : Written w io.disks := by
    have hsound := run_sound hbase.initiate outs fun out hmem =>
      ⟨fun r u hu hon hwrite hfails => hon.unit_eq hu hd ((houts out hmem).writes r hwrite hfails), (houts out hmem).disks⟩
    rw [← hio] at hsound
    rcases hsound with ⟨-, hwritten⟩ | ⟨hnot, -⟩
    · exact hwritten
    · exact absurd hdone hnot
  refine ⟨hwritten.consistent, fun u hu s hs i hi => ?_⟩
  obtain ⟨ho, hsector⟩ := byte_of_sector p hs hi
  have hlogical := hwritten.logical_eq (Nat.le_of_lt hu) ho
  rw [new_data_eq hu, Task.newData, written, hsector] at hlogical
  refine hlogical.trans ?_
  by_cases hw : w.Writes u s
  · rw [if_pos hw, if_pos (show _ ∧ _ from hw)]
    exact congrArg (mem .user) (buffer_offset p hw.1 i)
  · rw [if_neg hw, if_neg (show ¬ (_ ∧ _) from hw)]
    rfl

theorem three_pos : 0 < 3 := by decide

theorem two_le_three : 2 ≤ 3 := by decide

theorem one_int : 1 < 2147483648 := by decide

theorem two_int : 2 < 2147483648 := by decide

theorem three_int : 3 < 2147483648 := by decide

theorem rotated : 'R' ≠ 'S' := by decide

/-- Two data disks and one of parity, with two sectors of one byte in a unit. -/
def threeDisks : Params where
  geometry :=
    { numRow := 1
      numCol := 3
      sectorsPerStripeUnit := 2
      stripeUnitsPerDisk := 3
      parityConfig := 'R'
      numRow_pos := Nat.one_pos
      numCol_two := two_le_three
      sectors_pos := Nat.two_pos
      units_pos := three_pos
      numRow_int := one_int
      numCol_int := three_int
      sectors_int := two_int
      units_int := three_int }
  logBytesPerSector := 0
  withParity := rotated

def firstLost : Disks := fun col _ =>
  if col = 0 then ⟨.failed, 0, 0, fun _ => 0⟩ else ⟨.ready, 6, 6, fun _ => 0⟩

theorem firstLost_data (col row : Nat) : (firstLost col row).data = fun _ => 0 := by
  rw [firstLost]
  split <;> rfl

theorem firstLost_logical (p : Params) (k u o : Nat) : logical p firstLost k u o = 0 := by
  have hbyte : ∀ v, unitByte p firstLost k v o = 0 := fun v => congrFun (firstLost_data _ _) _
  rw [logical]
  split
  · exact hbyte u
  · exact sum_eq_zero fun v _ => hbyte v

theorem firstLost_consistent (p : Params) (k : Nat) : Consistent p firstLost k :=
  fun o _ => sum_eq_zero fun u _ => firstLost_logical p k u o

theorem firstLost_sound (col row : Nat) : (firstLost col row).Sound threeDisks := by
  rw [firstLost]
  split
  · exact ⟨fun h => absurd h (Nat.lt_irrefl 0), Nat.dvd_zero _⟩
  · exact ⟨fun _ => rfl, ⟨3, rfl⟩⟩

def nothingFails : Outcome := ⟨fun _ => false, fun _ _ => 0, fun _ => false, fun _ _ => false⟩

theorem onlyDisk_nothingFails (p : Params) (k d : Nat) : OnlyDisk p k d nothingFails := ⟨fun _ _ => nofun, fun _ _ => nofun⟩

/-- The second sector of the lost unit and the first of the next: a split write. -/
theorem stripe_write_split :
    let io := ((StripeIo.make 1 3 (fun _ => 0) (fun _ _ _ => 1) firstLost).initiateStripeWrite threeDisks).run threeDisks
      [nothingFails, nothingFails]
    Consistent threeDisks io.disks 0 ∧ logical threeDisks io.disks 0 0 1 = (fun _ => 1) ∧
      logical threeDisks io.disks 0 0 0 = 0 := by
  intro io
  have hboth := stripe_write_consistent threeDisks (k := 0) (f := 1) (t := 3) (d := 0) (by decide) (by decide)
    (by decide) ⟨fun _ _ => firstLost_sound _ _, by decide⟩ (firstLost_consistent threeDisks 0) (fun _ => 0) (fun _ _ _ => 1)
    [nothingFails, nothingFails] (by simp [onlyDisk_nothingFails]) (show io = _ from rfl) rfl
  refine ⟨hboth.1, hboth.2 0 (by decide) 1 (by decide) 0 (by decide), ?_⟩
  exact (hboth.2 0 (by decide) 0 (by decide) 0 (by decide)).trans (firstLost_logical threeDisks 0 0 0)

end SpriteKernel.DevRaid.Initiate
