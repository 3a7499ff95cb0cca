import SpriteKernel.DevRaid.StripeRead

/- What the operations of a stripe leave alone, whatever fails and whatever the stripe is
   like: disks of other rows, and all but the contents of the disks unless a write fails
   (`OfStripe.run`); a read changes no disk (`ReadOnly.run`). -/
namespace SpriteKernel.DevRaid.Initiate

open List
open Striping

/-- The requests are for disks of the row of stripe `k`. -/
def Rows (p : Params) (k : Nat) (reqs : List BlockRequest) : Prop := ∀ r ∈ reqs, r.row = k % p.geometry.numRow

/-- An operation on stripe `k`. -/
structure OfStripe (p : Params) (k : Nat) (io : StripeIo) : Prop where
  first : ∃ f < p.dataSectorsPerStripe, io.firstSector = k * p.dataSectorsPerStripe + f
  nth : ∃ t ≤ p.dataSectorsPerStripe, io.nthSector = k * p.dataSectorsPerStripe + t
  rows : Rows p k io.reqControl.reqs

/-- What is done next is done for stripe `k`, and the disks are as they were. -/
def Follows (p : Params) (k : Nat) (io io' : StripeIo) : Prop := OfStripe p k io' ∧ io'.disks = io.disks

section adding
variable {p : Params} {k : Nat} {io : StripeIo} {disks : Disks} {rc : RequestControl} {operation : Operation} {ro rl : Nat}
  {buffer : Ptr}

theorem rows_nil : Rows p k [] := fun _ h => nomatch h

/-- What holds of every request of stripe `k` for `operation`, whatever its range, and is not about its state. -/
structure Uniform (p : Params) (k : Nat) (operation : Operation) (P : BlockRequest → Prop) : Prop where
  unit : ∀ u lo hi buffer, P (unitRequest p k operation u lo hi buffer)
  mark : ∀ disks r, P r → P (r.mark p disks)

theorem uniform_row : Uniform p k operation (·.row = k % p.geometry.numRow) := ⟨fun _ _ _ _ => rfl, fun _ _ h => h⟩

theorem uniform_read : Uniform p k .read (·.operation = .read) := ⟨fun _ _ _ _ => rfl, fun _ _ h => h⟩

variable {P : BlockRequest → Prop}

theorem Uniform.addRequests (hP : Uniform p k operation P) {l : List BlockRequest} (h : ∀ r ∈ rc.reqs, P r)
    (hl : ∀ r ∈ l, P r) : ∀ r ∈ (addRequests p disks rc l).reqs, P r := by
  rw [addRequests_reqs]
  intro r hr
  rcases mem_append.1 hr with hr | hr
  · exact h r hr
  · obtain ⟨q, hq, rfl⟩ := mem_map.1 hr
    exact hP.mark disks q (hl q hq)

theorem Uniform.dataRequests (hP : Uniform p k operation P) {x₀ x₁ rs rn : Nat} :
    ∀ r ∈ (List.range p.numDataCol).filterMap (dataRequest p k operation x₀ x₁ buffer rs rn), P r := by
  intro r hr
  obtain ⟨u, -, hreq⟩ := mem_filterMap.1 hr
  obtain ⟨lo, hi, -, -, rfl, -⟩ := dataRequest_some hreq
  exact hP.unit u lo hi _

theorem OfStripe.addData (h : OfStripe p k io) (hP : Uniform p k operation P) (hrc : ∀ r ∈ rc.reqs, P r) :
    ∀ r ∈ (addDataRangeRequests p disks operation io.firstSector io.nthSector buffer ro rl rc).reqs, P r := by
  obtain ⟨f, -, hf⟩ := h.first
  obtain ⟨t, ht, hnth⟩ := h.nth
  rw [hf, hnth, addDataRangeRequests_eq ht]
  exact hP.addRequests hrc hP.dataRequests

theorem OfStripe.addParity (h : OfStripe p k io) (hP : Uniform p k operation P) (hrc : ∀ r ∈ rc.reqs, P r) :
    ∀ r ∈ (addParityRangeRequest p disks operation io.firstSector buffer ro rl rc).reqs, P r := by
  obtain ⟨f, hlt, hf⟩ := h.first
  rw [hf, addParityRangeRequest_eq hlt]
  refine hP.addRequests hrc fun r hr => ?_
  rw [parityRequest] at hr
  split at hr
  · rw [mem_singleton.1 hr]
    exact hP.unit _ _ _ _
  · cases hr

theorem OfStripe.addRest (h : OfStripe p k io) (hP : Uniform p k .read P) (hrc : ∀ r ∈ rc.reqs, P r) :
    ∀ r ∈ (io.addRest p ro rl rc).reqs, P r := by
  obtain ⟨f, hlt, hf⟩ := h.first
  obtain ⟨t, ht, hnth⟩ := h.nth
  rw [StripeIo.addRest, hf, hnth, Params.firstSectorOfStripe_eq hlt, Params.nthSectorOfStripe_eq hlt,
    addDataRangeRequests_eq (Nat.le_refl _), addDataRangeRequests_first (Nat.le_of_lt hlt)]
  exact hP.addRequests (hP.addRequests hrc hP.dataRequests) hP.dataRequests

end adding

section writes
variable {p : Params} {k : Nat} {io : StripeIo} {call : RecoverProc → StripeIo → StripeIo}

theorem OfStripe.failure (h : OfStripe p k io) : Follows p k io io.initiateStripeIOFailure := ⟨⟨h.first, h.nth, h.rows⟩, rfl⟩

theorem OfStripe.split (h : OfStripe p k io) (r : BlockRequest) : Follows p k io (io.initiateSplitStripeWrite p r) := by
  rw [StripeIo.initiateSplitStripeWrite]
  generalize (if io.recoverProc = .readModifyWrite then _ else (_, _) : Nat × Nat) = range
  have hbase : ∀ proc ro rl, OfStripe p k { io with recoverProc := proc, rangeOff := ro, rangeLen := rl } :=
    fun _ _ _ => ⟨h.first, h.nth, h.rows⟩
  have hreset : Rows p k io.reqControl.reset.reqs := rows_nil
  dsimp only
  split
  · exact ⟨⟨h.first, h.nth, (hbase _ _ _).addParity uniform_row ((hbase _ _ _).addData uniform_row ((hbase _ _ _).addRest uniform_row hreset))⟩, rfl⟩
  · exact ⟨⟨h.first, h.nth, (hbase _ _ _).addParity uniform_row ((hbase _ _ _).addData uniform_row ((hbase _ _ _).addRest uniform_row hreset))⟩, rfl⟩

/-- What a procedure that `recoverProc` may be does, is done for the stripe. -/
def CallFollows (p : Params) (k : Nat) (call : RecoverProc → StripeIo → StripeIo) : Prop :=
  ∀ proc io, OfStripe p k io → Follows p k io (call proc io)

theorem OfStripe.recover (h : OfStripe p k io) (hcall : CallFollows p k call) (r : BlockRequest) :
    Follows p k io (io.recover p call r) := by
  rw [StripeIo.recover]
  split
  · exact h.split r
  · exact hcall _ { io with recoverProc := .stripeIOFailure } ⟨h.first, h.nth, h.rows⟩

theorem OfStripe.readModifyWrite (h : OfStripe p k io) (hcall : CallFollows p k call) :
    Follows p k io (io.initiateReadModifyWrite p call) := by
  have hreset : Rows p k io.reqControl.reset.reqs := rows_nil
  rw [StripeIo.initiateReadModifyWrite]
  obtain ⟨rc, hrc⟩ : ∃ rc, rc = addDataRequests p io.disks .read io.firstSector io.nthSector io.readBuf io.reqControl.reset := ⟨_, rfl⟩
  have hdata : Rows p k rc.reqs := by
    rw [hrc]
    exact h.addData uniform_row hreset
  simp only [← hrc]
  generalize StripeIo.modifyRange p rc.reqs = range
  have hrows : Rows p k (addParityRangeRequest p io.disks .read io.firstSector io.parityBuf range.1 range.2 rc).reqs :=
    h.addParity uniform_row hdata
  revert hrows
  generalize addParityRangeRequest p io.disks .read io.firstSector io.parityBuf range.1 range.2 rc = rc'
  intro hrows
  have hbase : ∀ proc, OfStripe p k { io with recoverProc := proc, rangeOff := range.1, rangeLen := range.2, reqControl := rc' } :=
    fun _ => ⟨h.first, h.nth, hrows⟩
  split
  · exact ⟨⟨h.first, h.nth, hrows⟩, rfl⟩
  · exact ⟨⟨h.first, h.nth, hrows⟩, rfl⟩
  · split
    · exact (hbase .stripeIOFailure).split _
    · exact hcall _ _ (hbase .stripeIOFailure)

theorem OfStripe.reconstructWrite (h : OfStripe p k io) (hcall : CallFollows p k call) :
    Follows p k io (io.initiateReconstructWrite p call) := by
  have hreset : Rows p k io.reqControl.reset.reqs := rows_nil
  rw [StripeIo.initiateReconstructWrite]
  generalize io.reconstructRange p = range
  have hrows : Rows p k (io.addRest p range.1 range.2 io.reqControl.reset).reqs := h.addRest uniform_row hreset
  revert hrows
  generalize io.addRest p range.1 range.2 io.reqControl.reset = rc
  intro hrows
  have hbase : OfStripe p k { io with rangeOff := range.1, rangeLen := range.2, reqControl := rc } := ⟨h.first, h.nth, hrows⟩
  split
  · exact ⟨⟨h.first, h.nth, hrows⟩, rfl⟩
  · exact ⟨hbase, rfl⟩
  · exact hbase.recover hcall _

theorem callRecover_follows (n : Nat) : CallFollows p k (StripeIo.callRecover p n) := by
  induction n with
  | zero =>
    intro proc io h
    cases proc with
    | readModifyWrite => exact h.failure
    | reconstructWrite => exact h.failure
    | stripeIOFailure => exact h.failure
  | succ n ih =>
    intro proc io h
    cases proc with
    | readModifyWrite => exact h.readModifyWrite ih
    | reconstructWrite => exact h.reconstructWrite ih
    | stripeIOFailure => exact h.failure

theorem OfStripe.initiateWrite (h : OfStripe p k io) : Follows p k io (io.initiateStripeWrite p) := by
  have hreset : Rows p k io.reqControl.reset.reqs := rows_nil
  rw [StripeIo.initiateStripeWrite]
  have hparity : Rows p k (addParityRequest p io.disks .read io.firstSector io.parityBuf io.reqControl.reset).reqs := h.addParity uniform_row hreset
  revert hparity
  generalize addParityRequest p io.disks .read io.firstSector io.parityBuf io.reqControl.reset = rc
  intro hparity
  have hdata : Rows p k (addDataRequests p io.disks .write io.firstSector io.nthSector io.buffer rc.reset).reqs := h.addData uniform_row rows_nil
  have hbase : ∀ proc, OfStripe p k { io with reqControl := rc, recoverProc := proc } := fun _ => ⟨h.first, h.nth, hparity⟩
  split
  · dsimp only
    split
    · exact ⟨⟨h.first, h.nth, hdata⟩, rfl⟩
    · exact ⟨⟨h.first, h.nth, hdata⟩, rfl⟩
  · split
    · exact (hbase _).readModifyWrite (callRecover_follows 2)
    · exact (hbase _).reconstructWrite (callRecover_follows 2)

theorem rows_completeFailed {rc : RequestControl} (h : Rows p k rc.reqs) : Rows p k rc.completeFailed.reqs := by
  rw [RequestControl.completeFailed]
  split
  · intro r hr
    obtain ⟨q, hq, rfl⟩ := mem_map.1 hr
    split
    · exact h q hq
    · exact h q hq
  · exact h

section
variable (h : OfStripe p k io)
include h

theorem OfStripe.writeNew : Follows p k io (io.writeNew p) := by
  have hcomp : Follows p k io (io.computeParity p) :=
    ⟨⟨h.first, h.nth, rows_completeFailed (h.addData uniform_row rows_nil)⟩, rfl⟩
  rw [StripeIo.writeNew]
  obtain ⟨io₁, hio₁⟩ : ∃ io₁, io₁ = { io.computeParity p with parityBuf := ⟨.newParityBuf, 0⟩ } := ⟨_, rfl⟩
  have hbase : OfStripe p k io₁ := by
    rw [hio₁]
    exact ⟨hcomp.1.first, hcomp.1.nth, hcomp.1.rows⟩
  have hdisks : io₁.disks = io.disks := by
    rw [hio₁]
    exact hcomp.2
  rw [← hio₁]
  have hrows : Rows p k (addParityRangeRequest p io₁.disks .write io₁.firstSector io₁.parityBuf io₁.rangeOff io₁.rangeLen
      io₁.reqControl).reqs := hbase.addParity uniform_row hbase.rows
  split
  · exact ⟨⟨hbase.first, hbase.nth, hrows⟩, hdisks⟩
  · exact ⟨⟨hbase.first, hbase.nth, hrows⟩, hdisks⟩
  · exact ⟨⟨hbase.first, hbase.nth, hrows⟩, hdisks⟩

theorem OfStripe.reconstructRead (r : BlockRequest) : Follows p k io (io.initiateReconstructRead p r) := by
  rw [StripeIo.initiateReconstructRead]
  have hrows : Rows p k { io.reqControl with numFailed := 0, failedReq := some r }.reqs := h.rows
  split
  · exact ⟨⟨h.first, h.nth, h.addParity uniform_row (h.addRest uniform_row hrows)⟩, rfl⟩
  · exact ⟨⟨h.first, h.nth, h.addParity uniform_row (h.addRest uniform_row hrows)⟩, rfl⟩

theorem OfStripe.reconstructData : Follows p k io (io.reconstructData p) := by
  rw [StripeIo.reconstructData]
  split
  · exact ⟨h, rfl⟩
  · exact ⟨⟨h.first, h.nth, h.rows⟩, rfl⟩

/-- **The callbacks** go on with the stripe, and do nothing to the disks themselves. -/
theorem OfStripe.callDone (numFailed : Nat) (failedReq : Option BlockRequest) (proc : DoneProc) :
    Follows p k io (io.callDone p numFailed failedReq proc) := by
  have hdone : ∀ m, Follows p k io { io with status := .done m } := fun _ => ⟨⟨h.first, h.nth, h.rows⟩, rfl⟩
  cases proc with
  | oldInfoRead =>
    unfold StripeIo.callDone
    dsimp only
    split
    · exact h.writeNew
    · exact ⟨h, rfl⟩
    · rename_i r _
      have hbase : OfStripe p k { io with reqControl := { io.reqControl with failedReq := some r } } := ⟨h.first, h.nth, h.rows⟩
      exact hbase.recover (callRecover_follows 2) r
  | stripeWrite => exact hdone _
  | stripeIo => exact hdone _
  | stripeRead =>
    unfold StripeIo.callDone
    dsimp only
    split
    · exact h.reconstructRead _
    · exact hdone _
  | reconstructStripeRead =>
    unfold StripeIo.callDone
    dsimp only
    split
    · exact ⟨⟨h.reconstructData.1.first, h.reconstructData.1.nth, h.reconstructData.1.rows⟩, h.reconstructData.2⟩
    · exact hdone _

end

end writes

section frame
variable {p : Params} {k : Nat} {io : StripeIo} {out : Outcome} {reqs : List BlockRequest} {mem : Mem} {disks : Disks}

/-- Only the contents of a disk have changed. -/
structure Disk.SameHealth (old new : Disk) : Prop where
  state : new.state = old.state
  valid : new.numValidSector = old.numValidSector
  saved : new.saved = old.saved

theorem Disk.SameHealth.trans {a b c : Disk} (h : Disk.SameHealth a b) (h' : Disk.SameHealth b c) : Disk.SameHealth a c :=
  ⟨h'.state.trans h.state, h'.valid.trans h.valid, h'.saved.trans h.saved⟩

theorem set_of_ne {col row c r : Nat} {d : Disk} (h : ¬ (c = col ∧ r = row)) : (disks.set col row d) c r = disks c r := if_neg h

theorem transfer_disks (out : Outcome) (mem : Mem) (disks : Disks) (q : BlockRequest) :
    (transfer out q (mem, disks)).2 = disks ∨ q.operation = .write ∧
      (transfer out q (mem, disks)).2 = disks.set q.col q.row (q.written out mem (disks q.col q.row)) := by
  by_cases hready : q.state = .ready
  · cases hop : q.operation with
    | read =>
      obtain ⟨f, hf⟩ : ∃ f, transfer out q (mem, disks) = (mem.fill q.buffer q.bufferLen f, disks) := transfer_read hop hready
      rw [hf]
      exact .inl rfl
    | write =>
      rw [transfer_write hop hready]
      exact .inr ⟨rfl, rfl⟩
  · rw [transfer_idle hready]
    exact .inl rfl

theorem transfer_frame (q : BlockRequest) {c r : Nat} (h : ¬ (c = q.col ∧ r = q.row)) :
    (transfer out q (mem, disks)).2 c r = disks c r := by
  rcases transfer_disks out mem disks q with heq | ⟨-, heq⟩ <;> rw [heq]
  exact set_of_ne h

theorem transferAll_frame {c r : Nat} (h : ∀ q ∈ reqs, ¬ (c = q.col ∧ r = q.row)) :
    (transferAll out reqs mem disks).2 c r = disks c r := by
  induction reqs generalizing mem disks with
  | nil => rfl
  | cons q reqs ih =>
    obtain ⟨hq, hreqs⟩ := forall_mem_cons.1 h
    rw [transferAll_cons, ih hreqs, transfer_frame q hq]

theorem transfer_health (q : BlockRequest) (h : q.operation = .write → out.fails q = false) (c r : Nat) :
    Disk.SameHealth (disks c r) ((transfer out q (mem, disks)).2 c r) := by
  by_cases hat : c = q.col ∧ r = q.row
  · obtain ⟨rfl, rfl⟩ := hat
    rcases transfer_disks out mem disks q with heq | ⟨hop, heq⟩ <;> rw [heq]
    · exact ⟨rfl, rfl, rfl⟩
    · rw [set_same, BlockRequest.written, h hop]
      exact ⟨rfl, rfl, rfl⟩
  · rw [transfer_frame q hat]
    exact ⟨rfl, rfl, rfl⟩

theorem transferAll_health (h : ∀ q ∈ reqs, q.operation = .write → out.fails q = false) (c r : Nat) :
    Disk.SameHealth (disks c r) ((transferAll out reqs mem disks).2 c r) := by
  induction reqs generalizing mem disks with
  | nil => exact ⟨rfl, rfl, rfl⟩
  | cons q reqs ih =>
    obtain ⟨hq, hreqs⟩ := forall_mem_cons.1 h
    exact (transfer_health q hq c r).trans (ih hreqs)

def Outcome.Alone (out : Outcome) : Prop := ∀ col row, out.failDisk col row = false

def Outcome.NoWriteFails (out : Outcome) : Prop := ∀ q : BlockRequest, q.operation = .write → out.fails q = false

theorem failDisks_alone (h : out.Alone) : (io.failDisks out).disks = io.disks := by
  funext c r
  exact if_neg (by rw [h c r]; exact Bool.false_ne_true)

theorem rows_complete (h : Rows p k io.reqControl.reqs) : Rows p k (io.complete out).reqControl.reqs := by
  intro q hq
  obtain ⟨q', hq', rfl⟩ := mem_map.1 hq
  rw [BlockRequest.complete]
  split
  · exact h q' hq'
  · exact h q' hq'

/-- **A step of an operation on stripe `k`.** -/
theorem OfStripe.step (h : OfStripe p k io) (hout : out.Alone) :
    OfStripe p k (io.step p out) ∧ (∀ c r, r ≠ k % p.geometry.numRow → (io.step p out).disks c r = io.disks c r) ∧
      (out.NoWriteFails → ∀ c r, Disk.SameHealth (io.disks c r) ((io.step p out).disks c r)) := by
  rw [StripeIo.step]
  split
  · exact ⟨h, fun _ _ _ => rfl, fun _ _ _ => ⟨rfl, rfl, rfl⟩⟩
  · have hbase : OfStripe p k ((io.complete out).failDisks out) := ⟨h.first, h.nth, rows_complete h.rows⟩
    obtain ⟨hnext, hdisks⟩ := hbase.callDone (failures out io.reqControl.reqs).length
      (((failures out io.reqControl.reqs).find? out.last).or (failures out io.reqControl.reqs).getLast?) (by assumption)
    refine ⟨hnext, fun c r hr => ?_, fun hok c r => ?_⟩
    · rw [hdisks, failDisks_alone hout]
      exact transferAll_frame fun q hq heq => hr (heq.2.trans (h.rows q hq))
    · rw [hdisks, failDisks_alone hout]
      exact transferAll_health (fun q _ => hok q) c r

/-- **A run of an operation on stripe `k`.** -/
theorem OfStripe.run (h : OfStripe p k io) {outs : List Outcome} (houts : ∀ out ∈ outs, out.Alone) :
    (∀ c r, r ≠ k % p.geometry.numRow → (io.run p outs).disks c r = io.disks c r) ∧
      ((∀ out ∈ outs, out.NoWriteFails) → ∀ c r, Disk.SameHealth (io.disks c r) ((io.run p outs).disks c r)) := by
  induction outs generalizing io with
  | nil => exact ⟨fun _ _ _ => rfl, fun _ _ _ => ⟨rfl, rfl, rfl⟩⟩
  | cons out outs ih =>
    obtain ⟨hout, hrest⟩ := forall_mem_cons.1 houts
    obtain ⟨hnext, hframe, hhealth⟩ := h.step hout
    obtain ⟨hframe', hhealth'⟩ := ih hnext hrest
    refine ⟨fun c r hr => (hframe' c r hr).trans (hframe c r hr), fun hok c r => ?_⟩
    obtain ⟨hok, hoks⟩ := forall_mem_cons.1 hok
    exact (hhealth hok c r).trans (hhealth' hoks c r)

end frame

section reads
variable {p : Params} {k : Nat} {io : StripeIo} {out : Outcome} {disks : Disks} {rc : RequestControl} {ro rl : Nat} {buffer : Ptr}

def Reads (reqs : List BlockRequest) : Prop := ∀ r ∈ reqs, r.operation = .read

/-- A read, where it waits or at its end. -/
structure ReadOnly (p : Params) (k : Nat) (io : StripeIo) : Prop where
  stripe : OfStripe p k io
  reads : Reads io.reqControl.reqs
  status : io.status = .waiting .stripeRead ∨ io.status = .waiting .reconstructStripeRead ∨ ∃ m, io.status = .done m

theorem ReadOnly.reconstructRead (h : OfStripe p k io) (hreads : Reads io.reqControl.reqs) (r : BlockRequest) :
    ReadOnly p k (io.initiateReconstructRead p r) := by
  have hbase : Reads { io.reqControl with numFailed := 0, failedReq := some r }.reqs := hreads
  refine ⟨(h.reconstructRead r).1, ?_, ?_⟩
  · rw [StripeIo.initiateReconstructRead]
    split
    · exact h.addParity uniform_read (h.addRest uniform_read hbase)
    · exact h.addParity uniform_read (h.addRest uniform_read hbase)
  · rw [StripeIo.initiateReconstructRead]
    split
    · exact .inr (.inl rfl)
    · exact .inr (.inr ⟨2, rfl⟩)

theorem ReadOnly.initiate (h : OfStripe p k io) : ReadOnly p k (io.initiateStripeRead p) ∧ (io.initiateStripeRead p).disks = io.disks := by
  have hreset : Reads io.reqControl.reset.reqs := fun _ hr => nomatch hr
  have hrows : Rows p k io.reqControl.reset.reqs := rows_nil
  rw [StripeIo.initiateStripeRead]
  have hreads : Reads (addDataRequests p io.disks .read io.firstSector io.nthSector io.buffer io.reqControl.reset).reqs := h.addData uniform_read hreset
  have hadd : Rows p k (addDataRequests p io.disks .read io.firstSector io.nthSector io.buffer io.reqControl.reset).reqs := h.addData uniform_row hrows
  revert hreads hadd
  generalize addDataRequests p io.disks .read io.firstSector io.nthSector io.buffer io.reqControl.reset = rc
  intro hreads hadd
  have hbase : OfStripe p k { io with reqControl := rc } := ⟨h.first, h.nth, hadd⟩
  split
  · exact ⟨⟨⟨h.first, h.nth, hadd⟩, hreads, .inl rfl⟩, rfl⟩
  · exact ⟨ReadOnly.reconstructRead hbase hreads _, (hbase.reconstructRead _).2⟩
  · exact ⟨⟨⟨h.first, h.nth, hadd⟩, hreads, .inr (.inr ⟨2, rfl⟩)⟩, rfl⟩

theorem reads_complete (h : Reads io.reqControl.reqs) : Reads (io.complete out).reqControl.reqs := by
  intro q hq
  obtain ⟨q', hq', rfl⟩ := mem_map.1 hq
  rw [BlockRequest.complete]
  split
  · exact h q' hq'
  · exact h q' hq'

/-- **A step of a read** leaves the disks alone. -/
theorem ReadOnly.step (h : ReadOnly p k io) (hout : out.Alone) :
    ReadOnly p k (io.step p out) ∧ (io.step p out).disks = io.disks := by
  have hbase : OfStripe p k ((io.complete out).failDisks out) := ⟨h.stripe.first, h.stripe.nth, rows_complete h.stripe.rows⟩
  have hreads : Reads ((io.complete out).failDisks out).reqControl.reqs := reads_complete h.reads
  have hdisks : ((io.complete out).failDisks out).disks = io.disks := by
    rw [failDisks_alone hout]
    exact (transferAll_reads fun q hq _ => h.reads q hq).1
  have hdone : ∀ m, ReadOnly p k { (io.complete out).failDisks out with status := .done m } :=
    fun m => ⟨⟨hbase.first, hbase.nth, hbase.rows⟩, hreads, .inr (.inr ⟨m, rfl⟩)⟩
  rw [StripeIo.step]
  rcases h.status with hstatus | hstatus | ⟨m, hstatus⟩
  · rw [hstatus]
    unfold StripeIo.callDone
    dsimp only
    split
    · exact ⟨ReadOnly.reconstructRead hbase hreads _, (hbase.reconstructRead _).2.trans hdisks⟩
    · exact ⟨hdone _, hdisks⟩
  · rw [hstatus]
    unfold StripeIo.callDone
    dsimp only
    split
    · obtain ⟨hnext, hsame⟩ := hbase.reconstructData
      refine ⟨⟨⟨hnext.first, hnext.nth, hnext.rows⟩, ?_, .inr (.inr ⟨0, rfl⟩)⟩, hsame.trans hdisks⟩
      rw [StripeIo.reconstructData]
      split
      · exact hreads
      · exact hreads
    · exact ⟨hdone _, hdisks⟩
  · rw [hstatus]
    exact ⟨h, rfl⟩

/-- **A read changes no disk.** -/
theorem ReadOnly.run (h : ReadOnly p k io) {outs : List Outcome} (houts : ∀ out ∈ outs, out.Alone) :
    (io.run p outs).disks = io.disks := by
  induction outs generalizing io with
  | nil => rfl
  | cons out outs ih =>
    obtain ⟨hout, hrest⟩ := forall_mem_cons.1 houts
    obtain ⟨hnext, hdisks⟩ := h.step hout
    rw [StripeIo.run, foldl_cons, ← StripeIo.run, ih hnext hrest, hdisks]

end reads

end SpriteKernel.DevRaid.Initiate
