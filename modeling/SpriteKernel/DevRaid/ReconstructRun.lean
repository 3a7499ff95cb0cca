import SpriteKernel.DevRaid.ReconstructSound

/- The runs of a reconstruction beside stripe operations. -/
namespace SpriteKernel.DevRaid.Initiate

open List
open Striping Parity Finset

/-- A disk has been put in at `col` and `row`, of which the sectors before `numValidSector`
    are right. -/
structure Start (p : Params) (col row : Nat) (s : Rebuild) : Prop where
  col_lt : col < p.geometry.numCol
  row_lt : row < p.geometry.numRow
  phase : s.control.phase = .next
  readBuf : s.control.readBuf = ⟨.readBuf, 0⟩
  parityBuf : s.control.parityBuf = ⟨.parityBuf, 0⟩
  ready : (s.disks col row).state = .ready
  sound : ∀ c < p.geometry.numCol, (s.disks c row).Sound p
  others : OthersValid p col row s.disks
  le : (s.disks col row).numValidSector ≤ p.sectorsPerDisk
  saved : (s.disks col row).saved ≤ (s.disks col row).numValidSector
  consistent : ∀ k, k % p.geometry.numRow = row → p.height k < p.geometry.units → Consistent p s.disks k

/-- Neither a request of the reconstruction nor a write fails, and the disk is not failed. -/
def Event.FailureFree : Event → Prop
  | .reconstruct out => ∀ q, out.fails q = false
  | .read _ _ _ _ _ outs => ∀ out ∈ outs, out.NoWriteFails
  | .write _ _ _ _ _ outs => ∀ out ∈ outs, out.NoWriteFails
  | .restart => False
  | .failDisk => False

def Event.isReconstruct : Event → Bool
  | .reconstruct _ => true
  | _ => false

section runs
variable {p : Params} {col row : Nat} {s t : Rebuild} {e : Event} {events : List Event}

theorem Start.inv (h : Start p col row s) : Inv p col row s where
  readBuf := h.readBuf
  parityBuf := h.parityBuf
  sound := h.sound
  others := h.others
  le := h.le
  saved := h.saved
  consistent k hk hunits _ := h.consistent k hk hunits
  waits := by
    rw [Waits, h.phase]
    trivial

theorem Step.inv (h : Step p col row s e t) (hcol : col < p.geometry.numCol) (hrow : row < p.geometry.numRow) (hs : Inv p col row s) :
    Inv p col row t := by
  cases h with
  | reconstruct => exact hs.step hcol hrow _
  | restart hphase _ =>
    refine hs.idle (.inl rfl) rfl ⟨rfl, rfl⟩ fun k hk => ?_
    rw [Reconstruction.locked, hphase] at hk
    cases hk
  | read hgo houts _ =>
    rw [hgo.read houts]
    exact hs
  | write hgo houts _ => exact hs.write hcol hgo houts
  | failDisk => exact hs.failDisk hcol

theorem Run.inv (h : Run p col row s events t) (hcol : col < p.geometry.numCol) (hrow : row < p.geometry.numRow)
    (hs : Inv p col row s) : Inv p col row t := by
  induction h with
  | nil => exact hs
  | snoc _ hstep ih => exact hstep.inv hcol hrow ih

theorem Inv.unit (h : Inv p col row s) {k d : Nat} (hon : OnDisk p col row k d)
    (hvalid : (p.height k + 1) * p.sectorsPerStripeUnit ≤ (s.disks col row).numValidSector) (hlocked : s.control.locked ≠ some k) :
    ∀ o < p.bytesPerStripeUnit, unitByte p s.disks k d o = Parity.others p.numDataCol (fun u => unitByte p s.disks k u o) d := by
  intro o ho
  have hunits : p.height k < p.geometry.units :=
    Nat.le_of_mul_le_mul_right (Nat.le_trans hvalid h.le) p.sectors_pos
  have hall : ∀ u ≤ p.numDataCol, UnitValid p s.disks k u := by
    intro u hu
    by_cases hud : u = d
    · rw [hud]
      exact hon.valid_iff.2 hvalid
    · exact h.others.unit hon hunits u hu hud
  exact ((consistent_iff hall).1 (h.consistent k hon.row_eq hunits hlocked) o ho).eq_others hon.le

theorem Inv.saved_unlocked (h : Inv p col row s) {k : Nat} (hk : (p.height k + 1) * p.sectorsPerStripeUnit ≤ (s.disks col row).saved) :
    s.control.locked ≠ some k := by
  intro hlocked
  have hpos := p.sectors_pos
  have hwaits := h.waits
  have hsaved := h.saved
  rw [Waits] at hwaits
  rw [Reconstruction.locked] at hlocked
  rw [Nat.succ_mul] at hk
  cases hphase : s.control.phase with
  | next =>
    rw [hphase] at hlocked
    cases hlocked
  | done b =>
    rw [hphase] at hlocked
    cases hlocked
  | reading =>
    rw [hphase] at hlocked hwaits
    obtain ⟨d, hd⟩ := hwaits
    cases hlocked
    have hvalid := hd.valid
    omega
  | writing =>
    rw [hphase] at hlocked hwaits
    obtain ⟨d, hd⟩ := hwaits
    cases hlocked
    have hle := hd.saved
    omega

end runs

section progress
variable {p : Params} {col row : Nat} {s t : Rebuild} {e : Event} {events : List Event} {out : Outcome}

/-- How often the reconstruction goes on before it is over. -/
def left (p : Params) (col row : Nat) (s : Rebuild) : Nat :=
  let units := p.geometry.units - (s.disks col row).numValidSector / p.sectorsPerStripeUnit
  match s.control.phase with
  | .next => 3 * units + 1
  | .reading => 3 * units
  | .writing => 3 * units + 2
  | .done _ => 0

/-- Nothing has failed. -/
structure Going (p : Params) (col row : Nat) (s : Rebuild) : Prop where
  ready : (s.disks col row).state = .ready
  ended : ∀ b, s.control.phase = .done b → (s.disks col row).numValidSector = p.sectorsPerDisk

theorem unit_quotient (m : Nat) : m * p.sectorsPerStripeUnit / p.sectorsPerStripeUnit = m := Nat.mul_div_cancel m p.sectors_pos

theorem failures_nil (h : ∀ q, out.fails q = false) (reqs : List BlockRequest) : failures out reqs = [] := by
  have hnone : reqs.filter (fun r => decide (r.state = .ready ∧ out.fails r = true)) = [] := by
    apply filter_eq_nil_iff.2
    intro r _ hr
    rw [h r] at hr
    nomatch (of_decide_eq_true hr).2
  rw [failures, hnone]
  rfl

/-- **The reconstruction goes on** when nothing fails. -/
theorem Going.step (h : Going p col row s) (hs : Inv p col row s) (hcol : col < p.geometry.numCol) (hrow : row < p.geometry.numRow)
    (hout : ∀ q, out.fails q = false) :
    Going p col row (s.step p col row out) ∧ left p col row (s.step p col row out) = left p col row s - 1 := by
  obtain ⟨s', hs'⟩ : ∃ s', s' = s.step p col row out := ⟨_, rfl⟩
  have hwaits := hs.waits
  rw [Waits] at hwaits
  rw [← hs']
  rw [Rebuild.step] at hs'
  cases hphase : s.control.phase with
  | next =>
    rw [hphase] at hs'
    dsimp only at hs'
    rcases hs.initiate_cases hcol hrow with ⟨hend, heq⟩ | ⟨hnot, -⟩ | ⟨-, hreading, hdisks, -⟩
    · rw [heq] at hs'
      rw [hs']
      refine ⟨⟨h.ready, fun _ _ => hend⟩, ?_⟩
      have hquot : p.geometry.units - p.sectorsPerDisk / p.sectorsPerStripeUnit = 0 := by
        rw [Params.sectorsPerDisk, unit_quotient, Nat.sub_self]
      rw [left, left, hphase, hend]
      dsimp only [Rebuild.setPhase]
      rw [hquot]
    · exact absurd h.ready hnot
    · rw [← hs'] at hreading hdisks
      refine ⟨⟨by rw [hdisks]; exact h.ready, fun b hb => by cases hreading.symm.trans hb⟩, ?_⟩
      rw [left, left, hreading, hphase, hdisks]
      rfl
  | reading =>
    rw [hphase] at hs' hwaits
    obtain ⟨d, hd⟩ := hwaits
    obtain ⟨-, -, ⟨hno, -⟩ | ⟨-, hwriting, -, hdisks, -⟩⟩ := hd.cases hs'
    · rcases hno with hfail | hnot
      · exact absurd (failures_nil hout _) hfail
      · exact absurd h.ready hnot
    · refine ⟨⟨?_, fun b hb => by cases hwriting.symm.trans hb⟩, ?_⟩
      · rw [hdisks, raise_same]
        exact h.ready
      · have hunits := hd.units
        rw [left, left, hwriting, hphase, hdisks, raise_same, hd.ready h.ready]
        dsimp only
        rw [unit_quotient, unit_quotient]
        omega
  | writing =>
    rw [hphase] at hs' hwaits
    obtain ⟨d, hd⟩ := hwaits
    have hsame : Disk.SameHealth (s.disks col row) ((s.complete out).disks col row) := by
      rw [(hd.transferred out).1, BlockRequest.written, hout]
      exact ⟨rfl, rfl, rfl⟩
    obtain ⟨-, -, ⟨hnot, -⟩ | ⟨-, -, hnext, hdisks⟩⟩ := hs.write_cases hcol hd hs'
    · exact absurd (hsame.state.trans h.ready) hnot
    · refine ⟨⟨?_, fun b hb => by cases hnext.symm.trans hb⟩, ?_⟩
      · rw [hdisks, save_same]
        exact hsame.state.trans h.ready
      · rw [left, left, hnext, hphase, hdisks, save_same]
        rw [hsame.valid]
        rfl
  | done b =>
    rw [hphase] at hs'
    rw [hs']
    refine ⟨h, ?_⟩
    rw [left, hphase]
    rfl

theorem Going.beside (h : Going p col row s) {disks : Disks} (hsame : Disk.SameHealth (s.disks col row) (disks col row)) :
    Going p col row { s with disks := disks } ∧ left p col row { s with disks := disks } = left p col row s := by
  refine ⟨⟨hsame.state.trans h.ready, fun b hb => hsame.valid.trans (h.ended b hb)⟩, ?_⟩
  rw [left, left]
  rw [hsame.valid]

theorem Step.going (h : Step p col row s e t) (hcol : col < p.geometry.numCol) (hrow : row < p.geometry.numRow) (hs : Inv p col row s)
    (hgoing : Going p col row s) (he : e.FailureFree) :
    Going p col row t ∧ left p col row t = left p col row s - (if e.isReconstruct then 1 else 0) := by
  cases h with
  | reconstruct => exact hgoing.step hs hcol hrow he
  | restart => exact he.elim
  | read hgo houts _ =>
    rw [hgo.read houts]
    exact ⟨hgoing, rfl⟩
  | @write k f t address mem outs _ hgo houts _ =>
    have hof : OfStripe p k (StripeIo.make (k * p.dataSectorsPerStripe + f) (k * p.dataSectorsPerStripe + t) address mem s.disks) :=
      hgo.ofStripe
    obtain ⟨hnext, hdisks⟩ := hof.initiateWrite
    obtain ⟨-, hhealth⟩ := hnext.run fun out hmem => (houts out hmem).1
    have hsame := hhealth he col row
    rw [hdisks] at hsame
    exact hgoing.beside hsame
  | failDisk => exact he.elim

/-- **A run without failures.** -/
theorem Run.going (h : Run p col row s events t) (hcol : col < p.geometry.numCol) (hrow : row < p.geometry.numRow)
    (hs : Inv p col row s) (hgoing : Going p col row s) (hfree : ∀ e ∈ events, e.FailureFree) :
    Going p col row t ∧ left p col row t = left p col row s - events.countP Event.isReconstruct := by
  induction h with
  | nil => exact ⟨hgoing, rfl⟩
  | snoc hrun hstep ih =>
    obtain ⟨hbefore, hleft⟩ := ih fun e he => hfree e (mem_append_left _ he)
    obtain ⟨hafter, hleft'⟩ := hstep.going hcol hrow (hrun.inv hcol hrow hs) hbefore (hfree _ (mem_append_right _ mem_cons_self))
    refine ⟨hafter, ?_⟩
    rw [hleft', hleft, countP_append, countP_singleton]
    omega

end progress

theorem run_reconstruct (p : Params) (col row : Nat) (out : Outcome) (s : Rebuild) (n : Nat) :
    Run p col row s (List.replicate n (.reconstruct out)) ((fun s => s.step p col row out)^[n] s) := by
  induction n with
  | zero => exact .nil s
  | succ n ih =>
    rw [replicate_succ', Function.iterate_succ_apply']
    exact ih.snoc .reconstruct

def firstReplaced : Rebuild where
  disks col _ := if col = 0 then ⟨.ready, 0, 0, fun _ => 1⟩ else ⟨.ready, 6, 6, fun _ => 0⟩
  control :=
    { stripeID := 0
      reqControl := ⟨[], 0, none⟩
      parityBuf := ⟨.parityBuf, 0⟩
      readBuf := ⟨.readBuf, 0⟩
      address := fun _ => 0
      mem := fun _ _ => 1
      phase := .next }

theorem firstReplaced_others : OthersValid threeDisks 0 0 firstReplaced.disks := by
  intro c _ hne
  have hdisk : firstReplaced.disks c 0 = ⟨.ready, 6, 6, fun _ => 0⟩ := if_neg hne
  rw [hdisk]
  decide

theorem firstReplaced_start : Start threeDisks 0 0 firstReplaced where
  col_lt := by decide
  row_lt := by decide
  phase := rfl
  readBuf := rfl
  parityBuf := rfl
  ready := rfl
  sound c _ := by
    show (if c = 0 then _ else _ : Disk).Sound threeDisks
    split
    · exact ⟨fun _ => rfl, Nat.dvd_zero _⟩
    · exact ⟨fun _ => rfl, ⟨3, rfl⟩⟩
  others := firstReplaced_others
  le := by decide
  saved := by decide
  consistent _ hk hunits := consistent_beyond (by decide) firstReplaced_others hk hunits (Nat.zero_le _)

end SpriteKernel.DevRaid.Initiate
