import SpriteKernel.Fsio.Pipe

/- The end of a pipe's life. `PipeCloseInt` takes counts away and sets at most one of the flags that say an end is
   gone; the pipe is freed when both are set. So it is never freed where a killed client takes the last writer and
   the last reader. -/
namespace SpriteKernel.Fsio.Pipe

open SpriteKernel SpriteKernel.Fsconsist Transition Tally UseCounts

/-- The clients use `use` together, each what streams can have, and none executes. -/
structure Shares (f : HostId → UseCounts) (use : UseCounts) : Prop where
  sums : Sums f use
  feasible : ∀ k, (f k).Feasible
  noExec : ∀ k, (f k).exec = 0

namespace Shares

variable {f : HostId → UseCounts} {use : UseCounts}

theorem congr {g : HostId → UseCounts} (h : Shares f use) (hg : ∀ k, g k = f k) : Shares g use := by
  rw [funext hg]
  exact h

theorem use_feasible (h : Shares f use) : use.Feasible :=
  h.sums.induction Feasible feasible_zero (fun _ _ => .add) h.feasible

theorem others_feasible (h : Shares f use) (k : HostId) : (use - f k).Feasible := by
  refine (h.sums.erase k).induction Feasible feasible_zero (fun _ _ => .add) (fun j => ?_)
  by_cases hj : j = k
  · rw [hj, Function.update_self]
    exact feasible_zero
  · rw [Function.update_of_ne hj]
    exact h.feasible j

variable {k : HostId} {gone : UseCounts}

section
variable (h : Shares f use)
include h

theorem rest_feasible (hk : (f k - gone).Feasible) : (use - gone).Feasible := by
  have hsum := (h.others_feasible k).add hk
  rwa [sub_add_sub_cancel] at hsum

theorem exec_of_has {flags : UseFlags}
    (hk : (f k - ofFlags flags).Feasible) : (ofFlags flags).exec = 0 := by
  have hexec := hk.2.1
  have hof := (feasible_ofFlags flags).2.1
  rw [sub_exec, h.noExec k] at hexec
  omega

theorem take (hk : (f k - gone).Feasible) (he : gone.exec = 0) :
    Shares (fun j => f j - if j = k then gone else 0) (use - gone) := by
  refine ⟨?_, fun j => ?_, fun j => ?_⟩
  · have hsum := h.sums.change k (g := fun j => f j - if j = k then gone else 0)
      (fun j hj => by rw [if_neg hj, sub_zero])
    simp only [if_true] at hsum
    rwa [sub_sub_cancel_left, ← sub_eq_add_neg] at hsum
  · by_cases hj : j = k
    · rw [if_pos hj, hj]
      exact hk
    · rw [if_neg hj, sub_zero]
      exact h.feasible j
  · by_cases hj : j = k
    · rw [if_pos hj, sub_exec, h.noExec j, he]
      rfl
    · rw [if_neg hj, sub_zero]
      exact h.noExec j

theorem give (k : HostId) {gain : UseCounts} (hg : gain.Feasible) (he : gain.exec = 0) :
    Shares (fun j => f j + if j = k then gain else 0) (use + gain) := by
  refine ⟨?_, fun j => ?_, fun j => ?_⟩
  · have hsum := h.sums.change k (g := fun j => f j + if j = k then gain else 0)
      (fun j hj => by rw [if_neg hj, add_zero])
    simp only [if_true] at hsum
    rwa [add_sub_cancel_left] at hsum
  · by_cases hj : j = k
    · rw [if_pos hj]
      exact (h.feasible j).add hg
    · rw [if_neg hj, add_zero]
      exact h.feasible j
  · by_cases hj : j = k
    · rw [if_pos hj, add_exec, h.noExec j, he]
      rfl
    · rw [if_neg hj, add_zero]
      exact h.noExec j

end

end Shares

/-- Each flag says that an end is gone, and a pipe without ends is removed. -/
structure Ends (p : State) : Prop where
  wf : p.handle.clientList.Wf p.handle.fresh
  shares : Shares p.handle.clientList.useOf p.handle.use
  writerGone : p.handle.writerGone = true ↔ p.handle.use.write = 0
  readerGone : p.handle.readerGone = true ↔ p.handle.use.ref = p.handle.use.write
  removed : p.removed = true ↔ p.handle.use.ref = 0
  running : p.panic = none

/-! ## Closing -/

/-- The two ends do not go at once: the last writer's or the last reader's had gone before. -/
def OneEnd (use gone : UseCounts) : Prop :=
  gone.write = use.write → gone.ref = use.ref → use.write = 0 ∨ use.ref = use.write

instance (use gone : UseCounts) : Decidable (OneEnd use gone) := inferInstanceAs (Decidable (_ → _ → _))

/-- What `PipeCloseInt` leaves, where the counts stay above zero. -/
structure Closed (gone : UseCounts) (p p' : State) : Prop where
  use : p'.handle.use = p.handle.use - gone
  clientList : p'.handle.clientList = p.handle.clientList
  fresh : p'.handle.fresh = p.handle.fresh
  writerGone : p'.handle.writerGone = true ↔
    p.handle.writerGone = true ∨ gone.write ≠ 0 ∧ p'.handle.use.write = 0
  readerGone : p'.handle.readerGone = true ↔
    p.handle.readerGone = true ∨ ¬(gone.write ≠ 0 ∧ p'.handle.use.write = 0) ∧ gone.ref ≠ 0 ∧
      p'.handle.use.ref = p'.handle.use.write
  removed : p'.removed = true ↔ p'.handle.writerGone = true ∧ p'.handle.readerGone = true
  panic : p'.panic = p.panic

variable {p : State}

theorem closed_pipeCloseInt {gone : UseCounts} (hexec : gone.exec = 0)
    (hleft : (p.handle.use - gone).Feasible) : Closed gone p (pipeCloseInt gone.ref gone.write p) := by
  have huse : p.handle.use - ⟨gone.ref, gone.write, 0⟩ = p.handle.use - gone := by
    rw [show (⟨gone.ref, gone.write, 0⟩ : UseCounts) = gone from UseCounts.ext rfl rfl hexec.symm]
  unfold Feasible at hleft
  simp only [pipeCloseInt, huse]
  rw [if_neg (by omega)]
  by_cases hwriter : gone.write ≠ 0 ∧ (p.handle.use - gone).write = 0
  · rw [if_pos hwriter]
    refine ⟨rfl, rfl, rfl, ?_, ?_, ?_, rfl⟩ <;> simp [hwriter]
  · rw [if_neg hwriter]
    by_cases hreader : gone.ref ≠ 0 ∧ (p.handle.use - gone).ref = (p.handle.use - gone).write
    · rw [if_pos hreader]
      refine ⟨rfl, rfl, rfl, ?_, ?_, ?_, rfl⟩
      · exact (or_iff_left hwriter).symm
      · exact (iff_of_true rfl (.inr ⟨hwriter, hreader⟩))
      · simp
    · rw [if_neg hreader]
      refine ⟨rfl, rfl, rfl, ?_, ?_, ?_, rfl⟩
      · exact (or_iff_left hwriter).symm
      · exact (or_iff_left (fun h => hreader h.2)).symm
      · simp

variable {p' : State} {flags : UseFlags} {clientID : HostId}

theorem Ends.closed {p₁ : State} (he : Ends p) {gone : UseCounts} (hc : Closed gone p₁ p')
    (huse : p₁.handle.use = p.handle.use) (hw : p₁.handle.writerGone = p.handle.writerGone)
    (hr : p₁.handle.readerGone = p.handle.readerGone) (hp : p₁.panic = none) (hgone : gone.Feasible)
    (hleft : (p.handle.use - gone).Feasible) (hone : OneEnd p.handle.use gone)
    (hwf : p'.handle.clientList.Wf p'.handle.fresh) (hshares : Shares p'.handle.clientList.useOf p'.handle.use) :
    Ends p' := by
  have huse' := hc.use
  have hwriter := he.writerGone
  have hreader := he.readerGone
  unfold Feasible at hgone hleft
  unfold OneEnd at hone
  simp only [sub_ref, sub_write, sub_exec] at hleft
  have hwriter' : p'.handle.writerGone = true ↔ p'.handle.use.write = 0 := by
    rw [hc.writerGone, hw, hwriter, huse', huse, sub_write]
    omega
  have hreader' : p'.handle.readerGone = true ↔ p'.handle.use.ref = p'.handle.use.write := by
    rw [hc.readerGone, hr, hreader, huse', huse, sub_write, sub_ref]
    omega
  refine ⟨hwf, hshares, hwriter', hreader', ?_, hc.panic.trans hp⟩
  rw [hc.removed, hwriter', hreader', huse', huse, sub_write, sub_ref]
  omega

/-! ## The steps -/

/-- A closed stream is an end its client has open, or its client is not known. The sides of a migration agree with
    the counts. A killed client takes one end only. -/
def Orderly (p : State) : Label → Prop
  | .close clientID flags =>
    p.handle.clientList.client clientID = none ∨ p.handle.clientList.Has clientID flags
  | .migrate src dst flags closeSrcClient =>
    (flags.newStream = true ∨ closeSrcClient = true → p.handle.clientList.Has src flags) ∧
      (flags.newStream = false → closeSrcClient = true → src ≠ dst ∧ p.handle.clientList.Has dst flags)
  | .clientKill clientID => OneEnd p.handle.use (p.handle.clientList.useOf clientID)
  | _ => True

instance (p : State) : (l : Label) → Decidable (Orderly p l)
  | .read _ | .write _ _ => inferInstanceAs (Decidable True)
  | .close _ _ => inferInstanceAs (Decidable (_ ∨ _))
  | .migrate _ _ _ _ => inferInstanceAs (Decidable (_ ∧ _))
  | .clientKill _ => inferInstanceAs (Decidable (OneEnd _ _))

theorem oneEnd_ofFlags (use : UseCounts) (flags : UseFlags) : OneEnd use (ofFlags flags) := by
  intro hw hr
  unfold ofFlags at hw hr
  simp only at hw hr
  split at hw <;> omega

section
variable (he : Ends p)
include he

theorem ends_pipeClose (ho : Orderly p (.close clientID flags)) : Ends (pipeClose clientID flags p) := by
  rcases ho with hnone | hhas
  · have hres : p.handle.clientList.ioClientClose clientID flags false = .ok ⟨false, false, p.handle.clientList⟩ := by
      unfold ClientList.ioClientClose
      rw [hnone]
    unfold pipeClose
    rw [hres]
    exact he
  · obtain ⟨r, hr, hfound, hw, huse⟩ := hhas.ioClientClose he.wf false
    have hexec := he.shares.exec_of_has hhas
    have hleft := he.shares.rest_feasible hhas
    let p₁ : State := { p with handle := { p.handle with clientList := r.list } }
    have hc : Closed (ofFlags flags) p₁ _ := closed_pipeCloseInt hexec hleft
    unfold pipeClose
    simp only [hr, hfound, if_true]
    change Ends (pipeCloseInt (ofFlags flags).ref (ofFlags flags).write p₁)
    refine he.closed hc rfl rfl rfl he.running (feasible_ofFlags flags) hleft
      (oneEnd_ofFlags p.handle.use flags) ?_ ?_
    · rw [hc.clientList, hc.fresh]
      exact hw
    · rw [hc.clientList, hc.use]
      exact (he.shares.take hhas hexec).congr huse

theorem ends_pipeClientKill (ho : Orderly p (.clientKill clientID)) : Ends (pipeClientKill clientID p) := by
  obtain ⟨hgone, huse⟩ := ClientList.useOf_ioClientKill he.wf clientID
  have hw := he.wf.ioClientKill clientID
  have hrest : (p.handle.clientList.useOf clientID - p.handle.clientList.useOf clientID).Feasible := by
    rw [sub_self]
    exact feasible_zero
  have hleft := he.shares.others_feasible clientID
  let p₁ : State := { p with handle := { p.handle with clientList := (p.handle.clientList.ioClientKill clientID).2 } }
  have hc : Closed (p.handle.clientList.useOf clientID) p₁ _ :=
    closed_pipeCloseInt (he.shares.noExec clientID) hleft
  unfold pipeClientKill
  simp only [hgone]
  refine he.closed hc rfl rfl rfl he.running (he.shares.feasible clientID) hleft ho ?_ ?_
  · rw [hc.clientList, hc.fresh]
    exact hw
  · rw [hc.clientList, hc.use]
    refine (he.shares.take hrest (he.shares.noExec clientID)).congr (fun k => ?_)
    rw [huse]
    by_cases hk : k = clientID
    · rw [if_pos hk, if_pos hk, hk, sub_self]
    · rw [if_neg hk, if_neg hk, sub_zero]

theorem Ends.recount {use : UseCounts} {l : ClientList} {fresh : Nat} (hw : l.Wf fresh)
    (hs : Shares l.useOf use) (hwrite : use.write = 0 ↔ p.handle.use.write = 0)
    (hread : use.ref = use.write ↔ p.handle.use.ref = p.handle.use.write) :
    Ends { p with handle := { p.handle with use := use, clientList := l, fresh := fresh } } := by
  refine ⟨hw, hs, he.writerGone.trans hwrite.symm, he.readerGone.trans hread.symm, ?_, he.running⟩
  have hremoved := he.removed
  have hold := he.shares.use_feasible
  have hnew := hs.use_feasible
  unfold Feasible at hold hnew
  change p.removed = true ↔ use.ref = 0
  rw [hremoved]
  omega

theorem ends_pipeMigrate {src dst : HostId} {closeSrcClient : Bool}
    (ho : Orderly p (.migrate src dst flags closeSrcClient)) :
    Ends (pipeMigrate src dst flags closeSrcClient p) := by
  obtain ⟨hsrc, hdst⟩ := ho
  obtain ⟨l, hl, hw, huse⟩ := @migrateClient_spec _ src dst flags _ _ he.wf (fun hclose => hsrc (.inr hclose))
  have hgain := feasible_ofFlags flags
  simp only [pipeMigrate, hl]
  rw [migrateUseCounts_eq]
  cases hnew : flags.newStream with
  | true =>
    have hhas := hsrc (.inl hnew)
    have hexec := he.shares.exec_of_has hhas
    cases hclose : closeSrcClient with
    | true =>
      simp only [if_true, add_sub_cancel_right]
      refine he.recount hw ?_ Iff.rfl Iff.rfl
      have hmoved := (he.shares.take hhas hexec).give dst hgain hexec
      rw [sub_add_cancel] at hmoved
      refine hmoved.congr (fun k => ?_)
      rw [huse, hnew, hclose]
      simp only [and_true]
      abel
    | false =>
      simp only [if_true, Bool.false_eq_true, if_false, sub_zero]
      have hrest := he.shares.rest_feasible hhas
      unfold Feasible at hrest hgain
      simp only [sub_ref, sub_write] at hrest
      refine he.recount hw ?_ ?_ ?_
      · refine (he.shares.give dst hgain hexec).congr (fun k => ?_)
        rw [huse, hnew, hclose]
        simp only [and_true, Bool.false_eq_true, and_false, if_false, sub_zero]
      · rw [add_write]
        omega
      · rw [add_write, add_ref]
        omega
  | false =>
    cases hclose : closeSrcClient with
    | true =>
      obtain ⟨hne, hother⟩ := hdst hnew hclose
      have hhas := hsrc (.inr hclose)
      have hexec := he.shares.exec_of_has hhas
      have htaken := he.shares.take hhas hexec
      -- the destination has another such stream, so neither end goes
      have hother' : ((fun j => p.handle.clientList.useOf j - if j = src then ofFlags flags else 0) dst -
          ofFlags flags).Feasible := by
        simp only [if_neg hne.symm, sub_zero]
        exact hother
      have hrest := htaken.rest_feasible hother'
      unfold Feasible at hrest hgain
      simp only [sub_ref, sub_write] at hrest
      simp only [Bool.false_eq_true, if_false, add_zero, if_true]
      refine he.recount hw ?_ ?_ ?_
      · refine htaken.congr (fun k => ?_)
        rw [huse, hnew, hclose]
        simp only [and_true, Bool.false_eq_true, and_false, if_false, add_zero]
      · rw [sub_write]
        omega
      · rw [sub_write, sub_ref]
        omega
    | false =>
      simp only [Bool.false_eq_true, if_false, add_zero, sub_zero]
      refine he.recount hw ?_ Iff.rfl Iff.rfl
      refine he.shares.congr (fun k => ?_)
      rw [huse, hnew, hclose]
      simp only [Bool.false_eq_true, and_false, if_false, add_zero, sub_zero]

theorem Ends.transfer (huse : p'.handle.use = p.handle.use)
    (hlist : p'.handle.clientList = p.handle.clientList) (hfresh : p'.handle.fresh = p.handle.fresh)
    (hw : p'.handle.writerGone = p.handle.writerGone) (hr : p'.handle.readerGone = p.handle.readerGone)
    (hrem : p'.removed = p.removed) (hp : p'.panic = p.panic) : Ends p' := by
  obtain ⟨hwf, hs, hwriter, hreader, hremoved, hrun⟩ := he
  refine ⟨?_, ?_, ?_, ?_, ?_, hp.trans hrun⟩
  · rwa [hlist, hfresh]
  · rwa [hlist, huse]
  · rwa [hw, huse]
  · rwa [hr, huse]
  · rwa [hrem, huse]

theorem ends_step {l : Label} (ho : Orderly p l) (hs : step p l = some p') : Ends p' := by
  unfold step at hs
  split at hs
  · simp at hs
  cases l with
  | read length =>
    cases hs
    unfold pipeRead
    split
    · exact he.transfer rfl rfl rfl rfl rfl rfl rfl
    · simp only
      split <;> exact he.transfer rfl rfl rfl rfl rfl rfl rfl
  | write buffer length =>
    cases hs
    unfold pipeWrite
    split
    · exact he.transfer rfl rfl rfl rfl rfl rfl rfl
    · split <;> exact he.transfer rfl rfl rfl rfl rfl rfl rfl
  | close clientID flags =>
    cases hs
    exact ends_pipeClose he ho
  | migrate src dst flags closeSrcClient =>
    cases hs
    exact ends_pipeMigrate he ho
  | clientKill clientID =>
    cases hs
    exact ends_pipeClientKill he ho

end

/-! ## Runs -/

theorem ends_created (server : HostId) (garbage : Nat → UInt8) : Ends (created server garbage) := by
  have hread : (ClientList.ioClientOpen 0 server { read := true } false []).Wf 1 :=
    (ClientList.Wf.nil 0).ioClientOpen server _ false
  have hf : Feasible (ofFlags { read := true }) := feasible_ofFlags _
  have hg : Feasible (ofFlags { write := true }) := feasible_ofFlags _
  have hempty : Shares (fun _ => 0) 0 := ⟨sums_zero, fun _ => feasible_zero, fun _ => rfl⟩
  have hone : ¬(1 : Int) = 0 := by decide
  have htwo : ¬(2 : Int) = 1 := by decide
  have hsome : ¬(2 : Int) = 0 := by decide
  refine ⟨hread.ioClientOpen server _ false, ?_, iff_of_false Bool.false_ne_true hone,
    iff_of_false Bool.false_ne_true htwo, iff_of_false Bool.false_ne_true hsome, rfl⟩
  refine ((hempty.give server hf rfl).give server hg rfl).congr (fun k => ?_)
  change (ClientList.ioClientOpen 1 server { write := true } false _).useOf k = _
  rw [ClientList.useOf_ioClientOpen, ClientList.useOf_ioClientOpen]
  rfl

/-- The flags say which ends are gone, and the pipe is removed when both are. -/
theorem ends_of_run {server : HostId} {garbage : Nat → UInt8} {p : State}
    (h : Run step Orderly (created server garbage) p) :
    (p.handle.writerGone = true ↔ p.handle.use.write = 0) ∧
      (p.handle.readerGone = true ↔ p.handle.use.ref = p.handle.use.write) ∧
      (p.removed = true ↔ p.handle.use.ref = 0) ∧ p.panic = none := by
  have he : Ends p := h.invariant (fun _ _ _ hi ho hs => ends_step hi ho hs) (ends_created server garbage)
  exact ⟨he.writerGone, he.readerGone, he.removed, he.running⟩

/-- The reading end moves to another host, which goes down, and then the writer closes. -/
theorem ends_after_kill : ∃ p, Run step Orderly (created 7 (fun _ => 0)) p ∧ p.removed = true ∧
    (p.removed = true ↔ p.handle.use.ref = 0) := by
  obtain ⟨p, hp⟩ : ∃ p, exec (guarded Orderly step) (created 7 (fun _ => 0))
      [.migrate 7 9 { read := true, newStream := true } true, .clientKill 9, .close 7 { write := true }] = some p :=
    ⟨_, rfl⟩
  have hrun := run_of_guarded _ _ _ hp
  refine ⟨p, hrun, ?_, (ends_of_run hrun).2.2.1⟩
  cases hp
  rfl

/-- A host with both ends goes down: nobody uses the pipe, which stays, its readers' flag clear. -/
theorem killed_pipe_stays : ∃ p, Run step (fun _ _ => True) (created 7 (fun _ => 0)) p ∧
    p.handle.use.ref = 0 ∧ p.handle.use.write = 0 ∧ p.handle.readerGone = false ∧ p.removed = false := by
  refine ⟨_, run_of_exec [.clientKill 7] _ _ (fun _ _ => trivial) rfl, ?_, ?_, ?_, ?_⟩
  · rfl
  · rfl
  · rfl
  · rfl

end SpriteKernel.Fsio.Pipe
