import SpriteKernel.Recov.System

/- The rounds of crash call-backs of one host. RECOV_CRASH_CALLBACKS is one bit: as long as no time-out schedules a
   round while another is outstanding, it is set exactly while there is one, and a server that goes on has none
   before it. -/
namespace SpriteKernel.Recov

open List
namespace Peer
open Transition
variable {p q : Peer} {f : HostFlags}

theorem flags_setFlags (h : p.host ≠ none) : (p.setFlags f).flags = f := by
  obtain ⟨x, hx⟩ := Option.ne_none_iff_exists'.1 h
  simp [flags, setFlags, hx]

theorem setFlags_unknown (h : p.host = none) : p.setFlags f = p := by
  cases p
  simp only at h
  simp [setFlags, h]

/-- Setting other bits leaves a bit alone, whether the host is known or not. -/
theorem flags_setFlags_of {β : Type} (bit : HostFlags → β) (h : bit f = bit p.flags) :
    bit (p.setFlags f).flags = bit p.flags := by
  by_cases hp : p.host = none
  · rw [setFlags_unknown hp]
  · rw [flags_setFlags hp, h]

@[simp] theorem host_setFlags : (p.setFlags f).host = none ↔ p.host = none := by simp [setFlags]

@[simp] theorem host_find (f : HostFlags) (bootID : UInt32) : (p.find f bootID).host ≠ none := by simp [find]

/-- What the crash call-backs go by. -/
structure CrashPart where
  rounds : List CrashRound
  detections : Nat
  served : Nat
  flag : Bool

def crashPart (p : Peer) : CrashPart := ⟨p.crashRounds, p.detections, p.served, p.flags.crashCallBacks⟩

theorem crashPart_setFlags (h : f.crashCallBacks = p.flags.crashCallBacks) : (p.setFlags f).crashPart = p.crashPart := by
  unfold crashPart
  rw [flags_setFlags_of HostFlags.crashCallBacks h]
  rfl

theorem crashPart_upDown (b : Bool) : (p.upDown b).crashPart = p.crashPart := by
  unfold upDown
  dsimp only
  split
  · split
    · exact crashPart_setFlags rfl
    · exact crashPart_setFlags rfl
  · rfl
  · split
    · rfl
    · exact crashPart_setFlags rfl
  · split
    · exact crashPart_setFlags rfl
    · exact crashPart_setFlags rfl
  · rfl

theorem crashPart_initiateReboot : p.initiateReboot.crashPart = p.crashPart := by
  unfold initiateReboot
  dsimp only
  split
  · refine Eq.trans ?_ (crashPart_setFlags (f := { p.flags with wantRecovery := false, rebootCallBacks := true }) rfl)
    rfl
  · rfl

theorem crashPart_markUp (a : AliveArgs) : (p.markUp a).crashPart = p.crashPart := by
  unfold markUp
  rw [crashPart_initiateReboot, crashPart_setFlags (by rfl), crashPart_upDown]

theorem crashPart_find (f : HostFlags) (h : f.crashCallBacks = false) (bootID : UInt32) :
    (p.find f bootID).crashPart = p.crashPart := by
  unfold crashPart find flags
  cases p.host with
  | none => simp [RecovHostState.init, HostFlags.unknown, h]
  | some x => rfl

/-- The bit speaks for the one round there can be, and the round is younger than what is served. -/
structure CrashSound (c : CrashPart) : Prop where
  flagged : c.flag = true ↔ c.rounds ≠ []
  alone : c.rounds.length ≤ 1
  fresh : ∀ r ∈ c.rounds, c.served < r.detection
  counted : c.served ≤ c.detections

variable {c : CrashPart}

section
variable (h : CrashSound c)
include h

theorem CrashSound.idle (hf : c.flag = false) : c.rounds = [] := by
  by_contra hne
  rw [h.flagged.2 hne] at hf
  cases hf

/-- A detection while a round is outstanding, or none of it, changes nothing for the rounds. -/
theorem CrashSound.detected : CrashSound { c with detections := c.detections + 1 } where
  flagged := h.flagged
  alone := h.alone
  fresh := h.fresh
  counted := Nat.le_succ_of_le h.counted

theorem CrashSound.scheduled (hf : c.flag = false) :
    CrashSound ⟨c.rounds ++ [⟨c.detections + 1, false⟩], c.detections + 1, c.served, true⟩ where
  flagged := by simp
  alone := by rw [h.idle hf]; exact Nat.le_refl 1
  fresh := by
    intro r hr
    rw [h.idle hf] at hr
    rw [mem_singleton.1 hr]
    exact Nat.lt_succ_of_le h.counted
  counted := Nat.le_succ_of_le h.counted

theorem CrashSound.served (hr : c.rounds = []) :
    CrashSound { c with served := c.detections } where
  flagged := h.flagged
  alone := h.alone
  fresh := by rw [hr]; nofun
  counted := Nat.le_refl _

end

section
variable (h : CrashSound p.crashPart)
include h

theorem CrashSound.returned {a : AliveArgs}
    (hr : a.asyncRecovery = false → p.crashRounds = []) : CrashSound (p.returned a).crashPart := by
  unfold Peer.returned
  split
  · exact h
  · next ha => exact h.served (hr (Bool.eq_false_iff.2 ha))

theorem CrashSound.awaitCrashRecovery (a : AliveArgs) : CrashSound (p.awaitCrashRecovery a).crashPart := by
  unfold Peer.awaitCrashRecovery
  split
  · exact h
  · next ha =>
    have hpart := crashPart_markUp (p := p) a
    refine CrashSound.returned (hpart ▸ h) fun hasync => ?_
    have hidle : p.flags.crashCallBacks = false := by
      rw [hasync] at ha
      simpa using ha
    rw [show (p.markUp a).crashRounds = p.crashRounds from congrArg CrashPart.rounds hpart]
    exact h.idle hidle

theorem CrashSound.crashUndetected (hp : p.host ≠ none) : CrashSound p.crashUndetected.crashPart := by
  unfold Peer.crashUndetected
  dsimp only
  split
  · rw [crashPart_setFlags (by rfl)]
    exact h.detected
  · next hf =>
    have hflag : (p.crashDetected.setFlags { p.flags with
        alive := false, dead := false, booting := true, crashCallBacks := true }).flags.crashCallBacks = true := by
      rw [flags_setFlags (by exact hp)]
    have := h.scheduled (Bool.eq_false_iff.2 hf)
    rw [← hflag] at this
    exact this

theorem CrashSound.heard (bootID : UInt32) (now : Nat) : CrashSound (p.heard bootID now).crashPart := by
  have hfind := crashPart_find (p := p) { HostFlags.unknown with alive := true } rfl bootID
  obtain ⟨q, hq⟩ : ∃ q, q = p.find { HostFlags.unknown with alive := true } bootID := ⟨_, rfl⟩
  have hstamp : ({ q with host := q.host.map fun h => { h with time := now, bootID := bootID } } : Peer).crashPart = q.crashPart := by
    unfold crashPart flags
    cases q.host <;> simp
  have hsound : CrashSound q.crashPart := by
    rw [hq, hfind]
    exact h
  unfold Peer.heard
  dsimp only
  rw [← hq]
  split
  · exact hstamp ▸ hsound
  · split
    · refine CrashSound.crashUndetected (hstamp ▸ hsound) ?_
      rw [hq]
      simp [find]
    · exact hstamp ▸ hsound

end

/-- While a round is outstanding no time-out marks a host dead, and no message ignored has its request served. -/
def Settled (p : Peer) (shuttingDown : Bool) : PeerStep → Prop
  | .hostDead noTimeouts => noTimeouts = false → p.flags.crashCallBacks = true → p.flags.dead = true
  | .hostAlive a _ =>
    a.asyncRecovery = false → (a.bootID = 0 ∨ shuttingDown = true) → p.flags.crashCallBacks = false
  | _ => True

theorem CrashSound.hostAlive (h : CrashSound p.crashPart) (a : AliveArgs) (now : Nat) (shut : Bool)
    (hc : p.Settled shut (.hostAlive a now)) : CrashSound (p.hostAlive a now shut).crashPart := by
  unfold Peer.hostAlive
  split
  · next hign =>
    refine h.returned fun hasync => h.idle (hc hasync ?_)
    simpa using hign
  · dsimp only
    split
    · next hfast =>
      have hheard := h.heard a.bootID now
      refine hheard.returned fun _ => hheard.idle ?_
      simp only [Bool.and_eq_true, Bool.not_eq_true', Bool.or_eq_false_iff] at hfast
      exact hfast.1.2.1
    · exact (h.heard a.bootID now).awaitCrashRecovery a

variable {i : Nat}

section
variable (h : CrashSound p.crashPart)
include h

theorem CrashSound.wake {shut : Bool} (hs : p.wake i shut = some q) : CrashSound q.crashPart := by
  unfold Peer.wake at hs
  split at hs
  · cases hs
    split
    · exact h
    · exact CrashSound.awaitCrashRecovery (p := { p with sleepers := p.sleepers.eraseIdx i }) h _
  · cases hs

theorem CrashSound.hostDead
    (hc : p.flags.crashCallBacks = true → p.flags.dead = true) : CrashSound p.hostDead.crashPart := by
  have hmark : ∀ x, p.host = some x → x.flags.dead = false → ∀ f : HostFlags, f.crashCallBacks = true →
      CrashSound ((p.crashDetected.setFlags f).callCrashCallBacks).crashPart := by
    intro x hx hdead f hf
    have hknown : p.flags = x.flags := by simp [flags, hx]
    have hflag : (p.crashDetected.setFlags f).flags.crashCallBacks = true := by
      rw [flags_setFlags (show p.crashDetected.host ≠ none by simp [crashDetected, hx]), hf]
    have hidle : p.flags.crashCallBacks = false := by
      by_contra hset
      have := hc (by simpa using hset)
      rw [hknown, hdead] at this
      cases this
    have := h.scheduled hidle
    rw [← hflag] at this
    exact this
  unfold Peer.hostDead
  split
  · have hfind := crashPart_find (p := p) { HostFlags.unknown with dead := true } rfl 0
    exact (hfind ▸ h).detected
  · next x hx =>
    dsimp only
    split
    · next hd => exact hmark x hx hd _ rfl
    · next hd => exact hmark x hx hd _ rfl
    · next hd => exact hmark x hx hd _ rfl
    · exact h

theorem CrashSound.crashBegin (hs : p.crashBegin i = some q) : CrashSound q.crashPart := by
  unfold Peer.crashBegin at hs
  split at hs
  · next n hi =>
    cases hs
    have hlen : (p.crashRounds.set i ⟨n, true⟩).length = p.crashRounds.length := length_set
    constructor
    · refine h.flagged.trans ?_
      show p.crashRounds ≠ [] ↔ p.crashRounds.set i ⟨n, true⟩ ≠ []
      simp [set_eq_nil_iff]
    · exact hlen ▸ h.alone
    · intro r hr
      obtain hr | rfl := mem_or_eq_of_mem_set hr
      · exact h.fresh r hr
      · exact h.fresh ⟨n, false⟩ (mem_of_getElem? hi)
    · exact h.counted
  · cases hs

theorem CrashSound.markRecoveryComplete (hs : p.markRecoveryComplete i = some q) : CrashSound q.crashPart := by
  unfold Peer.markRecoveryComplete at hs
  split at hs
  · next n hi =>
    cases hs
    have hnone : p.crashRounds.eraseIdx i = [] := by
      have hlt : i < p.crashRounds.length := (List.getElem?_eq_some_iff.1 hi).1
      have hone : p.crashRounds.length ≤ 1 := h.alone
      apply eq_nil_of_length_eq_zero
      rw [length_eraseIdx_of_lt hlt]
      omega
    have hflag : ∀ u : Peer, (u.setFlags { u.flags with crashCallBacks := false }).flags.crashCallBacks = false := by
      intro u
      by_cases hu : u.host = none
      · rw [setFlags_unknown hu]
        simp [flags, hu, HostFlags.unknown]
      · rw [flags_setFlags hu]
    constructor
    · show _ = true ↔ p.crashRounds.eraseIdx i ≠ []
      rw [hnone]
      simp [crashPart, hflag]
    · rw [hnone]
      exact Nat.zero_le 1
    · rw [hnone]
      nofun
    · exact h.counted
  · cases hs

end

theorem crashPart_getRebootList (hs : p.getRebootList i = some q) : q.crashPart = p.crashPart := by
  unfold getRebootList at hs
  split at hs
  · cases hs
    rfl
  · cases hs

/-- A round of reboot call-backs is over. -/
def roundEnded (p : Peer) (i : Nat) : Peer :=
  { p with
    rebootRounds := p.rebootRounds.eraseIdx i
    log := .ended p.flags.failure :: p.log
    host := p.host.map fun h => { h with numFailures := if p.flags.failure then h.numFailures + 1 else 0 } }

theorem flags_roundEnded (p : Peer) (i : Nat) : (p.roundEnded i).flags = p.flags := by
  unfold flags roundEnded
  cases p.host <;> rfl

theorem callBacksDone_spec (hs : p.callBacksDone i = some q) :
    (∃ l, p.rebootRounds[i]? = some (.running l)) ∧ q = (p.roundEnded i).setFlags
      (if p.flags.failure then { p.flags with rebootCallBacks := false, failure := false, wantRecovery := true }
        else { p.flags with rebootCallBacks := false }) := by
  unfold callBacksDone at hs
  split at hs
  · next l hi =>
    cases hs
    refine ⟨⟨l, hi⟩, ?_⟩
    unfold roundEnded
    split <;> rfl
  · cases hs

theorem crashPart_callBacksDone (hs : p.callBacksDone i = some q) : q.crashPart = p.crashPart := by
  rw [(callBacksDone_spec hs).2, crashPart_setFlags (by rw [flags_roundEnded]; split <;> rfl)]
  unfold crashPart
  rw [flags_roundEnded]
  rfl

theorem crashPart_setRebootList (l : List NotifyElement) : (p.setRebootList l).crashPart = p.crashPart := by
  unfold crashPart flags setRebootList
  cases p.host <;> rfl

theorem crashPart_rebootRegister (proc data : Nat) : (p.rebootRegister proc data).crashPart = p.crashPart := by
  exact Eq.trans (crashPart_setRebootList (p := p.find .unknown 0) _) (crashPart_find .unknown rfl 0)

theorem crashPart_rebootUnRegister (proc data : Nat) : (p.rebootUnRegister proc data).crashPart = p.crashPart :=
  Eq.trans (crashPart_setRebootList (p := p.find .unknown 0) _) (crashPart_find .unknown rfl 0)

theorem checkHost_peer (p : Peer) (now : Nat) :
    (p.checkHost now).2 = p ∨ (p.checkHost now).2 = p.setFlags { p.flags with pingingHost := false } := by
  exact (ite_eq_or_eq _ _ _).symm

theorem crashPart_checkHost (now : Nat) : (p.checkHost now).2.crashPart = p.crashPart := by
  obtain h | h := checkHost_peer p now
  · rw [h]
  · rw [h]
    exact crashPart_setFlags rfl

theorem CrashSound.step (h : CrashSound p.crashPart) {shut : Bool} {l : PeerStep} (hc : p.Settled shut l)
    (hs : p.step shut l = some q) : CrashSound q.crashPart := by
  cases l with
  | hostAlive a now =>
    cases hs
    exact h.hostAlive a now shut hc
  | wake i => exact h.wake hs
  | hostDead noTimeouts =>
    cases hs
    cases noTimeouts with
    | false => exact h.hostDead (hc rfl)
    | true => exact h
  | crashBegin i => exact h.crashBegin hs
  | markRecoveryComplete i => exact h.markRecoveryComplete hs
  | getRebootList i => exact crashPart_getRebootList hs ▸ h
  | callBacksDone i => exact crashPart_callBacksDone hs ▸ h
  | rebootRegister proc data =>
    cases hs
    rw [crashPart_rebootRegister]
    exact h
  | rebootUnRegister proc data =>
    cases hs
    rw [crashPart_rebootUnRegister]
    exact h
  | checkHost now =>
    cases hs
    rw [crashPart_checkHost]
    exact h

/-- RECOV_CRASH_CALLBACKS is set exactly while a round is scheduled or running, each for a crash since the last
    request. -/
def RoundsFollow (p : Peer) : Prop :=
  (p.flags.crashCallBacks = true ↔ p.crashRounds ≠ []) ∧ ∀ r ∈ p.crashRounds, p.served < r.detection

end Peer

namespace HostTable
open Transition
variable {P : RecovParams} {t : HostTable}

def Settled (_P : RecovParams) (s : HostTable) (l : RecovStep) : Prop :=
  ∀ h pl, s.event l = some (h, pl) → (s.peers h).Settled s.shuttingDown pl

theorem crash_rounds_of_run (hr : Run (step P) (Settled P) HostTable.init t) (h : Nat) : (t.peers h).RoundsFollow := by
  have hinv : ∀ g, Peer.CrashSound (t.peers g).crashPart := by
    refine hr.invariant (I := fun s => ∀ g, Peer.CrashSound (s.peers g).crashPart) ?_ ?_
    · intro s l u hi hc hs
      exact step_keeps (C := Peer.Settled) (I := fun p => Peer.CrashSound p.crashPart)
        (fun p shut pl q hp hc hq => hp.step hc hq) hi hc hs
    · exact fun g => ⟨by simp [HostTable.init, Peer.init, Peer.crashPart, Peer.flags, HostFlags.unknown],
        Nat.zero_le 1, nofun, Nat.le_refl 0⟩
  exact ⟨(hinv h).flagged, (hinv h).fresh⟩

theorem Settled.host {s : HostTable} {h : Nat} {l : PeerStep} (hl : (s.peers h).Settled s.shuttingDown l) :
    Settled P s (.host h l) := by
  intro g pl he
  cases he
  exact hl

/-- A request and an RPC reply of host 1, by boot time stamp. -/
def request (bootID : UInt32) : RecovStep := .host 1 (.hostAlive ⟨bootID, false, false, false, false⟩ 0)

def reply (bootID : UInt32) : RecovStep := .host 1 (.hostAlive ⟨bootID, true, false, false, false⟩ 0)

/-- A reboot that is found out by a request: the request waits for the round, and is let through. -/
theorem crash_rounds_of_reboot : ∃ t, Run (step ⟨0, 9⟩) (Settled ⟨0, 9⟩) HostTable.init t ∧
    (t.peers 1).detections = 1 ∧ (t.peers 1).served = 1 ∧ (t.peers 1).RoundsFollow := by
  have h₀ : Run (step ⟨0, 9⟩) (Settled ⟨0, 9⟩) HostTable.init HostTable.init := Run.refl _ _
  have h₁ := h₀.snoc (l := request 1) (.host nofun) rfl
  have h₂ := h₁.snoc (l := request 2) (.host nofun) rfl
  have h₃ := h₂.snoc (l := .host 1 (.crashBegin 0)) (.host (by trivial)) rfl
  have h₄ := h₃.snoc (l := .host 1 (.markRecoveryComplete 0)) (.host (by trivial)) rfl
  have h₅ := h₄.snoc (l := .host 1 (.wake 0)) (.host (by trivial)) rfl
  exact ⟨_, h₅, rfl, rfl, crash_rounds_of_run h₅ 1⟩

/-- A time-out during a round schedules another; a request is let through before that has begun. -/
theorem second_round_outlives_flag : ∃ t, Run (step ⟨0, 9⟩) (fun _ _ => True) HostTable.init t ∧
    (t.peers 1).served = (t.peers 1).detections ∧ (t.peers 1).crashRounds = [⟨2, false⟩] ∧
      ¬ (t.peers 1).RoundsFollow := by
  refine ⟨_, run_of_exec (A := fun _ => True) [request 1, reply 2, .host 1 (.hostDead false), .host 1 (.crashBegin 0),
    .host 1 (.markRecoveryComplete 0), request 2] _ _ (fun _ _ => trivial) rfl, rfl, rfl, fun h => ?_⟩
  exact absurd (h.1.2 (by decide)) (by decide)

end HostTable
end SpriteKernel.Recov
