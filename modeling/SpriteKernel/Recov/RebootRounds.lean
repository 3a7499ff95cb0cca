import SpriteKernel.Recov.CrashRounds

/- The rounds of reboot call-backs of one host. A host up again after a crash wants recovery, and the want is dropped
   only to schedule a round when none is outstanding; so a round that ends well began after the last crash or leaves
   the want behind. -/
namespace SpriteKernel.Recov

open List

/-- Since the last crash a whole round of call-backs was made, and ended without a failure. -/
def Recovered (log : List RecovEvent) : Prop :=
  ∃ later earlier, log = later ++ .ended false :: .began :: earlier ∧ .crash ∉ later

theorem Recovered.cons {log : List RecovEvent} (h : Recovered log) {e : RecovEvent} (he : e ≠ .crash) :
    Recovered (e :: log) := by
  obtain ⟨later, earlier, rfl, hno⟩ := h
  refine ⟨e :: later, earlier, rfl, fun hin => ?_⟩
  cases hin with
  | head => exact he rfl
  | tail _ hin => exact hno hin

namespace Peer

/-- What the reboot call-backs go by. -/
structure RebootPart where
  alive : Bool
  booting : Bool
  dead : Bool
  want : Bool
  flag : Bool
  rounds : List RebootRound
  log : List RecovEvent
  unexpected : Bool

/-- A round is not begun yet, or has begun after the last crash. -/
def RebootPart.Underway (c : RebootPart) : Prop :=
  c.rounds ≠ [] ∧ ∀ r ∈ c.rounds, r = .pending ∨ c.log.head? = some .began

structure RebootSound (c : RebootPart) : Prop where
  one : (c.alive && c.booting) = false ∧ (c.alive && c.dead) = false ∧ (c.booting && c.dead) = false
  expected : c.unexpected = false
  flagged : c.flag = true ↔ c.rounds ≠ []
  alone : c.rounds.length ≤ 1
  marked : .crash ∈ c.log → (c.alive || c.booting || c.dead) = true
  caught : c.alive = true → .crash ∈ c.log → c.want = true ∨ Recovered c.log ∨ c.Underway

namespace RebootSound
variable {c : RebootPart}

section
variable (h : RebootSound c)
include h

theorem up : RebootSound { c with alive := true, booting := false, dead := false, want := true } where
  one := ⟨rfl, rfl, rfl⟩
  expected := h.expected
  flagged := h.flagged
  alone := h.alone
  marked _ := rfl
  caught _ _ := .inl rfl

/-- The first message: there was no crash to catch up on. -/
theorem firstUp (hno : (c.alive || c.booting || c.dead) = false) :
    RebootSound { c with alive := true, booting := false, dead := false } where
  one := ⟨rfl, rfl, rfl⟩
  expected := h.expected
  flagged := h.flagged
  alone := h.alone
  marked _ := rfl
  caught _ hin := by
    rw [h.marked hin] at hno
    cases hno

theorem notUp {b d : Bool} (hbd : (b && d) = false) (hor : (b || d) = true) :
    RebootSound { c with alive := false, booting := b, dead := d } where
  one := ⟨rfl, rfl, hbd⟩
  expected := h.expected
  flagged := h.flagged
  alone := h.alone
  marked _ := by
    rw [Bool.false_or]
    exact hor
  caught := nofun

theorem crashed (hdown : c.alive = false) (hmark : (c.booting || c.dead) = true) :
    RebootSound { c with log := .crash :: c.log } where
  one := h.one
  expected := h.expected
  flagged := h.flagged
  alone := h.alone
  marked _ := by
    rw [hdown, Bool.false_or]
    exact hmark
  caught ha := by
    rw [hdown] at ha
    cases ha

theorem idle (hf : c.flag = false) : c.rounds = [] := by
  by_contra hne
  rw [h.flagged.2 hne] at hf
  cases hf

theorem initiated (hf : c.flag = false) :
    RebootSound { c with want := false, flag := true, rounds := c.rounds ++ [.pending] } where
  one := h.one
  expected := h.expected
  flagged := by simp
  alone := by
    rw [h.idle hf]
    exact Nat.le_refl 1
  marked := h.marked
  caught _ _ := by
    refine .inr (.inr ⟨by simp, fun r hr => ?_⟩)
    rw [h.idle hf] at hr
    exact .inl (mem_singleton.1 hr)

theorem began (i : Nat) (r : RebootRound) (hi : i < c.rounds.length) :
    RebootSound { c with rounds := c.rounds.set i r, log := .began :: c.log } where
  one := h.one
  expected := h.expected
  flagged := by
    refine h.flagged.trans ?_
    simp [set_eq_nil_iff]
  alone := by
    rw [length_set]
    exact h.alone
  marked hin := h.marked (by simpa using hin)
  caught _ _ := by
    refine .inr (.inr ⟨?_, fun _ _ => .inr rfl⟩)
    apply ne_nil_of_length_pos
    rw [length_set]
    exact Nat.lt_of_le_of_lt (Nat.zero_le i) hi

/-- The round ends. A crash after its beginning has left the host down, or wanted. -/
theorem ended {i : Nat} {l : List (Nat × Nat)} (hi : c.rounds[i]? = some (.running l)) (failed : Bool) :
    RebootSound { c with
      want := failed || c.want, flag := false, rounds := c.rounds.eraseIdx i, log := .ended failed :: c.log } := by
  have hnone : c.rounds.eraseIdx i = [] := by
    have hlt : i < c.rounds.length := (List.getElem?_eq_some_iff.1 hi).1
    have hone := h.alone
    apply eq_nil_of_length_eq_zero
    rw [length_eraseIdx_of_lt hlt]
    omega
  refine ⟨h.one, h.expected, by simp [hnone], by simp [hnone], fun hin => h.marked (by simpa using hin), ?_⟩
  intro ha hin
  replace hin : RecovEvent.crash ∈ c.log := by simpa using hin
  cases failed with
  | true => exact .inl rfl
  | false =>
    obtain hw | hr | ⟨-, hu⟩ := h.caught ha hin
    · exact .inl (by rw [hw]; rfl)
    · exact .inr (.inl (hr.cons nofun))
    · obtain hp | hb := hu _ (mem_of_getElem? hi)
      · cases hp
      · obtain ⟨earlier, he⟩ := List.head?_eq_some_iff.1 hb
        refine .inr (.inl ⟨[], earlier, ?_, nofun⟩)
        rw [he]
        rfl

end

end RebootSound

open Transition
variable {p q : Peer} {f : HostFlags}

def rebootPart (p : Peer) : RebootPart :=
  ⟨p.flags.alive, p.flags.booting, p.flags.dead, p.flags.wantRecovery, p.flags.rebootCallBacks, p.rebootRounds, p.log, p.unexpected⟩

theorem rebootPart_setFlags (hp : p.host ≠ none) : (p.setFlags f).rebootPart =
    ⟨f.alive, f.booting, f.dead, f.wantRecovery, f.rebootCallBacks, p.rebootRounds, p.log, p.unexpected⟩ := by
  unfold rebootPart
  rw [flags_setFlags hp]
  rfl

theorem rebootPart_setFlags_of (ha : f.alive = p.flags.alive) (hb : f.booting = p.flags.booting) (hd : f.dead = p.flags.dead)
    (hw : f.wantRecovery = p.flags.wantRecovery) (hr : f.rebootCallBacks = p.flags.rebootCallBacks) :
    (p.setFlags f).rebootPart = p.rebootPart := by
  by_cases hp : p.host = none
  · rw [setFlags_unknown hp]
  · rw [rebootPart_setFlags hp, ha, hb, hd, hw, hr]
    rfl

theorem rebootPart_find (bootID : UInt32) (hf : p.host = none → f = .unknown) :
    (p.find f bootID).rebootPart = p.rebootPart := by
  unfold rebootPart find flags
  cases hp : p.host with
  | none => simp [RecovHostState.init, hf hp]
  | some x => rfl

theorem RebootSound.upDown (h : RebootSound p.rebootPart) (hp : p.host ≠ none) (b : Bool) :
    RebootSound (p.upDown b).rebootPart := by
  unfold Peer.upDown
  dsimp only
  split
  · next ha hb hd =>
    split
    · rw [rebootPart_setFlags hp]
      rw [ha, hd]
      exact h.notUp rfl rfl
    · rw [rebootPart_setFlags hp]
      have hno : (p.flags.alive || p.flags.booting || p.flags.dead) = false := by rw [ha, hb, hd]; rfl
      have := h.firstUp hno
      rw [hb, hd]
      exact this
  · exact h
  · next ha hb hd =>
    split
    · exact h
    · rw [rebootPart_setFlags hp, hd]
      exact h.up
  · next ha hb hd =>
    split
    · rw [rebootPart_setFlags hp, ha]
      exact h.notUp rfl rfl
    · rw [rebootPart_setFlags hp, hb]
      exact h.up
  · next hnone hup hboot hdead =>
    obtain ⟨h₁, h₂, h₃⟩ := h.one
    simp only [rebootPart] at h₁ h₂ h₃
    revert h₁ h₂ h₃ hnone hup hboot hdead
    cases p.flags.alive <;> cases p.flags.booting <;> cases p.flags.dead <;> simp

theorem RebootSound.initiateReboot (h : RebootSound p.rebootPart) (hp : p.host ≠ none) :
    RebootSound p.initiateReboot.rebootPart := by
  unfold Peer.initiateReboot
  dsimp only
  split
  · next hw =>
    simp only [Bool.and_eq_true, Bool.not_eq_true'] at hw
    have hpart : ((p.setFlags { p.flags with wantRecovery := false, rebootCallBacks := true }).callRebootCallBacks).rebootPart =
        { p.rebootPart with want := false, flag := true, rounds := p.rebootRounds ++ [.pending] } := by
      have hset := rebootPart_setFlags (f := { p.flags with wantRecovery := false, rebootCallBacks := true }) hp
      exact congrArg (fun c : RebootPart => { c with rounds := c.rounds ++ [RebootRound.pending] }) hset
    rw [hpart]
    exact h.initiated hw.2
  · exact h

theorem host_upDown (hp : p.host ≠ none) (b : Bool) : (p.upDown b).host ≠ none := by
  unfold upDown
  dsimp only
  split
  · split <;> simpa using hp
  · exact hp
  · split
    · exact hp
    · simpa using hp
  · split <;> simpa using hp
  · exact hp

theorem RebootSound.markUp (h : RebootSound p.rebootPart) (hp : p.host ≠ none) (a : AliveArgs) :
    RebootSound (p.markUp a).rebootPart := by
  refine RebootSound.initiateReboot ?_ (by simpa using host_upDown hp a.rpcNotActive)
  rw [rebootPart_setFlags_of (by rfl) (by rfl) (by rfl) (by rfl) (by rfl)]
  exact h.upDown hp a.rpcNotActive

theorem rebootPart_returned (a : AliveArgs) : (p.returned a).rebootPart = p.rebootPart := by
  unfold returned
  split <;> rfl

section
variable (h : RebootSound p.rebootPart)
include h

theorem RebootSound.awaitCrashRecovery (hp : p.host ≠ none) (a : AliveArgs) :
    RebootSound (p.awaitCrashRecovery a).rebootPart := by
  unfold Peer.awaitCrashRecovery
  split
  · exact h
  · rw [rebootPart_returned]
    exact h.markUp hp a

theorem RebootSound.crashUndetected (hp : p.host ≠ none) : RebootSound p.crashUndetected.rebootPart := by
  have hdet : p.crashDetected.host ≠ none := hp
  have hbase := (h.notUp (b := true) (d := false) rfl rfl).crashed rfl rfl
  unfold Peer.crashUndetected
  dsimp only
  split
  · rw [rebootPart_setFlags hdet]
    exact hbase
  · show RebootSound (p.crashDetected.setFlags _).rebootPart
    rw [rebootPart_setFlags hdet]
    exact hbase

theorem RebootSound.firstHeard (bootID : UInt32) :
    RebootSound (p.find { HostFlags.unknown with alive := true } bootID).rebootPart := by
  cases hp : p.host with
  | none =>
    have hno : (p.flags.alive || p.flags.booting || p.flags.dead) = false := by simp [flags, hp, HostFlags.unknown]
    have hpart : (p.find { HostFlags.unknown with alive := true } bootID).rebootPart =
        { p.rebootPart with alive := true, booting := false, dead := false } := by
      simp [rebootPart, find, flags, hp, RecovHostState.init, HostFlags.unknown]
    rw [hpart]
    exact h.firstUp hno
  | some x =>
    rw [rebootPart_find bootID (by simp [hp])]
    exact h

theorem RebootSound.heard (bootID : UInt32) (now : Nat) : RebootSound (p.heard bootID now).rebootPart := by
  obtain ⟨q, hq⟩ : ∃ q, q = p.find { HostFlags.unknown with alive := true } bootID := ⟨_, rfl⟩
  have hsound : RebootSound q.rebootPart := hq ▸ h.firstHeard bootID
  have hstamp : ({ q with host := q.host.map fun h => { h with time := now, bootID := bootID } } : Peer).rebootPart = q.rebootPart := by
    unfold rebootPart flags
    cases q.host <;> simp
  unfold Peer.heard
  dsimp only
  rw [← hq]
  split
  · exact hstamp ▸ hsound
  · split
    · refine RebootSound.crashUndetected (hstamp ▸ hsound) ?_
      rw [hq]
      simp [find]
    · exact hstamp ▸ hsound

end

theorem host_heard (bootID : UInt32) (now : Nat) : (p.heard bootID now).host ≠ none := by
  have hund : ∀ u : Peer, u.host ≠ none → u.crashUndetected.host ≠ none := by
    intro u hu
    unfold crashUndetected
    dsimp only
    split
    · simpa [crashDetected] using hu
    · simpa [crashDetected, callCrashCallBacks, setFlags] using hu
  unfold heard
  dsimp only
  split
  · simp [find]
  · split
    · apply hund
      simp [find]
    · simp [find]

section
variable (h : RebootSound p.rebootPart)
include h

theorem RebootSound.hostAlive (a : AliveArgs) (now : Nat) (shut : Bool) :
    RebootSound (p.hostAlive a now shut).rebootPart := by
  unfold Peer.hostAlive
  split
  · rw [rebootPart_returned]
    exact h
  · dsimp only
    split
    · rw [rebootPart_returned]
      exact h.heard a.bootID now
    · exact (h.heard a.bootID now).awaitCrashRecovery (host_heard a.bootID now) a

theorem RebootSound.hostDead : RebootSound p.hostDead.rebootPart := by
  have hbase := (h.notUp (b := false) (d := true) rfl rfl).crashed rfl rfl
  unfold Peer.hostDead
  split
  · next hp =>
    have hpart : (p.find { HostFlags.unknown with dead := true } 0).crashDetected.rebootPart =
        { p.rebootPart with alive := false, booting := false, dead := true, log := .crash :: p.log } := by
      simp [rebootPart, find, crashDetected, flags, hp, RecovHostState.init, HostFlags.unknown]
    rw [hpart]
    exact hbase
  · next x hx =>
    have hdet : p.crashDetected.host ≠ none := by simp [crashDetected, hx]
    have hflags : p.flags = x.flags := by simp [flags, hx]
    have hmark : ∀ f : HostFlags, f.alive = false → f.booting = false → f.dead = true →
        f.wantRecovery = p.flags.wantRecovery → f.rebootCallBacks = p.flags.rebootCallBacks →
        RebootSound ((p.crashDetected.setFlags f).callCrashCallBacks).rebootPart := by
      intro f ha hb hd hw hr
      show RebootSound (p.crashDetected.setFlags f).rebootPart
      rw [rebootPart_setFlags hdet, ha, hb, hd, hw, hr]
      exact hbase
    dsimp only
    split
    · exact hmark _ rfl rfl rfl (by rw [hflags]) (by rw [hflags])
    · exact hmark _ rfl rfl rfl (by rw [hflags]) (by rw [hflags])
    · exact hmark _ rfl rfl rfl (by rw [hflags]) (by rw [hflags])
    · exact h

theorem RebootSound.getRebootList {i : Nat} (hs : p.getRebootList i = some q) : RebootSound q.rebootPart := by
  unfold Peer.getRebootList at hs
  split at hs
  · next hi =>
    cases hs
    exact h.began i _ (List.getElem?_eq_some_iff.1 hi).1
  · cases hs

theorem RebootSound.callBacksDone {i : Nat} (hs : p.callBacksDone i = some q)
    (hp : p.host = none → p.rebootRounds = []) : RebootSound q.rebootPart := by
  obtain ⟨⟨l, hi⟩, rfl⟩ := callBacksDone_spec hs
  have hknown : p.host ≠ none := by
    intro hnone
    rw [hp hnone] at hi
    cases hi
  have hend := h.ended hi p.flags.failure
  rw [rebootPart_setFlags (by simpa [roundEnded] using hknown)]
  split
  · next hfail =>
    rw [roundEnded, hfail]
    rw [hfail] at hend
    exact hend
  · next hfail =>
    rw [roundEnded, Bool.eq_false_iff.2 hfail]
    rw [Bool.eq_false_iff.2 hfail] at hend
    exact hend

end

theorem host_awaitCrashRecovery (hp : p.host ≠ none) (a : AliveArgs) : (p.awaitCrashRecovery a).host ≠ none := by
  have hinit : ∀ u : Peer, u.host ≠ none → u.initiateReboot.host ≠ none := by
    intro u hu
    unfold initiateReboot
    dsimp only
    split
    · simpa [callRebootCallBacks, setFlags] using hu
    · exact hu
  unfold awaitCrashRecovery
  split
  · exact hp
  · have hup : (p.markUp a).host ≠ none := hinit _ (by simpa using host_upDown hp a.rpcNotActive)
    unfold returned
    split
    · exact hup
    · exact hup

theorem host_hostDead : p.hostDead.host ≠ none := by
  unfold hostDead
  split
  · simp [find, crashDetected]
  · next x hx =>
    dsimp only
    split
    · simp [crashDetected, callCrashCallBacks, setFlags, hx]
    · simp [crashDetected, callCrashCallBacks, setFlags, hx]
    · simp [crashDetected, callCrashCallBacks, setFlags, hx]
    · simp [hx]

theorem rebootPart_markRecoveryComplete {i : Nat} (hs : p.markRecoveryComplete i = some q) :
    q.rebootPart = p.rebootPart := by
  unfold markRecoveryComplete at hs
  split at hs
  · cases hs
    exact rebootPart_setFlags_of (by rfl) (by rfl) (by rfl) (by rfl) (by rfl)
  · cases hs

theorem rebootPart_setRebootList (l : List NotifyElement) : (p.setRebootList l).rebootPart = p.rebootPart := by
  unfold rebootPart flags setRebootList
  cases p.host <;> rfl

theorem rebootPart_rebootRegister (proc data : Nat) : (p.rebootRegister proc data).rebootPart = p.rebootPart := by
  exact Eq.trans (rebootPart_setRebootList (p := p.find .unknown 0) _) (rebootPart_find 0 fun _ => rfl)

theorem rebootPart_rebootUnRegister (proc data : Nat) : (p.rebootUnRegister proc data).rebootPart = p.rebootPart :=
  Eq.trans (rebootPart_setRebootList (p := p.find .unknown 0) _) (rebootPart_find 0 fun _ => rfl)

theorem rebootPart_checkHost (now : Nat) : (p.checkHost now).2.rebootPart = p.rebootPart := by
  obtain h | h := checkHost_peer p now
  · rw [h]
  · rw [h]
    exact rebootPart_setFlags_of rfl rfl rfl rfl rfl

/-- The bits and rounds agree with the history, and nothing goes on for a host that is not known. -/
structure RebootInv (p : Peer) : Prop where
  sound : RebootSound p.rebootPart
  known : p.host = none → p.rebootRounds = [] ∧ p.sleepers = []

theorem RebootInv.of_host (h : RebootSound q.rebootPart) (hq : q.host ≠ none) : RebootInv q :=
  ⟨h, fun hn => absurd hn hq⟩

theorem RebootInv.step (h : RebootInv p) {shut : Bool} {l : PeerStep} (hs : p.step shut l = some q) : RebootInv q := by
  cases l with
  | hostAlive a now =>
    cases hs
    refine ⟨h.sound.hostAlive a now shut, fun hn => ?_⟩
    have hret : ∀ u : Peer, (u.returned a).host = u.host ∧ (u.returned a).rebootRounds = u.rebootRounds ∧
        (u.returned a).sleepers = u.sleepers := by
      intro u
      unfold returned
      split <;> exact ⟨rfl, rfl, rfl⟩
    revert hn
    unfold hostAlive
    split
    · rw [(hret p).1, (hret p).2.1, (hret p).2.2]
      exact h.known
    · dsimp only
      split
      · rw [(hret _).1]
        exact fun hn => absurd hn (host_heard a.bootID now)
      · exact fun hn => absurd hn (host_awaitCrashRecovery (host_heard a.bootID now) a)
  | wake i =>
    replace hs : p.wake i shut = some q := hs
    unfold wake at hs
    split at hs
    · next a hi =>
      cases hs
      have hp : p.host ≠ none := by
        intro hn
        rw [(h.known hn).2] at hi
        cases hi
      split
      · exact .of_host h.sound hp
      · exact .of_host (RebootSound.awaitCrashRecovery (p := { p with sleepers := p.sleepers.eraseIdx i }) h.sound hp a)
          (host_awaitCrashRecovery (p := { p with sleepers := p.sleepers.eraseIdx i }) hp a)
    · cases hs
  | hostDead noTimeouts =>
    cases hs
    cases noTimeouts with
    | false => exact .of_host h.sound.hostDead host_hostDead
    | true => exact h
  | crashBegin i =>
    replace hs : p.crashBegin i = some q := hs
    unfold crashBegin at hs
    split at hs
    · cases hs
      exact ⟨h.sound, h.known⟩
    · cases hs
  | markRecoveryComplete i =>
    refine ⟨rebootPart_markRecoveryComplete hs ▸ h.sound, ?_⟩
    replace hs : p.markRecoveryComplete i = some q := hs
    unfold markRecoveryComplete at hs
    split at hs
    · cases hs
      intro hn
      obtain ⟨hr, hw⟩ := h.known (host_setFlags.1 hn)
      exact ⟨hr, by simp [setFlags, hw]⟩
    · cases hs
  | getRebootList i =>
    refine ⟨h.sound.getRebootList hs, ?_⟩
    replace hs : p.getRebootList i = some q := hs
    unfold getRebootList at hs
    split at hs
    · next hi =>
      cases hs
      intro hn
      rw [(h.known hn).1] at hi
      cases hi
    · cases hs
  | callBacksDone i =>
    refine ⟨h.sound.callBacksDone hs fun hn => (h.known hn).1, ?_⟩
    replace hs : p.callBacksDone i = some q := hs
    unfold callBacksDone at hs
    split at hs
    · next hi =>
      have hp : p.host ≠ none := by
        intro hn
        rw [(h.known hn).1] at hi
        cases hi
      dsimp only at hs
      split at hs <;> cases hs <;> exact fun hn => absurd hn (by simpa using hp)
    · cases hs
  | rebootRegister proc data =>
    cases hs
    refine .of_host ?_ (by simp [rebootRegister, setRebootList])
    rw [rebootPart_rebootRegister]
    exact h.sound
  | rebootUnRegister proc data =>
    cases hs
    refine .of_host ?_ (by simp [rebootUnRegister, setRebootList])
    rw [rebootPart_rebootUnRegister]
    exact h.sound
  | checkHost now =>
    cases hs
    refine ⟨by rw [rebootPart_checkHost]; exact h.sound, ?_⟩
    obtain hc | hc := checkHost_peer p now
    · rw [hc]
      exact h.known
    · rw [hc]
      exact fun hn => h.known (host_setFlags.1 hn)

/-- One of the three states at most; a host up after a crash, with no round left, was recovered from or is still
    wanted. -/
def NoRebootMissed (p : Peer) : Prop :=
  ((p.flags.alive && p.flags.booting) = false ∧ (p.flags.alive && p.flags.dead) = false ∧
    (p.flags.booting && p.flags.dead) = false) ∧ p.unexpected = false ∧
  (p.flags.alive = true → .crash ∈ p.log → p.rebootRounds = [] → p.flags.wantRecovery = true ∨ Recovered p.log)

end Peer

namespace HostTable
open Transition
variable {P : RecovParams} {t : HostTable}

end HostTable
end SpriteKernel.Recov
