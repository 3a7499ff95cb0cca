import Mathlib.Tactic.Common
import SpriteKernel.Fsutil.ReopenInv

/- Runs of recovery: rounds with any number of servers, and processes that mark handles and wait for
   them, in any order. -/
namespace SpriteKernel.Fsutil
open Option (bind_eq_some_iff)

open Function List
namespace Reopening
open Transition
variable {bulkHandles : Bool} {s t : Reopening} {p q a h : Nat} {x : RemoteHandle} {y : StreamHandle} {r : ReopenRound}
  {phase : ReopenPhase}

/-- A round with the handle's own server, which has reopened the handle and its streams or failed for good. -/
def Own (s : Reopening) (h : Nat) (x : RemoteHandle) : Prop :=
  ∃ p r, s.round p = some r ∧ r.serverID = x.serverID ∧ x.Answered ∧
    ∀ a y, s.stream a = some y → y.ioHandle = some h → y.invalid = true ∨ y.reopened = true

def Unheld (s : Reopening) (h : Nat) : Prop :=
  (∀ q w, s.waiting q = some w → w.1 ≠ h) ∧ ∀ p r, s.round p = some r → h ∉ r.phase.ioOut

/-- A process waits for a handle it has marked, and a handle that is removed is unheld. -/
def Promised (s : Reopening) : ReopenStep → Prop
  | .wait q h => s.mark q h ≠ .unmarked
  | .closeIo h | .reopenIo _ h .noHandle => s.Unheld h
  | _ => True

/-- A scan skips no locked handle with an earlier round's RECOVERY_COMPLETE, and no locked stream; no reply to a bulk
    reopen says that the server was gone; the last scan meets no marked handle with another server's
    RECOVERY_COMPLETE or skipped; no signal comes to a waiter whose handle failed and then was reopened. -/
def Careful (s : Reopening) : ReopenStep → Prop
  | .skipLocked p a => ∀ r, s.round p = some r → match r.phase with
    | .ioScan _ _ _ => ∀ x, s.io a = some x → x.serverID = r.serverID → x.complete = true → x.invalid = true
    | .streamScan _ _ _ => ∀ y, s.stream a = some y → y.serverID = r.serverID → y.ioHandle ≠ none → y.invalid = false →
        y.reopened = true
    | _ => True
  | .reply p status => ∀ r, s.round p = some r → match r.phase with
    | .ioReply .success (h :: _) => status.gone = true ∨ status = .rpcInvalidRpc → ∀ x, s.io h = some x → x.complete = false
    | .streamReply .success _ => status.gone = false ∧ status ≠ .rpcInvalidRpc
    | _ => True
  | .notify p h => ∀ r x, s.round p = some r → s.io h = some x → x.complete = true → x.needed = true →
      x.serverID = r.serverID ∧ x.reopened ≠ .skipped
  | .signal q => ∀ h b x, s.waiting q = some (h, b) → s.io h = some x → x.needed = true → x.failed = true → x.status ≠ .success
  | _ => True

def Met (s : Reopening) (l : ReopenStep) : Prop := s.Promised l ∧ s.Careful l

variable {todo : List Nat} {signalled : Bool}

theorem Inv.own (hi : s.Inv) (hr : s.round p = some r) (hphase : r.phase = .notifying todo)
    (hx : s.io h = some x) (hv : x.invalid = false) (hc : x.complete = true) (hid : x.serverID = r.serverID)
    (hskip : x.reopened ≠ .skipped) : s.Own h x := by
  have howing : r.phase.ioOwing = some [] := by rw [hphase]; rfl
  have hstreams : r.phase.streamOwing = some [] := by rw [hphase]; rfl
  have hans : x.Answered := by
    obtain hnil | hskip' | hans := hi.ioDone p r [] hr howing h x hx hid hc hv
    · exact absurd hnil not_mem_nil
    · exact absurd hskip' hskip
    · exact hans
  refine ⟨p, r, hr, hid.symm, hans, fun a y hy hio => ?_⟩
  obtain ⟨z, hz, hyid⟩ := hi.refs a y h hy hio
  cases hx.symm.trans hz
  cases hinv : y.invalid with
  | true => exact .inl rfl
  | false =>
    obtain hnil | hre := hi.streamDone p r [] hr hstreams a y hy (hyid.trans hid) (by rw [hio]; nofun) hinv
    · exact absurd hnil not_mem_nil
    · exact .inr hre

theorem settled_of_own (ho : s.Own h x) : s.settled h = true := by
  obtain ⟨-, -, -, -, -, hstreams⟩ := ho
  refine all_eq_true.2 fun a _ => ?_
  cases hy : s.stream a with
  | none => rfl
  | some y =>
    by_cases hio : y.ioHandle = some h
    · obtain hv | hre := hstreams a y hy hio
      · simp [hv]
      · simp [hre]
    · simp [hio]

/-- The round of `p` notifies a handle: its waiters wake, and those that marked it are served if it was reopened. -/
def notified (s : Reopening) (h : Nat) (x : RemoteHandle) (served : Prop) [Decidable served] : Reopening :=
  { s.setIo h x.recoveryNotify with
    waiting := fun q => (s.waiting q).map fun w => (w.1, w.2 || (x.complete && w.1 == h))
    mark := fun q a => if a = h ∧ s.mark q h = .wanted ∧ served then .served else s.mark q a }

section
variable (hi : s.Inv)
include hi

theorem Inv.notified {served : Prop} [Decidable served] (hx : s.io h = some x) (hv : x.invalid = false)
    (hout : x.complete = true → x.needed = true → ∀ p r, s.round p = some r → h ∉ r.phase.ioOut)
    (hown : x.complete = true → x.needed = true → x.Answered)
    (hserved : x.complete = true → x.needed = true → x.reopened = .replied .success → served) :
    (s.notified h x served).Inv := by
  have hself : (s.notified h x served).io h = some x.recoveryNotify := update_self _ _ _
  have hlive : ∀ g z, s.io g = some z → ∃ z', (s.notified h x served).io g = some z' ∧ z'.serverID = z.serverID := by
    intro g z hz
    by_cases hg : g = h
    · subst hg
      cases hx.symm.trans hz
      exact ⟨_, hself, rfl⟩
    · exact ⟨z, (update_of_ne hg _ _).trans hz, rfl⟩
  have hmark : ∀ q g, (s.notified h x served).mark q g = .wanted → s.mark q g = .wanted ∧ (g = h → ¬ served) := by
    intro q g hm
    unfold Reopening.notified at hm
    dsimp only at hm
    split at hm
    · cases hm
    · next hnot => exact ⟨hm, fun hg hserve => hnot ⟨hg, by rw [← hg]; exact hm, hserve⟩⟩
  have hmarked : ∀ q g, (s.notified h x served).mark q g ≠ .unmarked ↔ s.mark q g ≠ .unmarked := by
    intro q g
    unfold Reopening.notified
    dsimp only
    split
    · next hand => exact ⟨fun _ => by rw [hand.1, hand.2.1]; nofun, fun _ => nofun⟩
    · exact Iff.rfl
  have hneed : x.needed = true → x.complete = false → x.recoveryNotify.needed = true := by
    intro hn hc
    show (x.needed && !x.complete) = true
    rw [hn, hc]
    rfl
  have hwait : ∀ q w, (s.notified h x served).waiting q = some w →
      ∃ b, s.waiting q = some (w.1, b) ∧ w.2 = (b || (x.complete && w.1 == h)) := by
    intro q w hw
    obtain ⟨v, hv, rfl⟩ := Option.map_eq_some_iff.1 hw
    exact ⟨v.2, hv, rfl⟩
  refine ⟨?_, hi.streams, ?_, hi.inRound, hi.oneRound, ?_, hi.streamDone, ?_, ?_, ?_, ?_, ?_, ?_, hi.returned⟩
  · intro g z hz
    obtain ⟨rfl, -⟩ | ⟨-, hz⟩ := of_update_some hz
    · exact hi.ios g x hx
    · exact hi.ios g z hz
  · intro a y g hy hio
    obtain ⟨z, hz, hid⟩ := hi.refs a y g hy hio
    obtain ⟨z', hz', hid'⟩ := hlive g z hz
    exact ⟨z', hz', by rw [hid, hid']⟩
  · intro p r l hr hl g z hz hid hc hv
    obtain ⟨rfl, rfl⟩ | ⟨-, hz⟩ := of_update_some hz
    · cases hc
    · exact hi.ioDone p r l hr hl g z hz hid hc hv
  · intro p r g hr hg
    obtain ⟨z, hz, hid, hm⟩ := hi.out p r g hr hg
    obtain ⟨z', hz', hid'⟩ := hlive g z hz
    refine ⟨z', hz', by rw [hid', hid], ?_⟩
    rintro ⟨q, hq⟩
    have hn := hm ⟨q, (hmark q g hq).1⟩
    obtain ⟨rfl, rfl⟩ | ⟨-, hold⟩ := of_update_some hz'
    · cases hx.symm.trans hz
      exact hneed hn (Bool.eq_false_iff.2 fun hc => hout hc hn p r hr hg)
    · cases hz.symm.trans hold
      exact hn
  · intro g z status hz
    obtain ⟨rfl, rfl⟩ | ⟨-, hz⟩ := of_update_some hz
    · exact hi.replied g x status hx
    · exact hi.replied g z status hz
  · intro q g z hm hz
    obtain ⟨hwanted, hnot⟩ := hmark q g hm
    obtain ⟨rfl, rfl⟩ | ⟨-, hz⟩ := of_update_some hz
    · obtain hn | ⟨-, -, hinv⟩ := hi.wanted q g x hwanted hx
      · cases hc : x.complete with
        | false => exact .inl (hneed hn hc)
        | true =>
          -- the reopen was answered, and not with success, or the mark were served
          obtain ⟨status, hre, hgone⟩ := hown hc hn
          obtain ⟨hstatus, hfail⟩ := hi.replied g x status hx hre
          have hns : status ≠ .success := by
            rintro rfl
            exact hnot rfl (hserved hc hn hre)
          have hf := hfail hgone hns
          refine .inr ⟨hf, ?_, ?_⟩
          · show x.status ≠ .success
            rw [hstatus]
            exact hns
          · show (x.invalid || x.failed) = true
            rw [hf, Bool.or_true]
      · rw [hinv] at hv
        cases hv
    · exact hi.wanted q g z hwanted hz
  · intro q g hm
    obtain ⟨z, hz⟩ := hi.marked q g ((hmarked q g).1 hm)
    obtain ⟨z', hz', -⟩ := hlive g z hz
    exact ⟨z', hz'⟩
  · intro q g hw
    obtain ⟨b, hw, hb⟩ := hwait q _ hw
    obtain ⟨rfl, hnot⟩ : b = false ∧ (x.complete && g == h) = false := Bool.or_eq_false_iff.1 hb.symm
    obtain ⟨z, hz, hn⟩ := hi.waits q g hw
    by_cases hg : g = h
    · subst hg
      cases hx.symm.trans hz
      exact ⟨_, hself, hneed hn (by simpa using hnot)⟩
    · exact ⟨z, (update_of_ne hg _ _).trans hz, hn⟩
  · intro q g b hw
    obtain ⟨b', hw, -⟩ := hwait q _ hw
    exact (hmarked q g).2 (hi.waiter q g b' hw)

theorem Inv.passNotified (hr : s.round p = some r) (hphase : r.phase = .notifying todo) :
    (s.setPhase p r (.notifying (todo.erase a))).Inv := by
  refine hi.setPhase hr (fun l hl => ?_) (fun l hl => ?_) nofun
  · exact hi.ioDone p r l hr (by rw [hphase]; exact hl)
  · exact hi.streamDone p r l hr (by rw [hphase]; exact hl)

theorem Inv.notify (hc : s.Careful (.notify p h)) (hs : s.notify p h = some t) : t.Inv := by
  obtain ⟨r, hr, hs⟩ := bind_eq_some_iff.1 hs
  split at hs
  next todo hphase =>
    obtain ⟨x, hx, hs⟩ := bind_eq_some_iff.1 hs
    have hpass := hi.passNotified (a := h) hr hphase
    split at hs
    · cases hs
    split at hs
    · cases hs
      exact hpass
    next hvalid =>
    have hv : x.invalid = false := Bool.eq_false_iff.2 hvalid
    cases hs
    have hown : x.complete = true → x.needed = true → s.Own h x := fun hcomp hn =>
      hi.own hr hphase hx hv hcomp (hc r x hr hx hcomp hn).1 (hc r x hr hx hcomp hn).2
    refine Inv.notified (s := s.setPhase p r (.notifying (todo.erase h))) hpass hx hv ?_ ?_ ?_
    · intro hcomp hn q r' hr' hin
      have hself : (s.setPhase p r (.notifying (todo.erase h))).round p = some { r with phase := .notifying (todo.erase h) } :=
        update_self _ _ _
      obtain ⟨z, hz, hid, -⟩ := hpass.out q r' h hr' hin
      cases hx.symm.trans hz
      obtain rfl := hpass.oneRound q p r' _ hr' hself (hid.symm.trans (hc r x hr hx hcomp hn).1)
      cases hself.symm.trans hr'
      exact absurd hin not_mem_nil
    · intro hcomp hn
      obtain ⟨-, -, -, -, hans, -⟩ := hown hcomp hn
      exact hans
    · intro hcomp hn hre
      exact ⟨hcomp, (hc r x hr hx hcomp hn).1, hre, settled_of_own (hown hcomp hn)⟩
  · cases hs

theorem Inv.waitForRecovery (hm : s.mark q h ≠ .unmarked) (hs : s.waitForRecovery q h = some t) : t.Inv := by
  unfold Reopening.waitForRecovery at hs
  split at hs
  · cases hs
  obtain ⟨x, hx, rfl⟩ := Option.map_eq_some_iff.1 hs
  split
  · exact hi.wakeUp nofun
  · split
    · next hn => exact hi.startWait hm hx hn
    · next hn => exact hi.wakeUp fun hstatus => hi.served_of_success hx (Bool.eq_false_iff.2 hn) hm hstatus

theorem Inv.recoveryWait (hc : signalled = true → s.Careful (.signal q))
    (hs : s.recoveryWait q signalled = some t) : t.Inv := by
  obtain ⟨⟨h, b⟩, hw, hs⟩ := bind_eq_some_iff.1 hs
  obtain ⟨x, hx, hs⟩ := bind_eq_some_iff.1 hs
  have hm := hi.waiter q h b hw
  split at hs
  · next hsig =>
    cases hs
    refine hi.wakeUp fun hstatus => ?_
    cases hn : x.needed with
    | false => exact hi.served_of_success hx hn hm hstatus
    | true =>
      unfold RemoteHandle.waitStatus at hstatus
      split at hstatus
      · next hfail => exact absurd hstatus (hc hsig h b x hw hx hn hfail)
      · cases hstatus
  · split at hs
    · cases hs
    · split at hs
      · next hn =>
        cases hs
        exact hi.startWait hm hx hn
      · next hn =>
        cases hs
        exact hi.wakeUp fun hstatus => hi.served_of_success hx (Bool.eq_false_iff.2 hn) hm hstatus

end

variable {status : ReopenStatus}

theorem answered_recoveryComplete (hg : status.gone = false) : (x.recoveryComplete status).Answered := by
  refine ⟨status, ?_, hg⟩
  cases status <;> rfl

/-- RecoveryComplete of a handle, with an earlier round's RECOVERY_COMPLETE only if this round owes it something. -/
theorem Inv.recoveryComplete (hi : s.Inv) (hx : s.io h = some x)
    (hgone : status.gone = true → ∀ p r l, s.round p = some r → r.serverID = x.serverID → r.phase.ioOwing = some l →
      x.complete = true → x.invalid = false → h ∈ l)
    (hwanted : ∀ q, s.mark q h = .wanted → x.needed = true) : (s.setIo h (x.recoveryComplete status)).Inv := by
  have hsame : (x.recoveryComplete status).serverID = x.serverID ∧ (x.recoveryComplete status).needed = x.needed ∧
      (x.recoveryComplete status).invalid = x.invalid ∧ (x.recoveryComplete status).reopened = .replied status ∧
      (x.recoveryComplete status).status = status := by
    cases status <;> exact ⟨rfl, rfl, rfl, rfl, rfl⟩
  obtain ⟨hid, hn, hv, hre, hst⟩ := hsame
  refine hi.setIo hx hid (fun hneed => hn.trans hneed) (fun p r l hr hserver hl hc hv' => ?_) (fun status' hre' => ?_)
    fun q hq => .inl (hn.trans (hwanted q hq))
  · cases hg : status.gone with
    | false => exact .inr (.inr (answered_recoveryComplete hg))
    | true =>
      refine .inl (hgone hg p r l hr hserver hl ?_ (hv.symm.trans hv'))
      cases status with
      | rpcTimeout => exact hc
      | rpcServiceDisabled => exact hc
      | _ => cases hg
  · obtain rfl : status = status' := by
      rw [hre] at hre'
      exact Attempt.replied.inj hre'
    refine ⟨hst, fun hg hne => ?_⟩
    cases status with
    | success => exact absurd rfl hne
    | rpcTimeout => cases hg
    | rpcServiceDisabled => cases hg
    | _ => rfl

/-- Whoever has marked a handle that is not invalid waits for its recovery. -/
theorem Inv.needed_of_wanted (hi : s.Inv) (hx : s.io h = some x) (hv : x.invalid = false) (hm : s.mark q h = .wanted) :
    x.needed = true := by
  obtain hn | ⟨-, -, hinv⟩ := hi.wanted q h x hm hx
  · exact hn
  · rw [hinv] at hv
    cases hv

variable {out : List Nat} {l : ReopenStep} {serverID : Nat}

theorem mem_erase_append {g : Nat} (hg : g ∈ todo ++ out) : g ∈ todo.erase h ++ out ∨ g = h := by
  by_cases hgh : g = h
  · exact .inr hgh
  · refine .inl ?_
    obtain hg | hg := mem_append.1 hg
    · exact mem_append_left _ ((mem_erase_of_ne hgh).2 hg)
    · exact mem_append_right _ hg

section
variable (hi : s.Inv) {bulk : Bool}
include hi

/-- The first scan has come to a handle, to which nothing is owed from then on. -/
theorem Inv.passIo (hr : s.round p = some r) (hphase : r.phase = .ioScan bulk todo out)
    (hset : ∀ x, s.io h = some x → x.serverID = r.serverID → x.complete = true → x.invalid = false → x.Settled) :
    (s.setPhase p r (.ioScan bulk (todo.erase h) out)).Inv := by
  refine hi.setPhase hr (fun l hl => ?_) nofun fun g hg => hi.out p r g hr (by rw [hphase]; exact hg)
  cases hl
  refine (hi.ioDone p r (todo ++ out) hr (by rw [hphase]; rfl)).mono fun g hg => ?_
  obtain hin | rfl := mem_erase_append (h := h) hg
  · exact .inl hin
  · exact .inr hset

theorem Inv.reopenIo {setup : Setup} (hp : s.Promised (.reopenIo p h setup)) (hs : s.reopenIo p h setup = some t) :
    t.Inv := by
  obtain ⟨r, hr, hs⟩ := bind_eq_some_iff.1 hs
  split at hs
  swap
  · cases hs
  next bulk todo out hphase =>
  obtain ⟨x, hx, hs⟩ := bind_eq_some_iff.1 hs
  have hx' : ∀ z, s.io h = some z → z = x := fun z hz => Option.some.inj (hz.symm.trans hx)
  split at hs
  · cases hs
  next hcome =>
  split at hs
  · next hother =>
    cases hs
    refine hi.passIo hr hphase fun z hz hid hc hv => ?_
    obtain rfl := hx' z hz
    obtain hne | hinv := hother
    · exact absurd hid hne
    · rw [hinv] at hv
      cases hv
  next hown =>
  have hid : x.serverID = r.serverID := by
    by_contra hne
    exact hown (.inl hne)
  have hv : x.invalid = false := Bool.eq_false_iff.2 fun hinv => hown (.inr hinv)
  cases setup with
  | sent =>
    cases hs
    refine hi.setPhase hr (fun l hl => ?_) nofun fun g hg => ?_
    · cases hl
      refine (hi.ioDone p r (todo ++ out) hr (by rw [hphase]; rfl)).mono fun g hg => .inl ?_
      obtain hin | rfl := mem_erase_append (h := h) hg
      · rw [← append_assoc]
        exact mem_append_left _ hin
      · simp
    · obtain hg | hg := mem_append.1 hg
      · exact hi.out p r g hr (by rw [hphase]; exact hg)
      · obtain rfl := mem_singleton.1 hg
        exact ⟨x, hx, hid, fun ⟨q, hq⟩ => hi.needed_of_wanted hx hv hq⟩
  | noHandle =>
    dsimp only at hs
    split at hs
    · cases hs
    next hfree =>
    cases hs
    obtain ⟨-, hu⟩ : x.needed = false ∧ s.inUse h = false := by simpa using hfree
    refine (hi.removeIo hu hp.2 hp.1).passIo hr hphase fun z hz => ?_
    rw [show (s.removeIo h).io h = none from update_self _ _ _] at hz
    cases hz
  | skip =>
    cases hs
    have hskip : (s.setIo h x.skipReopen).Inv := by
      refine hi.setIo hx rfl id (fun _ _ _ _ _ _ _ _ => .inr (.inl rfl)) nofun fun q hq => .inl ?_
      have hn : x.needed = true := hi.needed_of_wanted hx hv hq
      exact hn
    refine hskip.passIo hr hphase fun z hz _ _ _ => ?_
    cases setIO_self.symm.trans hz
    exact .inl rfl
  | refused status =>
    dsimp only at hs
    split at hs
    swap
    · cases hs
    next hbulk =>
    cases hs
    have hg : status.gone = false := by
      have hand := Bool.and_eq_true_iff.1 hbulk
      simpa using hand.2
    have hdone : (s.setIo h (x.recoveryComplete status)).Inv := by
      refine hi.recoveryComplete hx (fun hgone => ?_) fun q hq => hi.needed_of_wanted hx hv hq
      rw [hg] at hgone
      cases hgone
    refine hdone.passIo hr hphase fun z hz _ _ _ => ?_
    cases setIO_self.symm.trans hz
    exact .inr (answered_recoveryComplete hg)

/-- The second scan has come to a stream, to which nothing is owed from then on. -/
theorem Inv.passStream (hr : s.round p = some r) (hphase : r.phase = .streamScan bulk todo out)
    (hset : ∀ y, s.stream a = some y → y.serverID = r.serverID → y.ioHandle ≠ none → y.invalid = false → y.reopened = true) :
    (s.setPhase p r (.streamScan bulk (todo.erase a) out)).Inv := by
  refine hi.setPhase hr (fun l hl => ?_) (fun l hl => ?_) nofun
  · exact hi.ioDone p r l hr (by rw [hphase]; exact hl)
  · cases hl
    refine (hi.streamDone p r (todo ++ out) hr (by rw [hphase]; rfl)).mono fun g hg => ?_
    obtain hin | rfl := mem_erase_append (h := a) hg
    · exact .inl hin
    · exact .inr hset

theorem Inv.finished (hr : s.round p = some r) : (s.setPhase p r .finished).Inv :=
  hi.setPhase hr nofun nofun nofun

theorem Inv.reopenStream (hs : s.reopenStream p a status = some t) : t.Inv := by
  obtain ⟨r, hr, hs⟩ := bind_eq_some_iff.1 hs
  split at hs
  swap
  · cases hs
  next bulk todo out hphase =>
  obtain ⟨y, hy, hs⟩ := bind_eq_some_iff.1 hs
  have hy' : ∀ z, s.stream a = some z → z = y := fun z hz => Option.some.inj (hz.symm.trans hy)
  have hinvalid : (s.setStream a { y with invalid := true }).Inv := hi.setStream hy rfl rfl (.inl rfl)
  have hlost : ((s.setStream a { y with invalid := true }).setPhase p r (.streamScan bulk (todo.erase a) out)).Inv := by
    refine hinvalid.passStream hr hphase fun z hz _ _ hv => ?_
    cases setStream_self.symm.trans hz
    cases hv
  split at hs
  · cases hs
  split at hs
  · next hother =>
    cases hs
    refine hi.passStream hr hphase fun z hz hid _ hv => ?_
    obtain rfl := hy' z hz
    obtain hne | hinv := hother
    · exact absurd hid hne
    · rw [hinv] at hv
      cases hv
  split at hs
  · next hnil =>
    cases hs
    refine hi.passStream hr hphase fun z hz _ hio _ => ?_
    obtain rfl := hy' z hz
    exact absurd hnil hio
  obtain ⟨x, hx, hs⟩ := bind_eq_some_iff.1 hs
  split at hs
  · cases hs
    exact hlost
  split at hs
  · cases hs
    refine hi.setPhase hr (fun l hl => ?_) (fun l hl => ?_) nofun
    · exact hi.ioDone p r l hr (by rw [hphase]; exact hl)
    · cases hl
      refine (hi.streamDone p r (todo ++ out) hr (by rw [hphase]; rfl)).mono fun g hg => .inl ?_
      obtain hin | rfl := mem_erase_append (h := a) hg
      · rw [← append_assoc]
        exact mem_append_left _ hin
      · simp
  split at hs
  · cases hs
    refine (hi.setStream (w := { y with reopened := true }) hy rfl rfl (.inr rfl)).passStream hr hphase fun z hz _ _ _ => ?_
    cases setStream_self.symm.trans hz
    rfl
  split at hs
  · cases hs
    exact hi.finished hr
  · cases hs
    exact hlost

theorem Inv.skipLocked (hc : s.Careful (.skipLocked p a)) (hs : s.skipLocked p a = some t) : t.Inv := by
  obtain ⟨r, hr, hs⟩ := bind_eq_some_iff.1 hs
  obtain ⟨htodo, hs⟩ := Option.ite_none_right_eq_some.1 hs
  cases hs
  have hc := hc r hr
  cases hphase : r.phase with
  | ioScan bulk todo out =>
    rw [hphase] at hc
    refine hi.passIo hr hphase fun x hx hid hcomp hv => ?_
    rw [hc x hx hid hcomp] at hv
    cases hv
  | streamScan bulk todo out =>
    rw [hphase] at hc
    exact hi.passStream hr hphase hc
  | notifying todo =>
    exact hi.passNotified hr hphase
  | _ =>
    rw [hphase] at htodo
    exact absurd htodo not_mem_nil

section
variable (hr : s.round p = some r)
include hr

theorem Inv.scanStreams (hio : r.phase.ioOwing = some []) (bulk : Bool) :
    (s.setPhase p r (.streamScan bulk s.streams [])).Inv := by
  refine hi.setPhase hr (fun l hl => ?_) (fun l hl => ?_) nofun
  · cases hl
    exact hi.ioDone p r [] hr hio
  · cases hl
    exact fun b y hy _ _ _ => .inl (mem_append_left _ (hi.streams b y hy))

theorem Inv.scanAll (hio : r.phase.ioOwing = some [])
    (hstream : r.phase.streamOwing = some []) : (s.setPhase p r (.notifying s.ios)).Inv := by
  refine hi.setPhase hr (fun l hl => ?_) (fun l hl => ?_) nofun
  · cases hl
    exact hi.ioDone p r [] hr hio
  · cases hl
    exact hi.streamDone p r [] hr hstream

theorem Inv.scanIOs (bulk : Bool) : (s.setPhase p r (.ioScan bulk s.ios [])).Inv := by
  refine hi.setPhase hr (fun l hl => ?_) nofun nofun
  cases hl
  exact fun h x hx _ _ _ => .inl (mem_append_left _ (hi.ios h x hx))

end

theorem Inv.endScan (hs : s.endScan p status = some t) : t.Inv := by
  obtain ⟨r, hr, hs⟩ := bind_eq_some_iff.1 hs
  split at hs
  · next hphase =>
    cases hs
    exact hi.scanStreams hr (by rw [hphase]; rfl) _
  · next out _ hphase =>
    cases hs
    refine hi.setPhase hr (fun l hl => ?_) ?_ fun g hg => hi.out p r g hr (by rw [hphase]; exact hg)
    · cases status with
      | success =>
        cases hl
        exact hi.ioDone p r _ hr (by rw [hphase]; rfl)
      | _ => cases hl
    · intro l hl
      cases hl
  · next hphase =>
    cases hs
    exact hi.scanAll hr (by rw [hphase]; rfl) (by rw [hphase]; rfl)
  · next bulk out _ hphase =>
    cases hs
    refine hi.setPhase hr (fun l hl => ?_) (fun l hl => ?_) nofun
    · exact hi.ioDone p r l hr (by rw [hphase]; exact hl)
    · cases status with
      | success =>
        cases hl
        exact hi.streamDone p r _ hr (by rw [hphase]; rfl)
      | _ => cases hl
  · cases hs
    exact hi.finished hr
  · cases hs

theorem Inv.allReplied (hs : s.allReplied p = some t) : t.Inv := by
  obtain ⟨r, hr, hs⟩ := bind_eq_some_iff.1 hs
  split at hs
  · next hphase =>
    cases hs
    exact hi.scanStreams hr (by rw [hphase]; rfl) _
  · cases hs
    exact hi.scanIOs hr _
  · cases hs
    exact hi.finished hr
  · next hphase =>
    cases hs
    exact hi.scanAll hr (by rw [hphase]; rfl) (by rw [hphase]; rfl)
  · split at hs
    · cases hs
      exact hi.finished hr
    · cases hs
  · cases hs

theorem Inv.finishStream (hy : s.stream a = some y) : (s.finishStream a y status).Inv := by
  unfold Reopening.finishStream
  split
  · exact hi
  · exact hi
  · exact hi
  · exact hi.setStream hy rfl rfl (.inr rfl)
  · exact hi.setStream hy rfl rfl (.inl rfl)

end

theorem finishStream_done (hgone : status.gone = false) (hrpc : status ≠ .rpcInvalidRpc)
    {z : StreamHandle} (hz : (s.finishStream a y status).stream a = some z) (hv : z.invalid = false) : z.reopened = true := by
  unfold Reopening.finishStream at hz
  split at hz
  · exact absurd rfl hrpc
  · cases hgone
  · cases hgone
  · cases setStream_self.symm.trans hz
    rfl
  · cases setStream_self.symm.trans hz
    cases hv

theorem round_finishStream : (s.finishStream a y status).round = s.round := by
  unfold Reopening.finishStream
  split <;> rfl

section
variable (hi : s.Inv)
include hi

/-- The round whose reopen of a handle is out is the only one that owes it something. -/
theorem Inv.only_round (hr : s.round p = some r) (hid : x.serverID = r.serverID)
    {r' : ReopenRound} (hr' : s.round q = some r') (hid' : r'.serverID = x.serverID) : r' = r := by
  obtain rfl := hi.oneRound q p r' r hr' hr (hid'.trans hid)
  exact Option.some.inj (hr'.symm.trans hr)

theorem Inv.replySingle (hr : s.round p = some r)
    (hphase : r.phase = .ioScan false todo [h]) (hx : s.io h = some x) :
    ((s.setIo h (x.recoveryComplete status)).setPhase p r
      (if status.gone then .finished else .ioScan false todo [])).Inv := by
  obtain ⟨z, hz, hid, hm⟩ := hi.out p r h hr (by rw [hphase]; exact mem_singleton_self h)
  cases hx.symm.trans hz
  have hdone : (s.setIo h (x.recoveryComplete status)).Inv := by
    refine hi.recoveryComplete hx (fun _ q r' l hr' hid' hl _ _ => ?_) fun q hq => hm ⟨q, hq⟩
    obtain rfl := hi.only_round hr hid hr' hid'
    rw [hphase] at hl
    cases hl
    exact mem_append_right _ (mem_singleton_self h)
  cases hg : status.gone with
  | true => exact hdone.finished hr
  | false =>
    refine hdone.setPhase hr (fun l hl => ?_) nofun nofun
    cases hl
    refine (hdone.ioDone p r (todo ++ [h]) hr (by rw [hphase]; rfl)).mono fun g hg' => ?_
    obtain hin | heq := mem_append.1 hg'
    · exact .inl (mem_append_left _ hin)
    · obtain rfl := mem_singleton.1 heq
      refine .inr fun w hw _ _ _ => ?_
      cases setIO_self.symm.trans hw
      exact .inr (answered_recoveryComplete hg)

/-- What a bulk reopen brought for a handle: nothing is owed any more, if the call came through. -/
theorem Inv.replyBulk {called : ReopenStatus} (hr : s.round p = some r)
    (hphase : r.phase = .ioReply called (h :: out)) (hx : s.io h = some x)
    (hc : called = .success → status.gone = true → x.complete = false) :
    ((s.setIo h (x.recoveryComplete status)).setPhase p r (.ioReply called out)).Inv := by
  obtain ⟨z, hz, hid, hm⟩ := hi.out p r h hr (by rw [hphase]; exact mem_cons_self)
  cases hx.symm.trans hz
  have hdone : (s.setIo h (x.recoveryComplete status)).Inv := by
    refine hi.recoveryComplete hx (fun _ q r' l hr' hid' hl _ _ => ?_) fun q hq => hm ⟨q, hq⟩
    obtain rfl := hi.only_round hr hid hr' hid'
    rw [hphase] at hl
    cases called with
    | success =>
      cases hl
      exact mem_cons_self
    | _ => cases hl
  refine hdone.setPhase hr (fun l hl => ?_) (fun l hl => ?_) fun g hg => ?_
  · cases called with
    | success =>
      cases hl
      refine (hdone.ioDone p r (h :: out) hr (by rw [hphase]; rfl)).mono fun g hg => ?_
      obtain rfl | hin := mem_cons.1 hg
      · refine .inr fun w hw _ hcomp _ => ?_
        cases setIO_self.symm.trans hw
        cases hgone : status.gone with
        | false => exact .inr (answered_recoveryComplete hgone)
        | true =>
          have hfree := hc rfl hgone
          cases status with
          | rpcTimeout =>
            rw [show (x.recoveryComplete .rpcTimeout).complete = x.complete from rfl, hfree] at hcomp
            cases hcomp
          | rpcServiceDisabled =>
            rw [show (x.recoveryComplete .rpcServiceDisabled).complete = x.complete from rfl, hfree] at hcomp
            cases hcomp
          | _ => cases hgone
      · exact .inl hin
    | _ => cases hl
  · cases hl
  · exact hdone.out p r g hr (by rw [hphase]; exact mem_cons_of_mem _ hg)

theorem Inv.reply (hc : s.Careful (.reply p status)) (hs : s.reply p status = some t) : t.Inv := by
  obtain ⟨r, hr, hs⟩ := bind_eq_some_iff.1 hs
  have hc := hc r hr
  split at hs
  · next todo h hphase =>
    obtain ⟨x, hx, rfl⟩ := Option.map_eq_some_iff.1 hs
    exact hi.replySingle hr hphase hx
  · next called h out hphase =>
    obtain ⟨x, hx, rfl⟩ := Option.map_eq_some_iff.1 hs
    rw [hphase] at hc
    obtain ⟨eff, heff⟩ : ∃ eff, eff = if called = .success then status else called := ⟨_, rfl⟩
    have hstatus : called = .success → eff = status := fun hcalled => by rw [heff, if_pos hcalled]
    dsimp only
    rw [← heff]
    split
    · next hrpc =>
      refine hi.setPhase hr (fun l hl => ?_) (fun l hl => ?_) fun g hg => ?_
      · cases called with
        | success =>
          cases hl
          refine (hi.ioDone p r (h :: out) hr (by rw [hphase]; rfl)).mono fun g hg => ?_
          obtain rfl | hin := mem_cons.1 hg
          · refine .inr fun z hz _ hcomp _ => ?_
            rw [hstatus rfl] at hrpc
            rw [hc (.inr hrpc) z hz] at hcomp
            cases hcomp
          · exact .inl hin
        | _ => cases hl
      · cases hl
      · exact hi.out p r g hr (by rw [hphase]; exact mem_cons_of_mem _ hg)
    · refine hi.replyBulk hr hphase hx (fun hcalled hgone => ?_)
      rw [hstatus hcalled] at hgone
      subst hcalled
      exact hc (.inl hgone) x hx
  · next called a out hphase =>
    obtain ⟨y, hy, rfl⟩ := Option.map_eq_some_iff.1 hs
    rw [hphase] at hc
    have hdone : (s.finishStream a y (if called = .success then status else called)).Inv := hi.finishStream hy
    have hr' : (s.finishStream a y (if called = .success then status else called)).round p = some r := by
      rw [round_finishStream]
      exact hr
    refine hdone.setPhase hr' (fun l hl => ?_) (fun l hl => ?_) nofun
    · exact hdone.ioDone p r l hr' (by rw [hphase]; exact hl)
    · cases called with
      | success =>
        cases hl
        refine (hdone.streamDone p r (a :: out) hr' (by rw [hphase]; rfl)).mono fun g hg => ?_
        obtain rfl | hin := mem_cons.1 hg
        · exact .inr fun z hz _ _ hv => finishStream_done hc.1 hc.2 hz hv
        · exact .inl hin
      | _ => cases hl
  · cases hs

theorem Inv.step (hmet : s.Met l) (hs : step bulkHandles s l = some t) : t.Inv := by
  obtain ⟨hp, hc⟩ := hmet
  cases l with
  | openIo h serverID => exact hi.openIo hs
  | closeIo h =>
    obtain ⟨x, hx, hs⟩ := bind_eq_some_iff.1 hs
    split at hs
    · cases hs
    next hfree =>
    cases hs
    obtain ⟨-, hu⟩ : x.needed = false ∧ s.inUse h = false := by simpa using hfree
    exact hi.removeIo hu hp.2 hp.1
  | openStream a h => exact hi.openStream hs
  | closeStream a =>
    cases hs
    exact hi.closeStream
  | wantRecovery q h => exact hi.wantRecovery hs
  | wait q h => exact hi.waitForRecovery hp hs
  | wakeup q => exact hi.recoveryWait (by nofun) hs
  | signal q => exact hi.recoveryWait (fun _ => hc) hs
  | reopen p serverID => exact hi.reopen hs
  | reopenHandles p =>
    obtain ⟨r, hr, hs⟩ := bind_eq_some_iff.1 hs
    obtain ⟨-, hs⟩ := Option.ite_none_right_eq_some.1 hs
    cases hs
    exact hi.scanIOs hr _
  | fastBoot p =>
    obtain ⟨r, hr, hs⟩ := bind_eq_some_iff.1 hs
    obtain ⟨-, hs⟩ := Option.ite_none_right_eq_some.1 hs
    cases hs
    exact hi.finished hr
  | reopenIo p h setup => exact hi.reopenIo hp hs
  | reopenStream p a status => exact hi.reopenStream hs
  | notify p h => exact hi.notify hc hs
  | skipLocked p a => exact hi.skipLocked hc hs
  | endScan p status => exact hi.endScan hs
  | reply p status => exact hi.reply hc hs
  | allReplied p => exact hi.allReplied hs
  | done p => exact hi.done hs

end

/-- No mark of a handle is cleared, and no waiter woken. -/
def Keeps (s t : Reopening) : Prop :=
  (∀ h x y, s.io h = some x → t.io h = some y → x.needed = true → y.needed = true) ∧
    ∀ q h, s.waiting q = some (h, false) → t.waiting q ≠ some (h, true)

theorem keeps_waiting (hw : t.waiting = s.waiting) :
    ∀ q h, s.waiting q = some (h, false) → t.waiting q ≠ some (h, true) := by
  intro q h hq hq'
  rw [hw, hq] at hq'
  cases hq'

theorem keeps_of_eq (hio : t.io = s.io) (hw : t.waiting = s.waiting) : s.Keeps t := by
  refine ⟨fun h x y hx hy hn => ?_, keeps_waiting hw⟩
  rw [hio, hx] at hy
  cases hy
  exact hn

theorem keeps_setIo {x' : RemoteHandle} (hx : s.io h = some x) (hn : x.needed = true → x'.needed = true) :
    s.Keeps (s.setIo h x') := by
  refine ⟨fun g z y hz hy hneed => ?_, keeps_waiting rfl⟩
  obtain ⟨rfl, rfl⟩ | ⟨-, hold⟩ := of_update_some hy
  · cases hx.symm.trans hz
    exact hn hneed
  · cases hz.symm.trans hold
    exact hneed

theorem keeps_removeIo : s.Keeps (s.removeIo h) := by
  refine ⟨fun g z y hz hy hneed => ?_, keeps_waiting rfl⟩
  cases hz.symm.trans (of_update_none hy).2
  exact hneed

theorem needed_recoveryComplete (hn : x.needed = true) : (x.recoveryComplete status).needed = true := by
  cases status <;> exact hn

theorem keeps_openIo (hs : s.openIo h serverID = some t) : s.Keeps t := by
  unfold Reopening.openIo at hs
  split at hs
  · cases hs
  next hnone =>
  cases hs
  refine ⟨fun g z y hz hy hneed => ?_, keeps_waiting rfl⟩
  have hg : g ≠ h := by
    rintro rfl
    rw [hz] at hnone
    exact hnone rfl
  replace hy : s.io g = some y := (update_of_ne hg _ _).symm.trans hy
  cases hz.symm.trans hy
  exact hneed

theorem keeps_setWaiting {w : Option (Nat × Bool)} (hio : t.io = s.io) (hw : t.waiting = update s.waiting q w)
    (hwoken : ∀ h, w ≠ some (h, true)) : s.Keeps t := by
  refine ⟨fun h x y hx hy hn => ?_, fun q' h hq hq' => ?_⟩
  · rw [hio, hx] at hy
    cases hy
    exact hn
  · rw [hw] at hq'
    obtain ⟨-, hself⟩ | ⟨-, hold⟩ := of_update hq'
    · exact hwoken h hself
    · cases hq.symm.trans hold

theorem keeps_wakeUp : s.Keeps (s.wakeUp q h status) :=
  keeps_setWaiting (q := q) (w := none) rfl rfl fun h hw => by cases hw

theorem keeps_startWait : s.Keeps { s with waiting := update s.waiting q (some (h, false)) } :=
  keeps_setWaiting (q := q) (w := some (h, false)) rfl rfl fun h hw => by cases hw

theorem keeps_waitForRecovery (hs : s.waitForRecovery q h = some t) : s.Keeps t := by
  unfold Reopening.waitForRecovery at hs
  split at hs
  · cases hs
  obtain ⟨x, hx, rfl⟩ := Option.map_eq_some_iff.1 hs
  split
  · exact keeps_wakeUp
  · split
    · exact keeps_startWait
    · exact keeps_wakeUp

theorem keeps_recoveryWait (hs : s.recoveryWait q signalled = some t) : s.Keeps t := by
  obtain ⟨w, -, hs⟩ := bind_eq_some_iff.1 hs
  obtain ⟨x, -, hs⟩ := bind_eq_some_iff.1 hs
  split at hs
  · cases hs
    exact keeps_wakeUp
  split at hs
  · cases hs
  split at hs
  · cases hs
    exact keeps_startWait
  · cases hs
    exact keeps_wakeUp

theorem keeps_reopen (hs : s.reopen p serverID = some t) : s.Keeps t := by
  unfold Reopening.reopen at hs
  split at hs
  · cases hs
  split at hs
  · cases hs
    exact keeps_of_eq rfl rfl
  cases hs
  refine ⟨fun h x y hx hy hn => ?_, keeps_waiting rfl⟩
  obtain ⟨z, hz, rfl⟩ := Option.map_eq_some_iff.1 hy
  cases hx.symm.trans hz
  split <;> exact hn

theorem keeps_reopenIo {setup : Setup} (hs : s.reopenIo p h setup = some t) : s.Keeps t := by
  obtain ⟨r, -, hs⟩ := bind_eq_some_iff.1 hs
  split at hs
  swap
  · cases hs
  obtain ⟨x, hx, hs⟩ := bind_eq_some_iff.1 hs
  split at hs
  · cases hs
  split at hs
  · cases hs
    exact keeps_of_eq rfl rfl
  split at hs
  · cases hs
    exact keeps_of_eq rfl rfl
  · split at hs
    · cases hs
    · cases hs
      exact keeps_removeIo
  · cases hs
    exact keeps_setIo hx id
  · split at hs
    · cases hs
      exact keeps_setIo hx needed_recoveryComplete
    · cases hs

theorem keeps_reopenStream (hs : s.reopenStream p a status = some t) : s.Keeps t := by
  obtain ⟨r, -, hs⟩ := bind_eq_some_iff.1 hs
  split at hs
  swap
  · cases hs
  obtain ⟨y, -, hs⟩ := bind_eq_some_iff.1 hs
  split at hs
  · cases hs
  split at hs
  · cases hs
    exact keeps_of_eq rfl rfl
  split at hs
  · cases hs
    exact keeps_of_eq rfl rfl
  obtain ⟨x, -, hs⟩ := bind_eq_some_iff.1 hs
  split at hs
  · cases hs
    exact keeps_of_eq rfl rfl
  split at hs
  · cases hs
    exact keeps_of_eq rfl rfl
  split at hs
  · cases hs
    exact keeps_of_eq rfl rfl
  split at hs <;> cases hs <;> exact keeps_of_eq rfl rfl

theorem keeps_reply (hs : s.reply p status = some t) : s.Keeps t := by
  obtain ⟨r, -, hs⟩ := bind_eq_some_iff.1 hs
  split at hs
  · obtain ⟨x, hx, rfl⟩ := Option.map_eq_some_iff.1 hs
    exact keeps_setIo hx needed_recoveryComplete
  · next called h out _ =>
    obtain ⟨x, hx, rfl⟩ := Option.map_eq_some_iff.1 hs
    obtain ⟨eff, heff⟩ : ∃ eff, eff = if called = .success then status else called := ⟨_, rfl⟩
    dsimp only
    rw [← heff]
    split
    · exact keeps_of_eq rfl rfl
    · exact keeps_setIo hx needed_recoveryComplete
  · obtain ⟨y, -, rfl⟩ := Option.map_eq_some_iff.1 hs
    unfold Reopening.finishStream
    split <;> exact keeps_of_eq rfl rfl
  · cases hs

theorem keeps_setPhase : s.Keeps (s.setPhase p r phase) := keeps_of_eq rfl rfl

theorem keeps_endScan (hs : s.endScan p status = some t) : s.Keeps t := by
  obtain ⟨r, -, hs⟩ := bind_eq_some_iff.1 hs
  split at hs
  case h_6 => cases hs
  all_goals
    cases hs
    exact keeps_setPhase

theorem keeps_allReplied (hs : s.allReplied p = some t) : s.Keeps t := by
  obtain ⟨r, -, hs⟩ := bind_eq_some_iff.1 hs
  split at hs
  case h_5 =>
    obtain ⟨-, hs⟩ := Option.ite_none_right_eq_some.1 hs
    cases hs
    exact keeps_setPhase
  case h_6 => cases hs
  all_goals
    cases hs
    exact keeps_setPhase

/-- A mark is cleared, and a waiter woken, in a round with the handle's own server alone. -/
def Clears (s t : Reopening) : Prop :=
  (∀ h x y, s.io h = some x → t.io h = some y → x.needed = true → y.needed = false → s.Own h x) ∧
    ∀ q h, s.waiting q = some (h, false) → t.waiting q = some (h, true) → ∃ x, s.io h = some x ∧ s.Own h x

theorem Keeps.clears (hk : s.Keeps t) : s.Clears t := by
  refine ⟨fun h x y hx hy hn hn' => ?_, fun q h hq hq' => absurd hq' (hk.2 q h hq)⟩
  rw [hk.1 h x y hx hy hn] at hn'
  cases hn'

theorem Inv.clears_notify (hi : s.Inv) (hc : s.Careful (.notify p h)) (hs : s.notify p h = some t) : s.Clears t := by
  obtain ⟨r, hr, hs⟩ := bind_eq_some_iff.1 hs
  split at hs
  swap
  · cases hs
  next todo hphase =>
  obtain ⟨x, hx, hs⟩ := bind_eq_some_iff.1 hs
  split at hs
  · cases hs
  split at hs
  · cases hs
    exact keeps_setPhase.clears
  next hvalid =>
  have hv : x.invalid = false := Bool.eq_false_iff.2 hvalid
  have hown : x.complete = true → x.needed = true → s.Own h x := fun hcomp hn =>
    hi.own hr hphase hx hv hcomp (hc r x hr hx hcomp hn).1 (hc r x hr hx hcomp hn).2
  cases hs
  refine ⟨fun g z y hz hy hn hn' => ?_, fun q g hq hq' => ?_⟩
  · obtain ⟨rfl, rfl⟩ | ⟨-, hold⟩ := of_update_some hy
    · cases hx.symm.trans hz
      refine hown ?_ hn
      by_contra hnot
      rw [show x.recoveryNotify.needed = (x.needed && !x.complete) from rfl, hn, Bool.eq_false_iff.2 hnot] at hn'
      cases hn'
    · cases hz.symm.trans hold
      rw [hn] at hn'
      cases hn'
  · obtain ⟨w, hw, heq⟩ := Option.map_eq_some_iff.1 hq'
    cases hq.symm.trans hw
    obtain ⟨-, hb⟩ := Prod.mk.inj heq
    obtain ⟨hcomp, hg⟩ : x.complete = true ∧ (g == h) = true := by simpa using hb
    obtain rfl := eq_of_beq hg
    obtain ⟨z, hz, hn⟩ := hi.waits q g hq
    cases hx.symm.trans hz
    exact ⟨x, hx, hown hcomp hn⟩

theorem Inv.clears (hi : s.Inv) (hc : s.Careful l) (hs : Reopening.step bulkHandles s l = some t) : s.Clears t := by
  cases l with
  | openIo h serverID => exact (keeps_openIo hs).clears
  | closeIo h =>
    obtain ⟨x, hx, hs⟩ := bind_eq_some_iff.1 hs
    split at hs
    · cases hs
    · cases hs
      exact keeps_removeIo.clears
  | openStream a h =>
    replace hs : s.openStream a h = some t := hs
    unfold Reopening.openStream at hs
    split at hs
    · cases hs
    · obtain ⟨x, -, rfl⟩ := Option.map_eq_some_iff.1 hs
      exact (keeps_of_eq rfl rfl).clears
  | closeStream a =>
    cases hs
    exact (keeps_of_eq rfl rfl).clears
  | wantRecovery q h =>
    obtain ⟨x, hx, rfl⟩ := Option.map_eq_some_iff.1 hs
    have hkeep : s.Keeps (s.setIo h { x with needed := true }) := keeps_setIo hx fun _ => rfl
    exact Keeps.clears ⟨hkeep.1, hkeep.2⟩
  | wait q h => exact (keeps_waitForRecovery hs).clears
  | wakeup q => exact (keeps_recoveryWait hs).clears
  | signal q => exact (keeps_recoveryWait hs).clears
  | reopen p serverID => exact (keeps_reopen hs).clears
  | reopenHandles p =>
    obtain ⟨r, -, hs⟩ := bind_eq_some_iff.1 hs
    obtain ⟨-, hs⟩ := Option.ite_none_right_eq_some.1 hs
    cases hs
    exact keeps_setPhase.clears
  | fastBoot p =>
    obtain ⟨r, -, hs⟩ := bind_eq_some_iff.1 hs
    obtain ⟨-, hs⟩ := Option.ite_none_right_eq_some.1 hs
    cases hs
    exact keeps_setPhase.clears
  | reopenIo p h setup => exact (keeps_reopenIo hs).clears
  | reopenStream p a status => exact (keeps_reopenStream hs).clears
  | notify p h => exact hi.clears_notify hc hs
  | skipLocked p a =>
    obtain ⟨r, -, hs⟩ := bind_eq_some_iff.1 hs
    obtain ⟨-, hs⟩ := Option.ite_none_right_eq_some.1 hs
    cases hs
    exact keeps_setPhase.clears
  | endScan p status => exact (keeps_endScan hs).clears
  | reply p status => exact (keeps_reply hs).clears
  | allReplied p => exact (keeps_allReplied hs).clears
  | done p =>
    obtain ⟨r, -, hs⟩ := bind_eq_some_iff.1 hs
    obtain ⟨-, hs⟩ := Option.ite_none_right_eq_some.1 hs
    cases hs
    exact (keeps_of_eq rfl rfl).clears

/-- One round a server; who waits, waits for a handle to be recovered; who marked a handle and was told so has been
    served. -/
structure Sound (s : Reopening) : Prop where
  oneRound : ∀ p q r r', s.round p = some r → s.round q = some r' → r.serverID = r'.serverID → p = q
  waits : ∀ q h, s.waiting q = some (h, false) → ∃ x, s.io h = some x ∧ x.needed = true
  returned : ∀ e ∈ s.returned, e.2.1 = .success → e.2.2 = .served

theorem inv_init : Inv init := by
  refine ⟨?_, ?_, ?_, ?_, ?_, ?_, ?_, ?_, ?_, ?_, ?_, ?_, ?_, ?_⟩
  · intro h x hx
    cases hx
  · intro a y hy
    cases hy
  · intro a y h hy
    cases hy
  · intro p r hr
    cases hr
  · intro p q r r' hr
    cases hr
  · intro p r l hr
    cases hr
  · intro p r l hr
    cases hr
  · intro p r h hr
    cases hr
  · intro h x status hx
    cases hx
  · intro q h x hm
    cases hm
  · intro q h hm
    exact absurd rfl hm
  · intro q h hw
    cases hw
  · intro q h b hw
    cases hw
  · intro e he
    exact absurd he not_mem_nil

theorem recovered_by_own_server (hr : Run (step bulkHandles) Met init s) :
    s.Sound ∧ ∀ l t, s.Met l → step bulkHandles s l = some t → s.Clears t := by
  have hi : s.Inv := hr.invariant (I := Inv) (fun _ _ _ hi hmet hs => hi.step hmet hs) inv_init
  exact ⟨⟨hi.oneRound, hi.waits, hi.returned⟩, fun l t hmet hs => hi.clears hmet.2 hs⟩

/-- A process waits for its handle, the server comes back, and handle and stream are reopened. -/
theorem recovered_after_reboot :
    ∃ s, Run (step false) Met init s ∧ s.Sound ∧ (9, ReopenStatus.success, Mark.served) ∈ s.returned := by
  have h₀ : Run (step false) Met init init := Run.refl _ _
  have hmarked := h₀.free [.openIo 10 1, .openStream 20 10, .wantRecovery 9 10] (by simp [Met, Promised, Careful]) rfl
  have hwaits := hmarked.snoc (l := .wait 9 10) (by exact ⟨nofun, trivial⟩) rfl
  have hsent := hwaits.free [.reopen 1 1, .reopenHandles 1, .reopenIo 1 10 .sent] (by simp [Met, Promised, Careful]) rfl
  have hreplied := hsent.snoc (l := .reply 1 .success)
    (by exact ⟨trivial, fun r hr => by obtain rfl := Option.some.inj hr; trivial⟩) rfl
  have hscanned := hreplied.free [.endScan 1 .success, .reopenStream 1 20 .success, .endScan 1 .success]
    (by simp [Met, Promised, Careful]) rfl
  have hnotified := hscanned.snoc (l := .notify 1 10)
    (by exact ⟨trivial, fun r x hr hx _ _ => by
      cases hr
      cases hx
      exact ⟨rfl, nofun⟩⟩) rfl
  have hrun := hnotified.snoc (l := .wakeup 9) (by exact ⟨trivial, trivial⟩) rfl
  exact ⟨_, hrun, (recovered_by_own_server hrun).1, mem_cons_self⟩

/-- A round with server 1 is given up, the next is with server 2, and a waiter is told its handle is recovered. -/
theorem recovered_by_other_server :
    ∃ s, Run (step false) Promised init s ∧ ¬ s.Sound ∧ (9, ReopenStatus.success, Mark.wanted) ∈ s.returned := by
  have h₀ : Run (step false) Promised init init := Run.refl _ _
  have hmarked := h₀.free [.openIo 10 1, .openStream 20 10, .wantRecovery 9 10] (by simp [Promised]) rfl
  have hwaits := hmarked.snoc (l := .wait 9 10) (by nofun) rfl
  have hgone := hwaits.free [.reopen 1 1, .reopenHandles 1, .reopenIo 1 10 .sent, .reply 1 .success, .endScan 1 .success,
    .reopenStream 1 20 .rpcTimeout, .done 1] (by simp [Promised]) rfl
  have hrun := hgone.free [.reopen 1 2, .reopenHandles 1, .reopenIo 1 10 .sent, .endScan 1 .success,
    .reopenStream 1 20 .success, .endScan 1 .success, .notify 1 10, .wakeup 9] (by simp [Promised]) rfl
  refine ⟨_, hrun, fun hsound => ?_, mem_cons_self⟩
  have hserved := hsound.returned (9, .success, .wanted) mem_cons_self rfl
  cases hserved

end Reopening
end SpriteKernel.Fsutil
