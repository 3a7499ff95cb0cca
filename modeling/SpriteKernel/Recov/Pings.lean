import Mathlib.Data.List.Nodup
import SpriteKernel.Recov.CrashRounds

/- Who is pinged. A host with call-backs is put on the ping list when they are registered and is to
   stay there; `Recov_Proc` takes hosts off that nobody is interested in, in two steps with no
   monitor held between them. -/
namespace SpriteKernel.Recov

open Function List

/-- The list holds one element for each call-back that is registered, with its count. -/
structure Refs (l : List NotifyElement) (balance : Nat → Nat → Nat) : Prop where
  once : (l.map fun e => (e.proc, e.data)).Nodup
  count : ∀ e ∈ l, e.refCount = balance e.proc e.data
  listed : ∀ proc data, 0 < balance proc data ↔ ∃ e ∈ l, e.isFor proc data

section refs
variable {proc data : Nat} {l : List NotifyElement} {e : NotifyElement} {balance : Nat → Nat → Nat}

theorem isFor_iff : e.isFor proc data = true ↔ e.proc = proc ∧ e.data = data := by
  simp [NotifyElement.isFor]

theorem isFor_tail (hn : ((e :: l).map fun e => (e.proc, e.data)).Nodup) (he : e.isFor proc data = true) :
    ∀ x ∈ l, x.isFor proc data = false := by
  intro x hx
  rw [map_cons, nodup_cons] at hn
  apply Bool.eq_false_iff.2
  intro hfor
  obtain ⟨rfl, rfl⟩ := isFor_iff.1 he
  obtain ⟨h₁, h₂⟩ := isFor_iff.1 hfor
  exact hn.1 (mem_map.2 ⟨x, hx, by rw [h₁, h₂]⟩)

theorem addRef_keys : (addRef proc data l).map (fun e => (e.proc, e.data)) = l.map fun e => (e.proc, e.data) := by
  induction l with
  | nil => rfl
  | cons e l ih =>
    unfold addRef
    split
    · rfl
    · rw [map_cons, ih, map_cons]

theorem addRef_eq_map (hn : (l.map fun e => (e.proc, e.data)).Nodup) :
    addRef proc data l = l.map fun e => if e.isFor proc data then { e with refCount := e.refCount + 1 } else e := by
  induction l with
  | nil => rfl
  | cons e l ih =>
    have htail := (nodup_cons.1 (map_cons ▸ hn)).2
    unfold addRef
    rw [map_cons]
    split
    · next he =>
      have hrest : ∀ x ∈ l, (if x.isFor proc data then { x with refCount := x.refCount + 1 } else x) = x := by
        intro x hx
        rw [isFor_tail hn he x hx]
        rfl
      rw [map_congr_left hrest, map_id']
    · rw [ih htail]

theorem dropRef_keys : List.Sublist ((dropRef proc data l).map fun e => (e.proc, e.data)) (l.map fun e => (e.proc, e.data)) := by
  induction l with
  | nil => exact List.Sublist.refl _
  | cons e l ih =>
    unfold dropRef
    split
    · split
      · exact sublist_cons_self _ _
      · exact List.Sublist.refl _
    · exact ih.cons_cons _

theorem mem_dropRef (hn : (l.map fun e => (e.proc, e.data)).Nodup) {x : NotifyElement} : x ∈ dropRef proc data l ↔
    ∃ e ∈ l, if e.isFor proc data then 1 < e.refCount ∧ x = { e with refCount := e.refCount - 1 } else x = e := by
  induction l with
  | nil => simp [dropRef]
  | cons e l ih =>
    have htail := (nodup_cons.1 (map_cons ▸ hn)).2
    have hsplit : (∃ y ∈ e :: l, if y.isFor proc data then 1 < y.refCount ∧ x = { y with refCount := y.refCount - 1 } else x = y) ↔
        (if e.isFor proc data then 1 < e.refCount ∧ x = { e with refCount := e.refCount - 1 } else x = e) ∨
          ∃ y ∈ l, if y.isFor proc data then 1 < y.refCount ∧ x = { y with refCount := y.refCount - 1 } else x = y := by
      simp only [mem_cons, or_and_right, exists_or, exists_eq_left]
    rw [hsplit]
    unfold dropRef
    by_cases he : e.isFor proc data = true
    · have hrest : (∃ y ∈ l, if y.isFor proc data then 1 < y.refCount ∧ x = { y with refCount := y.refCount - 1 } else x = y) ↔ x ∈ l := by
        constructor
        · rintro ⟨y, hy, h⟩
          rw [isFor_tail hn he y hy] at h
          exact (show x = y from h) ▸ hy
        · intro hx
          refine ⟨x, hx, ?_⟩
          rw [isFor_tail hn he x hx]
          rfl
      rw [if_pos he, if_pos he, hrest]
      by_cases hz : e.refCount - 1 ≤ 0
      · rw [if_pos hz]
        exact ⟨.inr, fun h => h.resolve_left fun h => by omega⟩
      · rw [if_neg hz, mem_cons]
        refine or_congr_left ⟨fun h => ⟨by omega, h⟩, And.right⟩
    · rw [if_neg he, if_neg he, mem_cons, ih htail]

theorem Refs.add (h : Refs l balance) (hin : ∃ e ∈ l, e.isFor proc data) :
    Refs (addRef proc data l) fun a b => if a = proc ∧ b = data then balance a b + 1 else balance a b := by
  refine ⟨by rw [addRef_keys]; exact h.once, ?_, fun a b => ?_⟩
  · intro e he
    rw [addRef_eq_map h.once] at he
    obtain ⟨x, hx, rfl⟩ := mem_map.1 he
    have hcount := h.count x hx
    by_cases hfor : x.isFor proc data = true
    · rw [if_pos hfor, if_pos (isFor_iff.1 hfor)]
      simp [hcount]
    · rw [if_neg hfor, if_neg fun hk => hfor (isFor_iff.2 hk)]
      exact hcount
  · have hkey : (∃ e ∈ addRef proc data l, e.isFor a b) ↔ ∃ e ∈ l, e.isFor a b := by
      rw [addRef_eq_map h.once]
      simp only [mem_map, exists_exists_and_eq_and, isFor_iff]
      refine exists_congr fun x => and_congr_right fun _ => ?_
      split <;> rfl
    rw [hkey, ← h.listed]
    split
    · next hk =>
      obtain ⟨rfl, rfl⟩ := hk
      exact iff_of_true (Nat.succ_pos _) ((h.listed a b).2 hin)
    · rfl

theorem Refs.new (h : Refs l balance) (hno : ¬ ∃ e ∈ l, e.isFor proc data) :
    Refs (⟨proc, data, 1⟩ :: l) fun a b => if a = proc ∧ b = data then balance a b + 1 else balance a b := by
  have hzero : balance proc data = 0 := Nat.eq_zero_of_not_pos fun hpos => hno ((h.listed proc data).1 hpos)
  refine ⟨?_, ?_, fun a b => ?_⟩
  · rw [map_cons, nodup_cons]
    refine ⟨fun hin => ?_, h.once⟩
    obtain ⟨x, hx, hk⟩ := mem_map.1 hin
    exact hno ⟨x, hx, isFor_iff.2 (Prod.mk.inj hk)⟩
  · intro e he
    obtain rfl | he := mem_cons.1 he
    · simp [hzero]
    · rw [if_neg fun hk => hno ⟨e, he, isFor_iff.2 hk⟩]
      exact h.count e he
  · split
    · next hk =>
      obtain ⟨rfl, rfl⟩ := hk
      exact iff_of_true (Nat.succ_pos _) ⟨_, mem_cons_self, isFor_iff.2 ⟨rfl, rfl⟩⟩
    · next hk =>
      rw [h.listed]
      simp only [mem_cons, or_and_right, exists_or, exists_eq_left, isFor_iff]
      exact ⟨.inr, fun hor => hor.resolve_left fun ⟨h₁, h₂⟩ => hk ⟨h₁.symm, h₂.symm⟩⟩

theorem Refs.drop (h : Refs l balance) :
    Refs (dropRef proc data l) fun a b => if a = proc ∧ b = data then balance a b - 1 else balance a b := by
  refine ⟨h.once.sublist dropRef_keys, ?_, fun a b => ?_⟩
  · intro x hx
    obtain ⟨e, he, hif⟩ := (mem_dropRef h.once).1 hx
    have hcount := h.count e he
    by_cases hfor : e.isFor proc data = true
    · rw [if_pos hfor] at hif
      obtain ⟨hpos, rfl⟩ := hif
      rw [if_pos (isFor_iff.1 hfor)]
      show e.refCount - 1 = ((balance e.proc e.data - 1 : Nat) : Int)
      omega
    · rw [if_neg hfor] at hif
      subst hif
      rw [if_neg fun hk => hfor (isFor_iff.2 hk)]
      exact hcount
  · have hmem : (∃ x ∈ dropRef proc data l, x.isFor a b) ↔
        ∃ e ∈ l, e.isFor a b ∧ (e.isFor proc data → 1 < e.refCount) := by
      constructor
      · rintro ⟨x, hx, hab⟩
        obtain ⟨e, he, hif⟩ := (mem_dropRef h.once).1 hx
        by_cases hfor : e.isFor proc data = true
        · rw [if_pos hfor] at hif
          obtain ⟨hpos, rfl⟩ := hif
          exact ⟨e, he, hab, fun _ => hpos⟩
        · rw [if_neg hfor] at hif
          exact ⟨e, he, hif ▸ hab, fun hk => absurd hk hfor⟩
      · rintro ⟨e, he, hab, himp⟩
        by_cases hfor : e.isFor proc data = true
        · refine ⟨{ e with refCount := e.refCount - 1 }, (mem_dropRef h.once).2 ⟨e, he, ?_⟩, hab⟩
          rw [if_pos hfor]
          exact ⟨himp hfor, rfl⟩
        · refine ⟨e, (mem_dropRef h.once).2 ⟨e, he, ?_⟩, hab⟩
          rw [if_neg hfor]
    rw [hmem]
    split
    · next hk =>
      obtain ⟨rfl, rfl⟩ := hk
      constructor
      · intro hpos
        obtain ⟨e, he, hab⟩ := (h.listed a b).1 (by omega)
        obtain ⟨rfl, rfl⟩ := isFor_iff.1 hab
        refine ⟨e, he, hab, fun _ => ?_⟩
        have := h.count e he
        omega
      · rintro ⟨e, he, hab, himp⟩
        have hcount := h.count e he
        have hmore := himp hab
        obtain ⟨rfl, rfl⟩ := isFor_iff.1 hab
        omega
    · next hk =>
      rw [h.listed]
      refine exists_congr fun e => and_congr_right fun _ => ⟨fun hab => ⟨hab, fun hfor => ?_⟩, And.left⟩
      obtain ⟨rfl, rfl⟩ := isFor_iff.1 hab
      exact absurd (isFor_iff.1 hfor) hk

end refs

namespace Peer
variable {p q : Peer} {f : HostFlags}

structure PingPart where
  rebootList : List NotifyElement
  balance : Nat → Nat → Nat
  flag : Bool

def pingPart (p : Peer) : PingPart := ⟨p.rebootList, p.balance, p.flags.pingingHost⟩

theorem rebootList_setFlags : (p.setFlags f).rebootList = p.rebootList := by
  unfold rebootList setFlags
  cases p.host <;> rfl

theorem pingPart_setFlags (h : f.pingingHost = p.flags.pingingHost) : (p.setFlags f).pingPart = p.pingPart := by
  unfold pingPart
  rw [flags_setFlags_of HostFlags.pingingHost h, rebootList_setFlags]
  rfl

theorem pingPart_find (f : HostFlags) (h : f.pingingHost = false) (bootID : UInt32) :
    (p.find f bootID).pingPart = p.pingPart := by
  unfold pingPart find flags rebootList
  cases p.host with
  | none => simp [RecovHostState.init, HostFlags.unknown, h]
  | some x => rfl

theorem pingPart_upDown (b : Bool) : (p.upDown b).pingPart = p.pingPart := by
  unfold upDown
  dsimp only
  split
  · split
    · exact pingPart_setFlags rfl
    · exact pingPart_setFlags rfl
  · rfl
  · split
    · rfl
    · exact pingPart_setFlags rfl
  · split
    · exact pingPart_setFlags rfl
    · exact pingPart_setFlags rfl
  · rfl

theorem pingPart_initiateReboot : p.initiateReboot.pingPart = p.pingPart := by
  unfold initiateReboot
  dsimp only
  split
  · refine Eq.trans ?_ (pingPart_setFlags (f := { p.flags with wantRecovery := false, rebootCallBacks := true }) rfl)
    rfl
  · rfl

theorem pingPart_returned (a : AliveArgs) : (p.returned a).pingPart = p.pingPart := by
  unfold returned
  split <;> rfl

theorem pingPart_awaitCrashRecovery (a : AliveArgs) : (p.awaitCrashRecovery a).pingPart = p.pingPart := by
  unfold awaitCrashRecovery
  split
  · rfl
  · unfold markUp
    rw [pingPart_returned, pingPart_initiateReboot, pingPart_setFlags (by rfl), pingPart_upDown]

theorem pingPart_heard (bootID : UInt32) (now : Nat) : (p.heard bootID now).pingPart = p.pingPart := by
  have hfind := pingPart_find (p := p) { HostFlags.unknown with alive := true } rfl bootID
  obtain ⟨q, hq⟩ : ∃ q, q = p.find { HostFlags.unknown with alive := true } bootID := ⟨_, rfl⟩
  have hstamp : ({ q with host := q.host.map fun h => { h with time := now, bootID := bootID } } : Peer).pingPart = q.pingPart := by
    unfold pingPart flags rebootList
    cases q.host <;> simp
  have hund : ∀ u : Peer, u.crashUndetected.pingPart = u.pingPart := by
    intro u
    unfold crashUndetected
    dsimp only
    split
    · exact pingPart_setFlags (p := u.crashDetected) rfl
    · exact pingPart_setFlags (p := u.crashDetected) rfl
  unfold heard
  dsimp only
  rw [← hq]
  rw [← hq] at hfind
  split
  · exact hstamp.trans hfind
  · split
    · rw [hund]
      exact hstamp.trans hfind
    · exact hstamp.trans hfind

theorem pingPart_hostAlive (a : AliveArgs) (now : Nat) (shut : Bool) : (p.hostAlive a now shut).pingPart = p.pingPart := by
  unfold hostAlive
  split
  · exact pingPart_returned a
  · dsimp only
    split
    · rw [pingPart_returned, pingPart_heard]
    · rw [pingPart_awaitCrashRecovery, pingPart_heard]

theorem pingPart_hostDead : p.hostDead.pingPart = p.pingPart := by
  unfold hostDead
  split
  · exact pingPart_find _ rfl 0
  · next x hx =>
    have hflags : p.flags = x.flags := by simp [flags, hx]
    dsimp only
    split
    · exact pingPart_setFlags (p := p.crashDetected) (by rw [show p.crashDetected.flags = x.flags from hflags])
    · exact pingPart_setFlags (p := p.crashDetected) (by rw [show p.crashDetected.flags = x.flags from hflags])
    · exact pingPart_setFlags (p := p.crashDetected) (by rw [show p.crashDetected.flags = x.flags from hflags])
    · rfl

/-- Registrations and the ping process apart, nothing that happens to a host counts for the pings. -/
theorem pingPart_step {shut : Bool} {l : PeerStep} (hs : p.step shut l = some q)
    (hreg : ∀ a b, l ≠ .rebootRegister a b) (hun : ∀ a b, l ≠ .rebootUnRegister a b) (hcheck : ∀ n, l ≠ .checkHost n) :
    q.pingPart = p.pingPart := by
  cases l with
  | hostAlive a now =>
    cases hs
    exact pingPart_hostAlive a now shut
  | wake i =>
    replace hs : p.wake i shut = some q := hs
    unfold wake at hs
    split at hs
    · cases hs
      split
      · rfl
      · exact pingPart_awaitCrashRecovery (p := { p with sleepers := p.sleepers.eraseIdx i }) _
    · cases hs
  | hostDead noTimeouts =>
    cases hs
    cases noTimeouts with
    | false => exact pingPart_hostDead
    | true => rfl
  | crashBegin i =>
    replace hs : p.crashBegin i = some q := hs
    unfold crashBegin at hs
    split at hs
    · cases hs
      rfl
    · cases hs
  | markRecoveryComplete i =>
    replace hs : p.markRecoveryComplete i = some q := hs
    unfold markRecoveryComplete at hs
    split at hs
    · cases hs
      exact pingPart_setFlags (by rfl)
    · cases hs
  | getRebootList i =>
    replace hs : p.getRebootList i = some q := hs
    unfold getRebootList at hs
    split at hs
    · cases hs
      rfl
    · cases hs
  | callBacksDone i =>
    rw [(callBacksDone_spec hs).2, pingPart_setFlags (by rw [flags_roundEnded]; split <;> rfl)]
    unfold pingPart
    rw [flags_roundEnded]
    unfold rebootList roundEnded
    cases p.host <;> rfl
  | rebootRegister proc data => exact absurd rfl (hreg proc data)
  | rebootUnRegister proc data => exact absurd rfl (hun proc data)
  | checkHost now => exact absurd rfl (hcheck now)

end Peer
namespace HostTable
open Transition
variable {P : RecovParams} {s t : HostTable} {h : Nat} {l : List RecovPing}

def numActive (l : List RecovPing) : Int := (l.countP RecovPing.active : Nat)

theorem activate_none (ha : activate h l = none) : h ∉ l.map RecovPing.spriteID := by
  induction l with
  | nil => nofun
  | cons e l ih =>
    unfold activate at ha
    split at ha
    · cases ha
    · next hne =>
      rw [map_cons, mem_cons]
      rintro (heq | hin)
      · exact hne heq.symm
      · exact ih (Option.map_eq_none_iff.1 ha) hin

theorem activate_some {l l' : List RecovPing} {d : Int} (ha : activate h l = some (l', d)) :
    l'.map RecovPing.spriteID = l.map RecovPing.spriteID ∧ ⟨h, true⟩ ∈ l' ∧ (∀ g, ⟨g, true⟩ ∈ l → ⟨g, true⟩ ∈ l') ∧
      numActive l' = numActive l + d := by
  induction l generalizing l' d with
  | nil => cases ha
  | cons e l ih =>
    obtain ⟨g, b⟩ := e
    unfold activate at ha
    split at ha
    · next heq =>
      cases ha
      subst heq
      refine ⟨rfl, mem_cons_self, fun x hx => ?_, ?_⟩
      · obtain hx | hx := mem_cons.1 hx
        · rw [(RecovPing.mk.inj hx).1]
          exact mem_cons_self
        · exact mem_cons_of_mem _ hx
      · cases b <;> simp [numActive]
    · obtain ⟨⟨m, c⟩, hm, heq⟩ := Option.map_eq_some_iff.1 ha
      cases heq
      obtain ⟨hkeys, hin, hkeep, hnum⟩ := ih hm
      refine ⟨congrArg (g :: ·) hkeys, mem_cons_of_mem _ hin, fun x hx => ?_, ?_⟩
      · obtain hx | hx := mem_cons.1 hx
        · rw [hx]
          exact mem_cons_self
        · exact mem_cons_of_mem _ (hkeep x hx)
      · unfold numActive at hnum ⊢
        rw [countP_cons, countP_cons]
        push_cast
        omega

/-- Interest in a host is kept in its state and on the ping list, with one entry a host. -/
structure PingSound (s : HostTable) : Prop where
  listed : ∀ h, (s.peers h).rebootList ≠ [] → ⟨h, true⟩ ∈ s.pingList ∧ (s.peers h).flags.pingingHost = true
  once : (s.pingList.map RecovPing.spriteID).Nodup
  counted : s.numHostsPinged = numActive s.pingList
  balanced : ∀ h, Refs (s.peers h).rebootList (s.peers h).balance

/-- A host with call-backs is checked once heard of, or missed; none is registered again as an entry is deactivated. -/
def Interested (_P : RecovParams) (s : HostTable) : RecovStep → Prop
  | .checkHost _ => ∀ i e, s.proc = .check i → s.pingList[i]? = some e → (s.peers e.spriteID).rebootList ≠ [] →
      (s.peers e.spriteID).flags.alive = true ∨ (s.peers e.spriteID).flags.booting = true ∨
        (s.peers e.spriteID).flags.dead = true
  | .deactivate => ∀ i e, s.proc = .deactivate i → s.pingList[i]? = some e → (s.peers e.spriteID).rebootList = []
  | .host _ _ | .rebootRegister _ _ _ | .firstHostToCheck | .nextHostToCheck | .shutDown => True

theorem PingSound.of_peers (hi : PingSound s) (hl : t.pingList = s.pingList) (hn : t.numHostsPinged = s.numHostsPinged)
    (hpeers : ∀ h, ((t.peers h).rebootList ≠ [] → (s.peers h).rebootList ≠ [] ∧
        (t.peers h).flags.pingingHost = (s.peers h).flags.pingingHost) ∧
      Refs (t.peers h).rebootList (t.peers h).balance) : PingSound t where
  listed h hne := by
    obtain ⟨hne', hflag⟩ := (hpeers h).1 hne
    obtain ⟨hin, hset⟩ := hi.listed h hne'
    exact ⟨hl ▸ hin, hflag.trans hset⟩
  once := hl ▸ hi.once
  counted := by rw [hn, hl, hi.counted]
  balanced h := (hpeers h).2

theorem PingSound.same (hi : PingSound s) (hl : t.pingList = s.pingList) (hn : t.numHostsPinged = s.numHostsPinged)
    (hpeers : ∀ h, (t.peers h).pingPart = (s.peers h).pingPart) : PingSound t := by
  refine hi.of_peers hl hn fun h => ?_
  have hlist : (t.peers h).rebootList = (s.peers h).rebootList := congrArg Peer.PingPart.rebootList (hpeers h)
  have hbal : (t.peers h).balance = (s.peers h).balance := congrArg Peer.PingPart.balance (hpeers h)
  have hflag : (t.peers h).flags.pingingHost = (s.peers h).flags.pingingHost := congrArg Peer.PingPart.flag (hpeers h)
  rw [hlist, hbal]
  exact ⟨fun hne => ⟨hne, hflag⟩, hi.balanced h⟩

theorem rebootList_find (p : Peer) : (p.find .unknown 0).rebootList = p.rebootList := by
  unfold Peer.find Peer.rebootList
  cases p.host <;> rfl

theorem flags_find (p : Peer) : (p.find .unknown 0).flags = p.flags := by
  unfold Peer.find Peer.flags
  cases p.host <;> rfl

theorem rebootList_setRebootList {p : Peer} (hp : p.host ≠ none) (l : List NotifyElement) :
    (p.setRebootList l).rebootList = l := by
  obtain ⟨x, hx⟩ := Option.ne_none_iff_exists'.1 hp
  simp [Peer.rebootList, Peer.setRebootList, hx]

theorem flags_setRebootList (p : Peer) (l : List NotifyElement) : (p.setRebootList l).flags = p.flags := by
  unfold Peer.flags Peer.setRebootList
  cases p.host <;> rfl

theorem PingSound.rebootUnRegister (hi : PingSound s) (proc data : Nat) :
    PingSound (s.setPeer h ((s.peers h).rebootUnRegister proc data)) := by
  refine hi.of_peers rfl rfl fun g => ?_
  by_cases hg : g = h
  · subst hg
    rw [show (s.setPeer g ((s.peers g).rebootUnRegister proc data)).peers g = (s.peers g).rebootUnRegister proc data from
      update_self _ _ _]
    have hlist : ((s.peers g).rebootUnRegister proc data).rebootList = dropRef proc data (s.peers g).rebootList := by
      refine (rebootList_setRebootList (p := (s.peers g).find .unknown 0) (by simp) _).trans ?_
      rw [rebootList_find]
    have hflag : ((s.peers g).rebootUnRegister proc data).flags = (s.peers g).flags :=
      (flags_setRebootList _ _).trans (flags_find _)
    rw [hlist, hflag]
    refine ⟨fun hne => ⟨fun hnil => hne ?_, rfl⟩, (hi.balanced g).drop⟩
    rw [hnil]
    rfl
  · rw [show (s.setPeer h ((s.peers h).rebootUnRegister proc data)).peers g = s.peers g from update_of_ne hg _ _]
    exact ⟨fun hne => ⟨hne, rfl⟩, hi.balanced g⟩

/-- The host is on the ping list afterwards, with an active entry, and the other entries are as they were. -/
theorem addHostToPing_spec (s : HostTable) (honce : (s.pingList.map RecovPing.spriteID).Nodup) :
    ⟨h, true⟩ ∈ (s.addHostToPing h).pingList ∧ (∀ g, ⟨g, true⟩ ∈ s.pingList → ⟨g, true⟩ ∈ (s.addHostToPing h).pingList) ∧
      ((s.addHostToPing h).pingList.map RecovPing.spriteID).Nodup ∧
      (s.addHostToPing h).numHostsPinged - s.numHostsPinged = numActive (s.addHostToPing h).pingList - numActive s.pingList := by
  unfold addHostToPing
  split
  · next l d ha =>
    obtain ⟨hkeys, hin, hkeep, hnum⟩ := activate_some ha
    refine ⟨hin, hkeep, hkeys ▸ honce, ?_⟩
    dsimp only
    omega
  · next ha =>
    refine ⟨by simp, fun g hg => mem_append_left _ hg, ?_, ?_⟩
    · rw [map_append]
      refine List.Nodup.append honce (nodup_singleton _) fun x hx hx' => ?_
      rw [mem_singleton.1 hx'] at hx
      exact activate_none ha hx
    · simp only [numActive, countP_append, countP_singleton, if_true]
      omega

theorem PingSound.rebootRegister (hi : PingSound s) (proc data : Nat) :
    PingSound ((s.setPeer h ((s.peers h).rebootRegister proc data)).addHostToPing h) := by
  obtain ⟨u, hu⟩ : ∃ u, u = s.setPeer h ((s.peers h).rebootRegister proc data) := ⟨_, rfl⟩
  have hself : u.peers h = (s.peers h).rebootRegister proc data := by
    rw [hu]
    exact update_self _ _ _
  have hother : ∀ g, g ≠ h → u.peers g = s.peers g := by
    intro g hg
    rw [hu]
    exact update_of_ne hg _ _
  have hlist : u.pingList = s.pingList := by rw [hu]; rfl
  have hnum : u.numHostsPinged = s.numHostsPinged := by rw [hu]; rfl
  rw [← hu]
  obtain ⟨hin, hkeep, honce, hcount⟩ := addHostToPing_spec (h := h) u (hlist ▸ hi.once)
  have hreg : (u.peers h).flags.pingingHost = true ∧ Refs (u.peers h).rebootList (u.peers h).balance := by
    rw [hself]
    obtain ⟨v, hv⟩ : ∃ v, v = (s.peers h).find .unknown 0 := ⟨_, rfl⟩
    have hvhost : v.host ≠ none := by simp [hv]
    have hvlist : v.rebootList = (s.peers h).rebootList := by rw [hv, rebootList_find]
    unfold Peer.rebootRegister
    rw [← hv]
    constructor
    · rw [Peer.flags_setFlags (by simpa [Peer.setRebootList] using hvhost)]
    · rw [Peer.rebootList_setFlags]
      show Refs (v.setRebootList _).rebootList _
      rw [rebootList_setRebootList hvhost, hvlist]
      have hbal := hi.balanced h
      split
      · next hany => exact hv ▸ hbal.add (any_eq_true.1 hany)
      · next hany => exact hv ▸ hbal.new fun hex => hany (any_eq_true.2 hex)
  constructor
  · intro g hne
    rw [peers_addHostToPing] at hne ⊢
    by_cases hg : g = h
    · subst hg
      exact ⟨hin, hreg.1⟩
    · rw [hother g hg] at hne ⊢
      obtain ⟨hgin, hset⟩ := hi.listed g hne
      exact ⟨hkeep g (hlist ▸ hgin), hset⟩
  · exact honce
  · have := hi.counted
    rw [← hlist, ← hnum] at this
    omega
  · intro g
    rw [peers_addHostToPing]
    by_cases hg : g = h
    · subst hg
      exact hreg.2
    · rw [hother g hg]
      exact hi.balanced g

theorem PingSound.checkHost (hi : PingSound s) (now : Nat)
    (hc : (s.peers h).rebootList ≠ [] → (s.peers h).flags.alive = true ∨ (s.peers h).flags.booting = true ∨
      (s.peers h).flags.dead = true) : PingSound (s.setPeer h ((s.peers h).checkHost now).2) := by
  refine hi.of_peers rfl rfl fun g => ?_
  by_cases hg : g = h
  · subst hg
    rw [show (s.setPeer g ((s.peers g).checkHost now).2).peers g = ((s.peers g).checkHost now).2 from
      update_self _ _ _]
    have hlist : ((s.peers g).checkHost now).2.rebootList = (s.peers g).rebootList := by
      obtain h | h := Peer.checkHost_peer (s.peers g) now
      · rw [h]
      · rw [h, Peer.rebootList_setFlags]
    have hbal : ((s.peers g).checkHost now).2.balance = (s.peers g).balance := by
      obtain h | h := Peer.checkHost_peer (s.peers g) now <;> rw [h]
      rfl
    rw [hlist, hbal]
    refine ⟨fun hne => ⟨hne, ?_⟩, hi.balanced g⟩
    -- the host has call-backs and a state, so the answer is not that nobody is interested
    have hsame : ((s.peers g).checkHost now).2 = s.peers g := by
      have hstate := hc hne
      unfold Peer.checkHost
      unfold Peer.rebootList at hne
      unfold Peer.flags at hstate
      cases hhost : (s.peers g).host with
      | none => simp [hhost] at hne
      | some x =>
        rw [hhost] at hne hstate
        have hx : x.rebootList.isEmpty = false := by simpa using hne
        dsimp only
        rw [hx, if_neg Bool.false_ne_true]
        rw [if_neg]
        split
        · split <;> decide
        · next hup =>
          have hdead : x.flags.dead = true := by
            simp only [Option.map_some, Option.getD_some] at hstate
            rcases hstate with ha | hb | hd
            · simp [ha] at hup
            · simp [hb] at hup
            · exact hd
          rw [if_pos hdead]
          decide
    rw [hsame]
  · rw [show (s.setPeer h ((s.peers h).checkHost now).2).peers g = s.peers g from update_of_ne hg _ _]
    exact ⟨fun hne => ⟨hne, rfl⟩, hi.balanced g⟩

theorem set_split {i : Nat} {e : RecovPing} (he : l[i]? = some e) :
    ∃ l₁ l₂, l = l₁ ++ e :: l₂ ∧ ∀ x, l.set i x = l₁ ++ x :: l₂ := by
  induction l generalizing i with
  | nil => cases he
  | cons a l ih =>
    cases i with
    | zero =>
      cases he
      exact ⟨[], l, rfl, fun _ => rfl⟩
    | succ i =>
      obtain ⟨l₁, l₂, rfl, hset⟩ := ih he
      exact ⟨a :: l₁, l₂, rfl, fun x => congrArg (a :: ·) (hset x)⟩

theorem PingSound.deactivate (hi : PingSound s) {i : Nat}
    (hc : ∀ e, s.pingList[i]? = some e → (s.peers e.spriteID).rebootList = []) : PingSound (s.deactivate i) := by
  unfold HostTable.deactivate
  split
  · next h he =>
    obtain ⟨l₁, l₂, hl, hset⟩ := set_split he
    have honce := hi.once
    have hcount := hi.counted
    rw [hl] at honce hcount
    constructor
    · intro g hne
      obtain ⟨hin, hflag⟩ := hi.listed g hne
      refine ⟨?_, hflag⟩
      rw [hset]
      rw [hl] at hin
      obtain hin | hin := mem_append.1 hin
      · exact mem_append_left _ hin
      · obtain heq | hin := mem_cons.1 hin
        · obtain rfl := (RecovPing.mk.inj heq).1
          exact absurd (hc _ he) hne
        · exact mem_append_right _ (mem_cons_of_mem _ hin)
    · rw [hset, map_append, map_cons]
      rw [map_append, map_cons] at honce
      exact honce
    · rw [hset, hcount]
      simp only [numActive, countP_append, countP_cons]
      simp
      omega
    · exact hi.balanced
  · exact hi

theorem PingSound.step (hi : PingSound s) {l : RecovStep} (hc : Interested P s l) (hs : step P s l = some t) : PingSound t := by
  cases l with
  | host h pl =>
    simp only [HostTable.step] at hs
    split at hs
    · next hhap =>
      obtain ⟨q, hq, rfl⟩ := Option.map_eq_some_iff.1 hs
      by_cases hun : ∃ a b, pl = .rebootUnRegister a b
      · obtain ⟨a, b, rfl⟩ := hun
        cases hq
        exact hi.rebootUnRegister a b
      · have hpart := Peer.pingPart_step hq (by rintro a b rfl; exact absurd hhap (fun h => by cases h))
          (fun a b he => hun ⟨a, b, he⟩) (by rintro n rfl; exact absurd hhap (fun h => by cases h))
        refine hi.same rfl rfl fun g => ?_
        by_cases hg : g = h
        · subst hg
          rw [show (s.setPeer g q).peers g = q from update_self _ _ _]
          exact hpart
        · rw [show (s.setPeer h q).peers g = s.peers g from update_of_ne hg _ _]
    · cases hs
  | rebootRegister h proc data =>
    simp only [HostTable.step] at hs
    split at hs
    · obtain ⟨u, hu, rfl⟩ := Option.map_eq_some_iff.1 hs
      obtain ⟨q, hq, rfl⟩ := Option.map_eq_some_iff.1 hu
      cases hq
      exact hi.rebootRegister proc data
    · cases hs
  | firstHostToCheck =>
    simp only [HostTable.step] at hs
    split at hs
    · cases hs
      exact hi.same rfl rfl fun _ => rfl
    · cases hs
  | checkHost now =>
    simp only [HostTable.step] at hs
    split at hs
    · next i hproc =>
      obtain ⟨e, he, hs⟩ := Option.bind_eq_some_iff.1 hs
      obtain ⟨u, hu, rfl⟩ := Option.map_eq_some_iff.1 hs
      obtain ⟨q, hq, rfl⟩ := Option.map_eq_some_iff.1 hu
      cases hq
      exact (hi.checkHost now (hc i e hproc he)).same rfl rfl fun _ => rfl
    · cases hs
  | deactivate =>
    simp only [HostTable.step] at hs
    split at hs
    · next i hproc =>
      cases hs
      exact (hi.deactivate (hc i · hproc)).same rfl rfl fun _ => rfl
    · cases hs
  | nextHostToCheck =>
    simp only [HostTable.step] at hs
    split at hs
    · cases hs
      exact hi.same rfl rfl fun _ => rfl
    · cases hs
  | shutDown =>
    cases hs
    exact hi.same rfl rfl fun _ => rfl

theorem pings_of_run (hr : Run (step P) (Interested P) HostTable.init t) : PingSound t := by
  refine hr.invariant (I := PingSound) (fun s l u hi hc hs => hi.step hc hs) ⟨?_, nodup_nil, rfl, ?_⟩
  · exact fun h hne => absurd rfl hne
  · exact fun h => ⟨nodup_nil, nofun, fun _ _ => ⟨fun hpos => absurd hpos (Nat.lt_irrefl 0), nofun⟩⟩

/-- A host is registered, heard of and checked. -/
theorem pings_of_watch : ∃ t, Run (step ⟨0, 9⟩) (Interested ⟨0, 9⟩) HostTable.init t ∧
    (t.peers 1).rebootList = [⟨7, 0, 1⟩] ∧ t.proc = .next 0 ∧ PingSound t := by
  have h₀ : Run (step ⟨0, 9⟩) (Interested ⟨0, 9⟩) HostTable.init HostTable.init := Run.refl _ _
  have h₁ := h₀.snoc (l := .rebootRegister 1 7 0) (by trivial) rfl
  have h₂ := h₁.snoc (l := request 1) (by trivial) rfl
  have h₃ := h₂.snoc (l := .firstHostToCheck) (by trivial) rfl
  have h₄ := h₃.snoc (l := .checkHost 30) (by
    intro i e hi he _
    obtain rfl := ProcAt.check.inj hi
    cases he
    exact .inl rfl) rfl
  exact ⟨_, h₄, rfl, rfl, pings_of_run h₄⟩

/-- A host that has not been heard of is taken off the ping list with its call-back registered. -/
theorem unknown_host_forgotten : ∃ t, Run (step ⟨0, 9⟩) (fun _ _ => True) HostTable.init t ∧
    (t.peers 1).rebootList = [⟨7, 0, 1⟩] ∧ (t.peers 1).flags.pingingHost = false ∧ t.pingList = [⟨1, false⟩] ∧
      ¬ PingSound t := by
  refine ⟨_, run_of_exec (A := fun _ => True) [.rebootRegister 1 7 0, .firstHostToCheck, .checkHost 0, .deactivate]
    _ _ (fun _ _ => trivial) rfl, rfl, rfl, rfl, fun h => ?_⟩
  exact absurd (h.listed 1 (by decide)).2 (by decide)

end HostTable
end SpriteKernel.Recov
