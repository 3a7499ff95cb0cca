import Mathlib.Tactic.Tauto
import SpriteKernel.Fsutil.Reopen

/- What holds of the handle table while any number of rounds go on: each round owes something to the
   handles of its server that its scan has not come to, or whose reopen is out, and to no other. -/
namespace SpriteKernel.Fsutil

open Function List

/-- The server has reopened the handle, or has refused to. -/
def RemoteHandle.Answered (x : RemoteHandle) : Prop := ∃ status, x.reopened = .replied status ∧ status.gone = false

/-- Nothing is owed to a handle whose reopen was skipped, or has been answered by the server. -/
def RemoteHandle.Settled (x : RemoteHandle) : Prop := x.reopened = .skipped ∨ x.Answered

/-- A recovery that has failed for good. -/
def RemoteHandle.Lost (x : RemoteHandle) : Prop := x.failed = true ∧ x.status ≠ .success ∧ x.invalid = true

namespace ReopenPhase
variable {phase : ReopenPhase} {a h : Nat} {l : List Nat}

/-- The I/O handles that may have RECOVERY_COMPLETE from an earlier round, where that is known. -/
def ioOwing : ReopenPhase → Option (List Nat)
  | ioScan _ todo out => some (todo ++ out)
  | ioReply .success out => some out
  | streamScan _ _ _ | streamReply _ _ | notifying _ => some []
  | _ => none

def streamOwing : ReopenPhase → Option (List Nat)
  | streamScan _ todo out => some (todo ++ out)
  | streamReply .success out => some out
  | notifying _ => some []
  | _ => none

/-- The I/O handles whose reopen is out. -/
def ioOut : ReopenPhase → List Nat
  | ioScan _ _ out | ioReply _ out => out
  | _ => []

theorem ioOwing_installIo (hl : (phase.installIo h).ioOwing = some l) :
    ∃ k, phase.ioOwing = some k ∧ ∀ g ∈ k, g ∈ l := by
  cases phase with
  | ioScan bulk todo out =>
    cases hl
    refine ⟨_, rfl, fun g hg => ?_⟩
    simp only [mem_append] at hg ⊢
    tauto
  | notifying todo => exact ⟨_, hl, fun g hg => hg⟩
  | _ => exact ⟨_, hl, fun g hg => hg⟩

theorem streamOwing_installIo : (phase.installIo h).streamOwing = phase.streamOwing := by
  cases phase <;> rfl

theorem ioOut_installIo : (phase.installIo h).ioOut = phase.ioOut := by
  cases phase <;> rfl

theorem streamOwing_installStream (hl : (phase.installStream a).streamOwing = some l) :
    ∃ k, phase.streamOwing = some k ∧ ∀ g ∈ k, g ∈ l := by
  cases phase with
  | streamScan bulk todo out =>
    cases hl
    refine ⟨_, rfl, fun g hg => ?_⟩
    simp only [mem_append] at hg ⊢
    tauto
  | _ => exact ⟨_, hl, fun g hg => hg⟩

theorem ioOwing_installStream : (phase.installStream a).ioOwing = phase.ioOwing := by
  cases phase <;> rfl

theorem ioOut_installStream : (phase.installStream a).ioOut = phase.ioOut := by
  cases phase <;> rfl

end ReopenPhase

namespace Reopening
variable {s t : Reopening} {p q a h : Nat} {x x' : RemoteHandle} {y w : StreamHandle} {r : ReopenRound}
  {phase : ReopenPhase}

/-- The first scan of a round owes nothing to a handle of its server that is not in `l`. -/
def IoDone (s : Reopening) (serverID : Nat) (l : List Nat) : Prop :=
  ∀ h x, s.io h = some x → x.serverID = serverID → x.complete = true → x.invalid = false → h ∈ l ∨ x.Settled

def StreamDone (s : Reopening) (serverID : Nat) (l : List Nat) : Prop :=
  ∀ a y, s.stream a = some y → y.serverID = serverID → y.ioHandle ≠ none → y.invalid = false → a ∈ l ∨ y.reopened = true

/-- A handle whose reopen is out is in the table, and who has marked it waits for this round. -/
def Out (s : Reopening) (serverID h : Nat) : Prop :=
  ∃ x, s.io h = some x ∧ x.serverID = serverID ∧ ((∃ q, s.mark q h = .wanted) → x.needed = true)

structure Inv (s : Reopening) : Prop where
  ios : ∀ h x, s.io h = some x → h ∈ s.ios
  streams : ∀ a y, s.stream a = some y → a ∈ s.streams
  refs : ∀ a y h, s.stream a = some y → y.ioHandle = some h → ∃ x, s.io h = some x ∧ y.serverID = x.serverID
  inRound : ∀ p r, s.round p = some r → s.inProgress r.serverID = true
  oneRound : ∀ p q r r', s.round p = some r → s.round q = some r' → r.serverID = r'.serverID → p = q
  ioDone : ∀ p r l, s.round p = some r → r.phase.ioOwing = some l → s.IoDone r.serverID l
  streamDone : ∀ p r l, s.round p = some r → r.phase.streamOwing = some l → s.StreamDone r.serverID l
  out : ∀ p r h, s.round p = some r → h ∈ r.phase.ioOut → s.Out r.serverID h
  replied : ∀ h x status, s.io h = some x → x.reopened = .replied status →
    x.status = status ∧ (status.gone = false → status ≠ .success → x.failed = true)
  wanted : ∀ q h x, s.mark q h = .wanted → s.io h = some x → x.needed = true ∨ x.Lost
  marked : ∀ q h, s.mark q h ≠ .unmarked → ∃ x, s.io h = some x
  waits : ∀ q h, s.waiting q = some (h, false) → ∃ x, s.io h = some x ∧ x.needed = true
  waiter : ∀ q h b, s.waiting q = some (h, b) → s.mark q h ≠ .unmarked
  returned : ∀ e ∈ s.returned, e.2.1 = .success → e.2.2 = .served

theorem setIO_self : (s.setIo h x).io h = some x := update_self _ _ _

theorem setStream_self : (s.setStream a y).stream a = some y := update_self _ _ _

theorem Inv.setPhase (hi : s.Inv) (hr : s.round p = some r)
    (hio : ∀ l, phase.ioOwing = some l → s.IoDone r.serverID l)
    (hstream : ∀ l, phase.streamOwing = some l → s.StreamDone r.serverID l)
    (hout : ∀ h ∈ phase.ioOut, s.Out r.serverID h) : (s.setPhase p r phase).Inv := by
  have hround : ∀ q r', (s.setPhase p r phase).round q = some r' →
      (q = p ∧ r' = { r with phase := phase }) ∨ (q ≠ p ∧ s.round q = some r') := fun _ _ => of_update_some
  have hold : ∀ q r', (s.setPhase p r phase).round q = some r' → ∃ r₀, s.round q = some r₀ ∧ r₀.serverID = r'.serverID := by
    intro q r' hq
    obtain ⟨rfl, rfl⟩ | ⟨-, hq⟩ := hround q r' hq
    · exact ⟨r, hr, rfl⟩
    · exact ⟨r', hq, rfl⟩
  refine ⟨hi.ios, hi.streams, hi.refs, ?_, ?_, ?_, ?_, ?_, hi.replied, hi.wanted, hi.marked, hi.waits, hi.waiter, hi.returned⟩
  · intro q r' hq
    obtain ⟨r₀, hq, hid⟩ := hold q r' hq
    rw [← hid]
    exact hi.inRound q r₀ hq
  · intro q q' r₁ r₂ h₁ h₂ hid
    obtain ⟨r₁', h₁, hid₁⟩ := hold q r₁ h₁
    obtain ⟨r₂', h₂, hid₂⟩ := hold q' r₂ h₂
    exact hi.oneRound q q' r₁' r₂' h₁ h₂ (by rw [hid₁, hid₂, hid])
  · intro q r' l hq hl
    obtain ⟨-, rfl⟩ | ⟨-, hq⟩ := hround q r' hq
    · exact hio l hl
    · exact hi.ioDone q r' l hq hl
  · intro q r' l hq hl
    obtain ⟨-, rfl⟩ | ⟨-, hq⟩ := hround q r' hq
    · exact hstream l hl
    · exact hi.streamDone q r' l hq hl
  · intro q r' h hq hh
    obtain ⟨-, rfl⟩ | ⟨-, hq⟩ := hround q r' hq
    · exact hout h hh
    · exact hi.out q r' h hq hh

variable {serverID : Nat}

theorem IoDone.mono {k l : List Nat} (hd : s.IoDone serverID k)
    (hs : ∀ h ∈ k, h ∈ l ∨ ∀ x, s.io h = some x → x.serverID = serverID → x.complete = true → x.invalid = false → x.Settled) :
    s.IoDone serverID l := by
  intro h x hx hid hc hv
  obtain hk | hset := hd h x hx hid hc hv
  · obtain hl | hset := hs h hk
    · exact .inl hl
    · exact .inr (hset x hx hid hc hv)
  · exact .inr hset

theorem StreamDone.mono {k l : List Nat} (hd : s.StreamDone serverID k) (hs : ∀ a ∈ k, a ∈ l ∨
      ∀ y, s.stream a = some y → y.serverID = serverID → y.ioHandle ≠ none → y.invalid = false → y.reopened = true) :
    s.StreamDone serverID l := by
  intro a y hy hid hio hv
  obtain hk | hset := hd a y hy hid hio hv
  · obtain hl | hset := hs a hk
    · exact .inl hl
    · exact .inr (hset y hy hid hio hv)
  · exact .inr hset

theorem Inv.setIo (hi : s.Inv) (hx : s.io h = some x) (hid : x'.serverID = x.serverID)
    (hneeded : x.needed = true → x'.needed = true)
    (hdone : ∀ p r l, s.round p = some r → r.serverID = x.serverID → r.phase.ioOwing = some l →
      x'.complete = true → x'.invalid = false → h ∈ l ∨ x'.Settled)
    (hreplied : ∀ status, x'.reopened = .replied status →
      x'.status = status ∧ (status.gone = false → status ≠ .success → x'.failed = true))
    (hwanted : ∀ q, s.mark q h = .wanted → x'.needed = true ∨ x'.Lost) : (s.setIo h x').Inv := by
  have hlive : ∀ g z, s.io g = some z → ∃ z', (s.setIo h x').io g = some z' ∧ z'.serverID = z.serverID ∧
      (z.needed = true → z'.needed = true) := by
    intro g z hz
    by_cases hg : g = h
    · subst hg
      cases hx.symm.trans hz
      exact ⟨x', setIO_self, hid, hneeded⟩
    · exact ⟨z, (update_of_ne hg _ _).trans hz, rfl, id⟩
  refine ⟨?_, hi.streams, ?_, hi.inRound, hi.oneRound, ?_, hi.streamDone, ?_, ?_, ?_, ?_, ?_, hi.waiter, hi.returned⟩
  · intro g z hz
    obtain ⟨rfl, -⟩ | ⟨-, hz⟩ := of_update_some hz
    · exact hi.ios g x hx
    · exact hi.ios g z hz
  · intro a y g hy hio
    obtain ⟨z, hz, hserver⟩ := hi.refs a y g hy hio
    obtain ⟨z', hz', hid', -⟩ := hlive g z hz
    exact ⟨z', hz', by rw [hserver, hid']⟩
  · intro p r l hr hl g z hz hserver hc hv
    obtain ⟨rfl, rfl⟩ | ⟨-, hz⟩ := of_update_some hz
    · exact hdone p r l hr (by rw [← hid, hserver]) hl hc hv
    · exact hi.ioDone p r l hr hl g z hz hserver hc hv
  · intro p r g hr hg
    obtain ⟨z, hz, hserver, hmark⟩ := hi.out p r g hr hg
    obtain ⟨z', hz', hid', hneed⟩ := hlive g z hz
    exact ⟨z', hz', by rw [hid', hserver], fun hm => hneed (hmark hm)⟩
  · intro g z status hz
    obtain ⟨rfl, rfl⟩ | ⟨-, hz⟩ := of_update_some hz
    · exact hreplied status
    · exact hi.replied g z status hz
  · intro q g z hm hz
    obtain ⟨rfl, rfl⟩ | ⟨-, hz⟩ := of_update_some hz
    · exact hwanted q hm
    · exact hi.wanted q g z hm hz
  · intro q g hm
    obtain ⟨z, hz⟩ := hi.marked q g hm
    obtain ⟨z', hz', -⟩ := hlive g z hz
    exact ⟨z', hz'⟩
  · intro q g hw
    obtain ⟨z, hz, hn⟩ := hi.waits q g hw
    obtain ⟨z', hz', -, hneed⟩ := hlive g z hz
    exact ⟨z', hz', hneed hn⟩

theorem Inv.setStream (hi : s.Inv) (hy : s.stream a = some y) (hid : w.serverID = y.serverID) (hio : w.ioHandle = y.ioHandle)
    (hset : w.invalid = true ∨ w.reopened = true) : (s.setStream a w).Inv := by
  refine ⟨hi.ios, ?_, ?_, hi.inRound, hi.oneRound, hi.ioDone, ?_, hi.out, hi.replied, hi.wanted, hi.marked, hi.waits, hi.waiter,
    hi.returned⟩
  · intro b z hz
    obtain ⟨rfl, -⟩ | ⟨-, hz⟩ := of_update_some hz
    · exact hi.streams b y hy
    · exact hi.streams b z hz
  · intro b z g hz hg
    obtain ⟨rfl, rfl⟩ | ⟨-, hz⟩ := of_update_some hz
    · rw [hid]
      exact hi.refs b y g hy (hio.symm.trans hg)
    · exact hi.refs b z g hz hg
  · intro p r l hr hl b z hz hserver hsome hv
    obtain ⟨rfl, rfl⟩ | ⟨-, hz⟩ := of_update_some hz
    · obtain hinv | hre := hset
      · rw [hinv] at hv
        cases hv
      · exact .inr hre
    · exact hi.streamDone p r l hr hl b z hz hserver hsome hv

theorem not_used (hu : s.inUse h = false) (hi : s.Inv) (hy : s.stream a = some y) : y.ioHandle ≠ some h := by
  intro hio
  have hany := any_eq_false.1 hu a (hi.streams a y hy)
  rw [hy] at hany
  simp [hio] at hany

section
variable (hi : s.Inv)
include hi

theorem Inv.openIo (hs : s.openIo h serverID = some t) : t.Inv := by
  unfold Reopening.openIo at hs
  split at hs
  · cases hs
  next hnone =>
  have hnew : s.io h = none := Option.not_isSome_iff_eq_none.1 hnone
  cases hs
  have hne : ∀ g x, s.io g = some x → update s.io h (some (.init serverID)) g = some x := by
    intro g x hx
    rw [update_of_ne ?_]
    · exact hx
    · rintro rfl
      rw [hnew] at hx
      cases hx
  have hold : ∀ g x, update s.io h (some (.init serverID)) g = some x →
      (g = h ∧ x = .init serverID) ∨ s.io g = some x := fun _ _ hx => (of_update_some hx).imp_right And.right
  have hround : ∀ p r, ((s.round p).map fun r => { r with phase := r.phase.installIo h }) = some r →
      ∃ r₀, s.round p = some r₀ ∧ r = { r₀ with phase := r₀.phase.installIo h } := by
    intro p r hr
    obtain ⟨r₀, hr₀, rfl⟩ := Option.map_eq_some_iff.1 hr
    exact ⟨r₀, hr₀, rfl⟩
  refine ⟨?_, hi.streams, ?_, ?_, ?_, ?_, ?_, ?_, ?_, ?_, ?_, ?_, hi.waiter, hi.returned⟩
  · intro g x hx
    obtain ⟨rfl, -⟩ | hx := hold g x hx
    · exact mem_append_right _ (mem_singleton.2 rfl)
    · exact mem_append_left _ (hi.ios g x hx)
  · intro a y g hy hio
    obtain ⟨x, hx, hid⟩ := hi.refs a y g hy hio
    exact ⟨x, hne g x hx, hid⟩
  · intro p r hr
    obtain ⟨r₀, hr₀, rfl⟩ := hround p r hr
    exact hi.inRound p r₀ hr₀
  · intro p q r r' hr hr' hid
    obtain ⟨r₀, hr₀, rfl⟩ := hround p r hr
    obtain ⟨r₁, hr₁, rfl⟩ := hround q r' hr'
    exact hi.oneRound p q r₀ r₁ hr₀ hr₁ hid
  · intro p r l hr hl g x hx hid hc hv
    obtain ⟨r₀, hr₀, rfl⟩ := hround p r hr
    obtain ⟨k, hk, hsub⟩ := ReopenPhase.ioOwing_installIo hl
    obtain ⟨-, rfl⟩ | hx := hold g x hx
    · cases hc
    · exact (hi.ioDone p r₀ k hr₀ hk g x hx hid hc hv).imp (hsub g) id
  · intro p r l hr hl
    obtain ⟨r₀, hr₀, rfl⟩ := hround p r hr
    exact hi.streamDone p r₀ l hr₀ (ReopenPhase.streamOwing_installIo.symm.trans hl)
  · intro p r g hr hg
    obtain ⟨r₀, hr₀, rfl⟩ := hround p r hr
    rw [ReopenPhase.ioOut_installIo] at hg
    obtain ⟨x, hx, hrest⟩ := hi.out p r₀ g hr₀ hg
    exact ⟨x, hne g x hx, hrest⟩
  · intro g x status hx hre
    obtain ⟨-, rfl⟩ | hx := hold g x hx
    · cases hre
    · exact hi.replied g x status hx hre
  · intro q g x hm hx
    obtain ⟨z, hz⟩ := hi.marked q g (by rw [hm]; nofun)
    obtain rfl := Option.some.inj ((hne g z hz).symm.trans hx)
    exact hi.wanted q g z hm hz
  · intro q g hm
    obtain ⟨z, hz⟩ := hi.marked q g hm
    exact ⟨z, hne g z hz⟩
  · intro q g hw
    obtain ⟨z, hz, hn⟩ := hi.waits q g hw
    exact ⟨z, hne g z hz, hn⟩

theorem Inv.removeIo (hu : s.inUse h = false) (hout : ∀ p r, s.round p = some r → h ∉ r.phase.ioOut)
    (hwait : ∀ q w, s.waiting q = some w → w.1 ≠ h) : (s.removeIo h).Inv := by
  have hself : (s.removeIo h).io h = none := update_self _ _ _
  have hne : ∀ g, g ≠ h → (s.removeIo h).io g = s.io g := fun g hg => update_of_ne hg _ _
  have hold : ∀ g x, (s.removeIo h).io g = some x → g ≠ h ∧ s.io g = some x := by
    intro g x hx
    have hg : g ≠ h := by
      rintro rfl
      rw [hself] at hx
      cases hx
    exact ⟨hg, (hne g hg).symm.trans hx⟩
  have hmark : ∀ q g, (s.removeIo h).mark q g ≠ .unmarked → g ≠ h ∧ (s.removeIo h).mark q g = s.mark q g := by
    intro q g hm
    have hg : g ≠ h := by
      rintro rfl
      exact hm (if_pos rfl)
    exact ⟨hg, if_neg hg⟩
  refine ⟨?_, hi.streams, ?_, hi.inRound, hi.oneRound, ?_, hi.streamDone, ?_, ?_, ?_, ?_, ?_, ?_, hi.returned⟩
  · intro g x hx
    obtain ⟨hg, hx⟩ := hold g x hx
    exact (mem_erase_of_ne hg).2 (hi.ios g x hx)
  · intro a y g hy hio
    obtain ⟨x, hx, hid⟩ := hi.refs a y g hy hio
    have hg : g ≠ h := by
      rintro rfl
      exact not_used hu hi hy hio
    exact ⟨x, (hne g hg).trans hx, hid⟩
  · intro p r l hr hl g x hx hid hc hv
    exact hi.ioDone p r l hr hl g x (hold g x hx).2 hid hc hv
  · intro p r g hr hg
    obtain ⟨x, hx, hid, hm⟩ := hi.out p r g hr hg
    have hgh : g ≠ h := by
      rintro rfl
      exact hout p r hr hg
    refine ⟨x, (hne g hgh).trans hx, hid, ?_⟩
    rintro ⟨q, hq⟩
    obtain ⟨-, hsame⟩ := hmark q g (by rw [hq]; nofun)
    exact hm ⟨q, hsame.symm.trans hq⟩
  · intro g x status hx
    exact hi.replied g x status (hold g x hx).2
  · intro q g x hm hx
    obtain ⟨-, hsame⟩ := hmark q g (by rw [hm]; nofun)
    exact hi.wanted q g x (hsame.symm.trans hm) (hold g x hx).2
  · intro q g hm
    obtain ⟨hg, hsame⟩ := hmark q g hm
    obtain ⟨x, hx⟩ := hi.marked q g (by rwa [hsame] at hm)
    exact ⟨x, (hne g hg).trans hx⟩
  · intro q g hw
    obtain ⟨x, hx, hn⟩ := hi.waits q g hw
    exact ⟨x, (hne g (hwait q _ hw)).trans hx, hn⟩
  · intro q g b hw
    have hg : g ≠ h := hwait q _ hw
    rw [show (s.removeIo h).mark q g = s.mark q g from if_neg hg]
    exact hi.waiter q g b hw

theorem Inv.openStream (hs : s.openStream a h = some t) : t.Inv := by
  unfold Reopening.openStream at hs
  split at hs
  · cases hs
  obtain ⟨x, hx, rfl⟩ := Option.map_eq_some_iff.1 hs
  have hold : ∀ b y, update s.stream a (some ⟨x.serverID, some h, false, true⟩) b = some y →
      (b = a ∧ y = ⟨x.serverID, some h, false, true⟩) ∨ (b ≠ a ∧ s.stream b = some y) := fun _ _ => of_update_some
  have hround : ∀ p r, ((s.round p).map fun r => { r with phase := r.phase.installStream a }) = some r →
      ∃ r₀, s.round p = some r₀ ∧ r = { r₀ with phase := r₀.phase.installStream a } := by
    intro p r hr
    obtain ⟨r₀, hr₀, rfl⟩ := Option.map_eq_some_iff.1 hr
    exact ⟨r₀, hr₀, rfl⟩
  refine ⟨hi.ios, ?_, ?_, ?_, ?_, ?_, ?_, ?_, hi.replied, hi.wanted, hi.marked, hi.waits, hi.waiter, hi.returned⟩
  · intro b y hy
    obtain ⟨rfl, -⟩ | ⟨-, hy⟩ := hold b y hy
    · exact mem_append_right _ (mem_singleton.2 rfl)
    · exact mem_append_left _ (hi.streams b y hy)
  · intro b y g hy hio
    obtain ⟨-, rfl⟩ | ⟨-, hy⟩ := hold b y hy
    · cases hio
      exact ⟨x, hx, rfl⟩
    · exact hi.refs b y g hy hio
  · intro p r hr
    obtain ⟨r₀, hr₀, rfl⟩ := hround p r hr
    exact hi.inRound p r₀ hr₀
  · intro p q r r' hr hr' hid
    obtain ⟨r₀, hr₀, rfl⟩ := hround p r hr
    obtain ⟨r₁, hr₁, rfl⟩ := hround q r' hr'
    exact hi.oneRound p q r₀ r₁ hr₀ hr₁ hid
  · intro p r l hr hl
    obtain ⟨r₀, hr₀, rfl⟩ := hround p r hr
    exact hi.ioDone p r₀ l hr₀ (ReopenPhase.ioOwing_installStream.symm.trans hl)
  · intro p r l hr hl b y hy hid hio hv
    obtain ⟨r₀, hr₀, rfl⟩ := hround p r hr
    obtain ⟨k, hk, hsub⟩ := ReopenPhase.streamOwing_installStream hl
    obtain ⟨-, rfl⟩ | ⟨-, hy⟩ := hold b y hy
    · exact .inr rfl
    · exact (hi.streamDone p r₀ k hr₀ hk b y hy hid hio hv).imp (hsub b) id
  · intro p r g hr hg
    obtain ⟨r₀, hr₀, rfl⟩ := hround p r hr
    rw [ReopenPhase.ioOut_installStream] at hg
    exact hi.out p r₀ g hr₀ hg

theorem Inv.closeStream : (s.closeStream a).Inv := by
  have hold : ∀ b y, (s.closeStream a).stream b = some y → b ≠ a ∧ s.stream b = some y := by
    intro b y hy
    have hb : b ≠ a := by
      rintro rfl
      rw [show (s.closeStream b).stream b = none from update_self _ _ _] at hy
      cases hy
    exact ⟨hb, (update_of_ne hb _ _).symm.trans hy⟩
  refine ⟨hi.ios, ?_, ?_, hi.inRound, hi.oneRound, hi.ioDone, ?_, hi.out, hi.replied, hi.wanted, hi.marked, hi.waits, hi.waiter,
    hi.returned⟩
  · intro b y hy
    obtain ⟨hb, hy⟩ := hold b y hy
    exact (mem_erase_of_ne hb).2 (hi.streams b y hy)
  · intro b y g hy
    exact hi.refs b y g (hold b y hy).2
  · intro p r l hr hl b y hy
    exact hi.streamDone p r l hr hl b y (hold b y hy).2

theorem Inv.wantRecovery (hs : s.wantRecovery q h = some t) : t.Inv := by
  obtain ⟨x, hx, rfl⟩ := Option.map_eq_some_iff.1 hs
  have hset : (s.setIo h { x with needed := true }).Inv :=
    hi.setIo hx rfl (fun _ => rfl) (fun p r l hr hid hl hc hv => hi.ioDone p r l hr hl h x hx hid.symm hc hv)
      (fun status => hi.replied h x status hx) (fun _ _ => .inl rfl)
  have hself : (s.setIo h { x with needed := true }).io h = some { x with needed := true } := update_self _ _ _
  refine ⟨hset.ios, hset.streams, hset.refs, hset.inRound, hset.oneRound, hset.ioDone, hset.streamDone, ?_, hset.replied, ?_, ?_,
    hset.waits, ?_, hset.returned⟩
  · intro p r g hr hg
    obtain ⟨z, hz, hid, hm⟩ := hset.out p r g hr hg
    refine ⟨z, hz, hid, ?_⟩
    rintro ⟨q', hq'⟩
    by_cases hgh : g = h
    · subst hgh
      cases hself.symm.trans hz
      rfl
    · dsimp only at hq'
      rw [if_neg (fun hand => hgh hand.2)] at hq'
      exact hm ⟨q', hq'⟩
  · intro q' g z hm hz
    by_cases hgh : g = h
    · subst hgh
      cases hself.symm.trans hz
      exact .inl rfl
    · dsimp only at hm
      rw [if_neg (fun hand => hgh hand.2)] at hm
      exact hset.wanted q' g z hm hz
  · intro q' g hm
    by_cases hgh : g = h
    · subst hgh
      exact ⟨_, hself⟩
    · dsimp only at hm
      rw [if_neg (fun hand => hgh hand.2)] at hm
      exact hset.marked q' g hm
  · intro q' g b hw
    dsimp only
    split
    · nofun
    · exact hset.waiter q' g b hw

theorem Inv.wakeUp {status : ReopenStatus} (hm : status = .success → s.mark q h = .served) :
    (s.wakeUp q h status).Inv := by
  have hold : ∀ q' w, (s.wakeUp q h status).waiting q' = some w → s.waiting q' = some w := fun _ _ hw => (of_update_none hw).2
  refine ⟨hi.ios, hi.streams, hi.refs, hi.inRound, hi.oneRound, hi.ioDone, hi.streamDone, hi.out, hi.replied, hi.wanted, hi.marked,
    fun q' g hw => hi.waits q' g (hold q' _ hw), fun q' g b hw => hi.waiter q' g b (hold q' _ hw), ?_⟩
  intro e he
  obtain rfl | he := mem_cons.1 he
  · exact hm
  · exact hi.returned e he

/-- A process waits for a handle that needs recovery. -/
theorem Inv.startWait (hm : s.mark q h ≠ .unmarked) (hx : s.io h = some x) (hn : x.needed = true) :
    ({ s with waiting := update s.waiting q (some (h, false)) } : Reopening).Inv := by
  refine ⟨hi.ios, hi.streams, hi.refs, hi.inRound, hi.oneRound, hi.ioDone, hi.streamDone, hi.out, hi.replied, hi.wanted, hi.marked,
    ?_, ?_, hi.returned⟩
  · intro q' g hw
    obtain ⟨rfl, heq⟩ | ⟨-, hw⟩ := of_update_some hw
    · obtain rfl := (Prod.mk.inj heq).1
      exact ⟨x, hx, hn⟩
    · exact hi.waits q' g hw
  · intro q' g b hw
    obtain ⟨rfl, heq⟩ | ⟨-, hw⟩ := of_update_some hw
    · obtain rfl := (Prod.mk.inj heq).1
      exact hm
    · exact hi.waiter q' g b hw

/-- What a mark says of a handle that is not, or no longer, to be recovered. -/
theorem Inv.served_of_success (hx : s.io h = some x) (hn : x.needed = false) (hm : s.mark q h ≠ .unmarked)
    {signalled : Bool} (hstatus : x.waitStatus signalled = .success) : s.mark q h = .served := by
  cases hmark : s.mark q h with
  | unmarked => exact absurd hmark hm
  | served => rfl
  | wanted =>
    obtain hneed | ⟨hfail, hne, -⟩ := hi.wanted q h x hmark hx
    · rw [hneed] at hn
      cases hn
    · unfold RemoteHandle.waitStatus at hstatus
      rw [if_pos hfail] at hstatus
      exact absurd hstatus hne

/-- A round begins: what is known of the handles of its server is from now on of this round. -/
theorem Inv.reopen (hs : s.reopen p serverID = some t) : t.Inv := by
  unfold Reopening.reopen at hs
  split at hs
  · cases hs
  split at hs
  · cases hs
    exact hi
  next hbit =>
  cases hs
  have hio : ∀ h x, (s.io h).map (fun x => if x.serverID = serverID then { x with reopened := .pending } else x) = some x →
      ∃ z, s.io h = some z ∧ x.serverID = z.serverID ∧ x.needed = z.needed ∧ x.complete = z.complete ∧ x.failed = z.failed ∧
        x.status = z.status ∧ x.invalid = z.invalid ∧ (x.reopened = .pending ∨ x = z) ∧ (x.serverID ≠ serverID → x = z) := by
    intro h x hx
    obtain ⟨z, hz, rfl⟩ := Option.map_eq_some_iff.1 hx
    refine ⟨z, hz, ?_⟩
    split
    · next heq => exact ⟨rfl, rfl, rfl, rfl, rfl, rfl, .inl rfl, fun hne => absurd heq hne⟩
    · exact ⟨rfl, rfl, rfl, rfl, rfl, rfl, .inr rfl, fun _ => rfl⟩
  have hlive : ∀ h z, s.io h = some z →
      ∃ x, (s.io h).map (fun x => if x.serverID = serverID then { x with reopened := .pending } else x) = some x ∧
        x.serverID = z.serverID ∧ x.needed = z.needed := by
    intro h z hz
    rw [hz]
    refine ⟨_, rfl, ?_⟩
    dsimp only
    split <;> exact ⟨rfl, rfl⟩
  have hstream : ∀ a y, (s.stream a).map (fun y => if y.serverID = serverID then { y with reopened := false } else y) = some y →
      ∃ z, s.stream a = some z ∧ y.serverID = z.serverID ∧ y.ioHandle = z.ioHandle ∧ (y.serverID ≠ serverID → y = z) := by
    intro a y hy
    obtain ⟨z, hz, rfl⟩ := Option.map_eq_some_iff.1 hy
    refine ⟨z, hz, ?_⟩
    split
    · next heq => exact ⟨rfl, rfl, fun hne => absurd heq hne⟩
    · exact ⟨rfl, rfl, fun _ => rfl⟩
  have hround : ∀ q r, update s.round p (some ⟨serverID, .starting⟩) q = some r →
      (q = p ∧ r = ⟨serverID, .starting⟩) ∨ (s.round q = some r ∧ r.serverID ≠ serverID) := by
    intro q r hr
    refine (of_update_some hr).imp_right fun hold => ⟨hold.2, fun hid => hbit ?_⟩
    rw [← hid]
    exact hi.inRound q r hold.2
  refine ⟨?_, ?_, ?_, ?_, ?_, ?_, ?_, ?_, ?_, ?_, ?_, ?_, hi.waiter, hi.returned⟩
  · intro h x hx
    obtain ⟨z, hz, -⟩ := hio h x hx
    exact hi.ios h z hz
  · intro a y hy
    obtain ⟨z, hz, -⟩ := hstream a y hy
    exact hi.streams a z hz
  · intro a y h hy hh
    obtain ⟨z, hz, hid, hsame, -⟩ := hstream a y hy
    obtain ⟨x, hx, hxid⟩ := hi.refs a z h hz (hsame.symm.trans hh)
    obtain ⟨x', hx', hid', -⟩ := hlive h x hx
    exact ⟨x', hx', by rw [hid, hxid, hid']⟩
  · intro q r hr
    obtain ⟨rfl, rfl⟩ | ⟨hr, hne⟩ := hround q r hr
    · exact update_self _ _ _
    · exact (update_of_ne hne _ _).trans (hi.inRound q r hr)
  · intro q q' r r' hr hr' hid
    obtain ⟨rfl, rfl⟩ | ⟨hr, hne⟩ := hround q r hr <;> obtain ⟨rfl, rfl⟩ | ⟨hr', hne'⟩ := hround q' r' hr'
    · rfl
    · exact absurd hid.symm hne'
    · exact absurd hid hne
    · exact hi.oneRound q q' r r' hr hr' hid
  · intro q r l hr hl h x hx hid hc hv
    obtain ⟨rfl, rfl⟩ | ⟨hr, hne⟩ := hround q r hr
    · cases hl
    · obtain ⟨z, hz, hzid, -, -, -, -, -, -, hsame⟩ := hio h x hx
      obtain rfl := hsame (by rw [hid]; exact hne)
      exact hi.ioDone q r l hr hl h x hz hid hc hv
  · intro q r l hr hl a y hy hid hh hv
    obtain ⟨rfl, rfl⟩ | ⟨hr, hne⟩ := hround q r hr
    · cases hl
    · obtain ⟨z, hz, -, -, hsame⟩ := hstream a y hy
      obtain rfl := hsame (by rw [hid]; exact hne)
      exact hi.streamDone q r l hr hl a y hz hid hh hv
  · intro q r h hr hh
    obtain ⟨rfl, rfl⟩ | ⟨hr, -⟩ := hround q r hr
    · exact absurd hh not_mem_nil
    · obtain ⟨x, hx, hid, hm⟩ := hi.out q r h hr hh
      obtain ⟨x', hx', hid', hn⟩ := hlive h x hx
      exact ⟨x', hx', by rw [hid', hid], fun hq => by rw [hn]; exact hm hq⟩
  · intro h x status hx hre
    obtain ⟨z, hz, -, -, -, -, -, -, hpend | rfl, -⟩ := hio h x hx
    · rw [hre] at hpend
      cases hpend
    · exact hi.replied h x status hz hre
  · intro q h x hm hx
    obtain ⟨z, hz, -, hn, -, hf, hst, hv, -⟩ := hio h x hx
    obtain hneed | ⟨hfail, hne, hinv⟩ := hi.wanted q h z hm hz
    · exact .inl (hn.trans hneed)
    · exact .inr ⟨hf.trans hfail, by rw [hst]; exact hne, hv.trans hinv⟩
  · intro q h hm
    obtain ⟨z, hz⟩ := hi.marked q h hm
    obtain ⟨x, hx, -⟩ := hlive h z hz
    exact ⟨x, hx⟩
  · intro q h hw
    obtain ⟨z, hz, hn⟩ := hi.waits q h hw
    obtain ⟨x, hx, -, hn'⟩ := hlive h z hz
    exact ⟨x, hx, hn'.trans hn⟩

theorem Inv.done (hs : s.done p = some t) : t.Inv := by
  obtain ⟨r, hr, hs⟩ := Option.bind_eq_some_iff.1 hs
  obtain ⟨-, hs⟩ := Option.ite_none_right_eq_some.1 hs
  cases hs
  have hold : ∀ q r', update s.round p none q = some r' → q ≠ p ∧ s.round q = some r' := by
    intro q r' hr'
    have hq : q ≠ p := by
      rintro rfl
      rw [update_self] at hr'
      cases hr'
    exact ⟨hq, (update_of_ne hq _ _).symm.trans hr'⟩
  refine ⟨hi.ios, hi.streams, hi.refs, ?_, ?_, ?_, ?_, ?_, hi.replied, hi.wanted, hi.marked, hi.waits, hi.waiter, hi.returned⟩
  · intro q r' hr'
    obtain ⟨hq, hr'⟩ := hold q r' hr'
    have hne : r'.serverID ≠ r.serverID := fun hid => hq (hi.oneRound q p r' r hr' hr hid)
    exact (update_of_ne hne _ _).trans (hi.inRound q r' hr')
  · intro q q' r₁ r₂ h₁ h₂ hid
    exact hi.oneRound q q' r₁ r₂ (hold q r₁ h₁).2 (hold q' r₂ h₂).2 hid
  · intro q r' l hr' hl
    exact hi.ioDone q r' l (hold q r' hr').2 hl
  · intro q r' l hr' hl
    exact hi.streamDone q r' l (hold q r' hr').2 hl
  · intro q r' h hr' hh
    exact hi.out q r' h (hold q r' hr').2 hh

end

end Reopening
end SpriteKernel.Fsutil
