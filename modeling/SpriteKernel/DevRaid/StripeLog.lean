import SpriteKernel.Lib.Transition
import SpriteKernel.Lib.Update

/- The stripe log (devRaidLog.c) and the stripe locks that fill it (devRaidLock.c). `lockVec` has the stripes that
   are locked, `diskLockVec` what is written to the log device; `Raid_LogStripe` copies the one over the other every
   hundredth time. A label is what happens between two points where a mutex is released or an output goes on.
   `Raid_SaveLog` reads each bit at some time meanwhile, and one that fails may have written some of them. -/
namespace SpriteKernel.DevRaid.StripeLog

open Function
open Transition

def numLogStripe : Nat := 100

/-- Where a process is in `Raid_FlushLog`: asleep or woken, first or second time, writing (what was read of the
    vector), or done. -/
inductive FlushPoint where
  | enter
  | wait1
  | woken1
  | wait2
  | woken2
  | saving (image : Option (Nat → Bool))
  | saved

/-- A process sleeps on a stripe's lock or is woken there, or is in `Raid_LogStripe` or `Raid_FlushLog`. -/
inductive Stage where
  | outside
  | lockAsleep (s : Nat)
  | lockWoken (s : Nat)
  | logging (s : Nat)
  | flushing (s : Option Nat) (point : FlushPoint)

/-- Free, taken in `Raid_XLockStripe`, held by whoever that returned to, or no longer in the log. -/
inductive StripeLock where
  | free
  | taken
  | held
  | unlogged
  deriving DecidableEq

/-- `RaidLog`, and what is on the device. `flushed`: whether the condition has its `waiting` set. -/
structure RaidLog where
  enabled : Bool
  busy : Bool
  flushed : Bool
  diskLockVec : Nat → Bool
  lockVec : Nat → Bool
  numStripeLocked : Nat
  disk : Nat → Bool

structure System where
  log : RaidLog
  stripes : Nat → StripeLock
  procs : Nat → Stage

inductive Label where
  | xlock (p s : Nat)
  | retry (p : Nat)
  | flush (p : Nat)
  | go (p : Nat)
  | read (p : Nat) (bits : Nat → Bool)
  | fail (p : Nat) (bits : Nat → Bool)
  | unlog (s : Nat)
  | sunlock (s : Nat)
  | signal (p : Nat)

/-- A log that is new (`Raid_InitLog`), or has what was on the device (`Raid_RestoreLog`). -/
def System.initial (disk : Nat → Bool) (restored : Bool) : System where
  log :=
    { enabled := true
      busy := false
      flushed := false
      diskLockVec := if restored then disk else fun _ => false
      lockVec := fun _ => false
      numStripeLocked := 0
      disk := disk }
  stripes := fun _ => .free
  procs := fun _ => .outside

def System.setProc (sys : System) (p : Nat) (st : Stage) : System :=
  { sys with procs := update sys.procs p st }

/-- `Bit_Set` and `Bit_Clear`. -/
def setBit (s : Nat) (vec : Nat → Bool) : Nat → Bool := update vec s true
def clearBit (s : Nat) (vec : Nat → Bool) : Nat → Bool := update vec s false

/-- Some bits are taken from another vector. -/
def mix (bits from_ vec : Nat → Bool) : Nat → Bool := fun s => if bits s then from_ s else vec s

/-- The process that waits for a stripe lock is made ready. -/
def Stage.wakeStripe (s : Nat) : Stage → Stage
  | .lockAsleep t => if t = s then .lockWoken t else .lockAsleep t
  | st => st

/-- One that waits on `flushed` is made ready. -/
def Stage.wakeFlush : Stage → Stage
  | .flushing s .wait1 => .flushing s .woken1
  | .flushing s .wait2 => .flushing s .woken2
  | st => st

/-- `Raid_SLockStripe`, from its beginning or from a wakeup on. -/
def System.trySLock (sys : System) (p s : Nat) : System :=
  if sys.stripes s = .free then { sys.setProc p (.logging s) with stripes := update sys.stripes s .taken }
  else sys.setProc p (.lockAsleep s)

/-- `Raid_FlushLog` returns, and `Raid_XLockStripe` with it. -/
def System.flushReturn (sys : System) (p : Nat) : Option Nat → System
  | some s => { sys.setProc p .outside with stripes := update sys.stripes s .held }
  | none => sys.setProc p .outside

/-- A bit of `diskLockVec` is set; now and then those of unlocked stripes are cleared. -/
def RaidLog.setDiskBit (log : RaidLog) (s : Nat) : RaidLog :=
  let log := { log with diskLockVec := setBit s log.diskLockVec, numStripeLocked := log.numStripeLocked + 1 }
  if log.numStripeLocked % numLogStripe = 0 then { log with diskLockVec := log.lockVec } else log

/-- `Raid_LogStripe` up to `Raid_FlushLog`. -/
def System.logStripe (sys : System) (p s : Nat) : System :=
  let log := { sys.log with lockVec := setBit s sys.log.lockVec }
  if log.diskLockVec s then { sys with log := log }.flushReturn p (some s)
  else { sys.setProc p (.flushing (some s) .enter) with log := log.setDiskBit s }

/-- The process sleeps on `flushed`. -/
def System.waitFlushed (sys : System) (p : Nat) (st : Stage) : System :=
  { sys.setProc p st with log := { sys.log with flushed := true } }

def System.broadcastFlushed (sys : System) : System :=
  if sys.log.flushed then
    { sys with log := { sys.log with flushed := false }, procs := fun p => (sys.procs p).wakeFlush }
  else sys

/-- The process writes the log itself. -/
def System.beginSave (sys : System) (p : Nat) (s : Option Nat) : System :=
  { sys.setProc p (.flushing s (.saving none)) with log := { sys.log with busy := true } }

/-- `Raid_FlushLog`, from a point on. -/
def System.flush (sys : System) (p : Nat) (s : Option Nat) : FlushPoint → Option System
  | .enter =>
    if sys.log.enabled = false then some (sys.flushReturn p s)
    else if sys.log.busy then some (sys.waitFlushed p (.flushing s .wait1))
    else some (sys.beginSave p s)
  | .woken1 =>
    if sys.log.busy then some (sys.waitFlushed p (.flushing s .wait2))
    else some (sys.beginSave p s)
  | .woken2 => some (sys.flushReturn p s)
  -- an output begins, and one comes to a good end
  | .saving none => some (sys.setProc p (.flushing s (.saving (some sys.log.diskLockVec))))
  | .saving (some image) => some { sys.setProc p (.flushing s .saved) with log := { sys.log with disk := image } }
  | .saved => some ({ sys with log := { sys.log with busy := false } }.broadcastFlushed.flushReturn p s)
  | .wait1 => none
  | .wait2 => none

def System.step (sys : System) : Label → Option System
  | .xlock p s =>
    match sys.procs p with
    | .outside => some (sys.trySLock p s)
    | _ => none
  | .retry p =>
    match sys.procs p with
    | .lockWoken s => some (sys.trySLock p s)
    | _ => none
  | .flush p =>
    match sys.procs p with
    | .outside => some (sys.setProc p (.flushing none .enter))
    | _ => none
  | .go p =>
    match sys.procs p with
    | .logging s => some (sys.logStripe p s)
    | .flushing s point => sys.flush p s point
    | _ => none
  | .read p bits =>
    match sys.procs p with
    | .flushing s (.saving (some image)) =>
      some (sys.setProc p (.flushing s (.saving (some (mix bits sys.log.diskLockVec image)))))
    | _ => none
  | .fail p bits =>
    match sys.procs p with
    | .flushing s (.saving (some image)) =>
      some { sys.setProc p (.flushing s (.saving none)) with log := { sys.log with disk := mix bits image sys.log.disk } }
    | _ => none
  | .unlog s =>
    if sys.stripes s = .held then
      some { sys with
        log := { sys.log with lockVec := clearBit s sys.log.lockVec }
        stripes := update sys.stripes s .unlogged }
    else none
  | .sunlock s =>
    if sys.stripes s = .unlogged then
      some { sys with
        stripes := update sys.stripes s .free
        procs := fun p => (sys.procs p).wakeStripe s }
    else none
  -- `Sync_WakeWaitingProcess`: a signal ends any wait
  | .signal p =>
    match sys.procs p with
    | .lockAsleep s => some (sys.setProc p (.lockWoken s))
    | st => some (sys.setProc p st.wakeFlush)

/-- What is promised: every stripe that is locked is in the log on the device. -/
def Logged (sys : System) : Prop := ∀ s, sys.stripes s = .held → sys.log.disk s = true

def Stage.waitsFlushed : Stage → Bool
  | .flushing _ .wait1 => true
  | .flushing _ .wait2 => true
  | _ => false

/-- No signal comes to a process that waits in `Raid_FlushLog`. -/
def System.Careful (sys : System) : Label → Prop
  | .signal p => (sys.procs p).waitsFlushed = false
  | _ => True

/-! The invariant. -/

/-- The stripe that a process is to lock, has locked or waits for a flush for. -/
def Stage.stripe : Stage → Option Nat
  | .logging s => some s
  | .flushing s _ => s
  | _ => none

/-- The process writes the log. -/
def Stage.saves : Stage → Bool
  | .flushing _ (.saving _) => true
  | .flushing _ .saved => true
  | _ => false

/-- A stripe is locked for one process, and one process writes the log. -/
structure Owned (sys : System) : Prop where
  owner : ∀ p s, (sys.procs p).stripe = some s → sys.stripes s = .taken ∧ ∀ q, (sys.procs q).stripe = some s → q = p
  saver : ∀ p, (sys.procs p).saves = true → sys.log.busy = true ∧ ∀ q, (sys.procs q).saves = true → q = p
  asleep : ∀ p, (sys.procs p).waitsFlushed = true → sys.log.busy = true ∧ sys.log.flushed = true

/-- What is locked stays in both vectors. -/
structure Kept (sys : System) : Prop where
  locked : ∀ s, sys.log.lockVec s = true → sys.log.diskLockVec s = true
  held : ∀ s, sys.stripes s = .held → sys.log.lockVec s = true
  flushing : ∀ p s point, sys.procs p = .flushing (some s) point → sys.log.lockVec s = true

/-- What is being written has the stripe. -/
def InFlight (sys : System) (s : Nat) : Prop :=
  ∀ q t image, sys.procs q = .flushing t (.saving (some image)) → image s = true

/-- What is being written and what has just been written has the stripe. -/
def InSave (sys : System) (s : Nat) : Prop :=
  InFlight sys s ∧ ∀ q t, sys.procs q = .flushing t .saved → sys.log.disk s = true

/-- An output that goes on after the first wakeup has begun after the bit was set. -/
def PointOk (sys : System) (s : Nat) : FlushPoint → Prop
  | .enter => True
  | .wait1 => True
  | .woken1 => InSave sys s
  | .wait2 => InSave sys s
  | .woken2 => InFlight sys s ∧ sys.log.disk s = true
  | .saving _ => InFlight sys s
  | .saved => InFlight sys s ∧ sys.log.disk s = true

/-- A bit that is set and that nobody waits for is on the device, and stays there. -/
structure Seen (sys : System) : Prop where
  points : ∀ p s point, sys.procs p = .flushing (some s) point → PointOk sys s point
  settled : ∀ s, sys.log.diskLockVec s = true → (∀ p point, sys.procs p ≠ .flushing (some s) point) →
    InFlight sys s ∧ sys.log.disk s = true

structure Inv (sys : System) : Prop where
  owned : Owned sys
  kept : Kept sys
  seen : Seen sys

section moves
variable {sys : System} {p : Nat} {st : Stage} {log : RaidLog}

theorem Owned.move (h : Owned sys) (hstripe : st.stripe = none ∨ st.stripe = (sys.procs p).stripe)
    (hsaves : st.saves = true → log.busy = true ∧ ∀ q, (sys.procs q).saves = true → q = p)
    (hwaits : st.waitsFlushed = true → log.flushed = true) (hbusy : sys.log.busy = true → log.busy = true)
    (hflushed : log.flushed = sys.log.flushed ∨ log.flushed = true) (hwait : st.waitsFlushed = true → log.busy = true) :
    Owned { sys with log := log, procs := update sys.procs p st } := by
  obtain ⟨howner, hsaver, hasleep⟩ := h
  constructor <;> simp only [update_apply]
  · grind
  · grind
  · grind

theorem Kept.move (h : Kept sys) (hlock : log.lockVec = sys.log.lockVec) (hdisk : log.diskLockVec = sys.log.diskLockVec)
    (hst : ∀ s point, st = .flushing (some s) point → ∃ point', sys.procs p = .flushing (some s) point') :
    Kept { sys with log := log, procs := update sys.procs p st } := by
  obtain ⟨hlocked, hheld, hflushing⟩ := h
  constructor <;> simp only [update_apply, hlock, hdisk]
  · exact hlocked
  · exact hheld
  · grind

theorem PointOk.mono {sys' : System} {s : Nat} (hflight : InFlight sys s → InFlight sys' s)
    (hdisk : InFlight sys s → sys.log.disk s = true → sys'.log.disk s = true)
    (hsaved : InFlight sys s → ∀ q t, sys'.procs q = .flushing t .saved →
      sys'.log.disk s = true ∨ sys.procs q = .flushing t .saved)
    {point : FlushPoint} (h : PointOk sys s point) : PointOk sys' s point := by
  have hsave : InSave sys s → InSave sys' s := by
    rintro ⟨hin, hdone⟩
    refine ⟨hflight hin, fun q t hq => ?_⟩
    rcases hsaved hin q t hq with hyes | hold
    · exact hyes
    · exact hdisk hin (hdone q t hold)
  cases point with
  | enter => trivial
  | wait1 => trivial
  | woken1 => exact hsave h
  | wait2 => exact hsave h
  | woken2 => exact ⟨hflight h.1, hdisk h.1 h.2⟩
  | saving => exact hflight h
  | saved => exact ⟨hflight h.1, hdisk h.1 h.2⟩

theorem inFlight_set {s : Nat} (hin : InFlight sys s)
    (hst : ∀ t image, st = .flushing t (.saving (some image)) → image s = true) :
    InFlight { sys.setProc p st with log := log } s := by
  intro q t image hq
  obtain ⟨-, hself⟩ | ⟨-, hold⟩ := of_update hq
  · exact hst t image hself
  · exact hin q t image hold

theorem Seen.move (h : Seen sys) (hk : Kept sys) (hvec : log.diskLockVec = sys.log.diskLockVec)
    (himage : ∀ s, sys.log.diskLockVec s = true → InFlight sys s → ∀ t image, st = .flushing t (.saving (some image)) →
      image s = true)
    (hdisk : ∀ s, InFlight sys s → sys.log.disk s = true → log.disk s = true)
    (hsaved : ∀ s t, InFlight sys s → st = .flushing t .saved → log.disk s = true)
    (hnew : ∀ s point, st = .flushing (some s) point →
      PointOk { sys with log := log, procs := update sys.procs p st } s point)
    (hleft : ∀ s point, sys.procs p = .flushing (some s) point → (∀ point', st ≠ .flushing (some s) point') →
      InFlight sys s ∧ sys.log.disk s = true) :
    Seen { sys with log := log, procs := update sys.procs p st } := by
  have hflight : ∀ s, sys.log.diskLockVec s = true → InFlight sys s →
      InFlight { sys with log := log, procs := update sys.procs p st } s :=
    fun s hs hin => inFlight_set hin (himage s hs hin)
  constructor
  · intro q s point hq
    obtain ⟨-, hself⟩ | ⟨-, hold⟩ := of_update hq
    · exact hnew s point hself
    · refine (h.points q s point hold).mono (hflight s (hk.locked s (hk.flushing q s point hold))) (hdisk s) ?_
      exact fun hin r t hr => (of_update hr).imp (fun hself => hsaved s t hin hself.2) And.right
  · intro s hs hnone
    replace hs : sys.log.diskLockVec s = true := hvec ▸ hs
    have hcovered : InFlight sys s ∧ sys.log.disk s = true := by
      by_cases hp : ∃ point, sys.procs p = .flushing (some s) point
      · obtain ⟨point, hp⟩ := hp
        apply hleft s point hp
        intro point' hst
        apply hnone p point'
        show update sys.procs p st p = _
        rw [update_self, hst]
      · apply h.settled s hs
        intro q point hq
        by_cases hqp : q = p
        · exact hp ⟨point, hqp ▸ hq⟩
        · apply hnone q point
          show update sys.procs p st q = _
          rw [update_of_ne hqp, hq]
    exact ⟨hflight s hs hcovered.1, hdisk s hcovered.1 hcovered.2⟩

theorem Inv.setProc (h : Inv sys) (hsaves : st.saves = false) (hwaits : st.waitsFlushed = false)
    (hstripe : st.stripe = none) (hold : (sys.procs p).stripe = none) (hflush : ∀ s point, st ≠ .flushing (some s) point)
    : Inv (sys.setProc p st) where
  owned := h.owned.move (.inl hstripe) (fun hno => by rw [hsaves] at hno; nomatch hno)
    (fun hno => by rw [hwaits] at hno; nomatch hno) id (.inl rfl) (fun hno => by rw [hwaits] at hno; nomatch hno)
  kept := h.kept.move rfl rfl (fun s point hst => absurd hst (hflush s point))
  seen := h.seen.move h.kept rfl (fun _ _ _ t image hst => by rw [hst] at hsaves; nomatch hsaves)
    (fun _ _ hdisk => hdisk) (fun _ t _ hst => by rw [hst] at hsaves; nomatch hsaves)
    (fun s point hst => absurd hst (hflush s point))
    (fun s point hp => by rw [hp] at hold; nomatch hold)

end moves

section steps
variable {sys sys' : System} {p : Nat}

theorem inv_trySLock (h : Inv sys) (hp : (sys.procs p).stripe = none) (s : Nat) : Inv (sys.trySLock p s) := by
  rw [System.trySLock]
  split
  · obtain ⟨howner, hsaver, hasleep⟩ := h.owned
    obtain ⟨hlocked, hheld, hflushing⟩ := h.kept
    have hseen : Seen (sys.setProc p (.logging s)) :=
      h.seen.move h.kept rfl (fun _ _ _ _ _ => nofun) (fun _ _ hdisk => hdisk) (fun _ _ _ => nofun) (fun _ _ => nofun)
        (fun t point hq => by rw [hq] at hp; nomatch hp)
    refine ⟨⟨?_, ?_, ?_⟩, ⟨hlocked, ?_, ?_⟩, ⟨hseen.points, hseen.settled⟩⟩ <;>
      simp only [System.setProc, update_apply]
    · grind [Stage.stripe]
    · grind [Stage.saves]
    · grind [Stage.waitsFlushed]
    · grind
    · grind
  · exact h.setProc rfl rfl rfl hp (fun _ _ => nofun)

variable {t : Option Nat}

theorem inv_flushReturn (h : Inv sys) (hp : (sys.procs p).stripe = t)
    (hcovered : ∀ s, t = some s → sys.log.lockVec s = true ∧ InFlight sys s ∧ sys.log.disk s = true) :
    Inv (sys.flushReturn p t) := by
  have howned : Owned (sys.setProc p .outside) :=
    h.owned.move (.inl rfl) nofun nofun id (.inl rfl) nofun
  have hkept : Kept (sys.setProc p .outside) := h.kept.move rfl rfl (fun _ _ => nofun)
  have hseen : Seen (sys.setProc p .outside) :=
    h.seen.move h.kept rfl (fun _ _ _ _ _ => nofun) (fun _ _ hdisk => hdisk) (fun _ _ _ => nofun) (fun _ _ => nofun)
      (fun s point hq _ => (hcovered s (by rw [hq] at hp; exact hp.symm)).2)
  cases t with
  | none => exact ⟨howned, hkept, hseen⟩
  | some s =>
    obtain ⟨hbit, -⟩ := hcovered s rfl
    have hmine := (h.owned.owner p s hp).2
    obtain ⟨howner, hsaver, hasleep⟩ := howned
    obtain ⟨hlocked, hheld, hflushing⟩ := hkept
    refine ⟨⟨fun q r hq => ?_, hsaver, hasleep⟩, ⟨hlocked, fun r hr => ?_, hflushing⟩, ⟨hseen.points, hseen.settled⟩⟩
    · refine ⟨?_, (howner q r hq).2⟩
      obtain ⟨hqp, hold⟩ : q ≠ p ∧ (sys.procs q).stripe = some r := by
        obtain ⟨-, hself⟩ | ⟨hqp, hold⟩ := of_update (f := sys.procs) (y := (sys.flushReturn p (some s)).procs q) rfl
        · rw [← hself] at hq
          cases hq
        · exact ⟨hqp, hold ▸ hq⟩
      have hrs : r ≠ s := by
        rintro rfl
        exact hqp (hmine q hold)
      show update sys.stripes s .held r = .taken
      rw [update_of_ne hrs]
      exact (h.owned.owner q r hold).1
    · by_cases hrs : r = s
      · rw [hrs]
        exact hbit
      · exact hheld r ((of_update hr).resolve_left fun hself => hrs hself.1).2

variable {s : Nat}

theorem setBit_true {r : Nat} {vec : Nat → Bool} : setBit s vec r = true ↔ r = s ∨ vec r = true := by
  rw [StripeLog.setBit, update_apply]
  split <;> simp [*]

theorem Kept.setBit (h : Kept sys) (hs : sys.log.diskLockVec s = true) :
    Kept { sys with log := { sys.log with lockVec := setBit s sys.log.lockVec } } := by
  obtain ⟨hlocked, hheld, hflushing⟩ := h
  constructor <;> simp only [StripeLog.setBit, update_apply]
  · grind
  · grind
  · grind

theorem setDiskBit_spec {log : RaidLog} (s : Nat) (hlocked : ∀ r, log.lockVec r = true → log.diskLockVec r = true) :
    let log' := ({ log with lockVec := StripeLog.setBit s log.lockVec } : RaidLog).setDiskBit s
    (log'.busy = log.busy ∧ log'.flushed = log.flushed ∧ log'.disk = log.disk ∧
      log'.lockVec = StripeLog.setBit s log.lockVec) ∧
    ∀ r, (log'.diskLockVec r = true → r = s ∨ log.diskLockVec r = true) ∧
      (log'.lockVec r = true → log'.diskLockVec r = true) := by
  dsimp only [RaidLog.setDiskBit]
  split
  · refine ⟨⟨rfl, rfl, rfl, rfl⟩, fun r => ⟨fun hr => ?_, id⟩⟩
    exact (setBit_true.1 hr).imp id (hlocked r)
  · refine ⟨⟨rfl, rfl, rfl, rfl⟩, fun r => ⟨fun hr => setBit_true.1 hr, fun hr => ?_⟩⟩
    exact setBit_true.2 ((setBit_true.1 hr).imp id (hlocked r))

theorem inv_logStripe (h : Inv sys) (hp : sys.procs p = .logging s) : Inv (sys.logStripe p s) := by
  have hstripe : (sys.procs p).stripe = some s := by rw [hp]; rfl
  have hmine := (h.owned.owner p s hstripe).2
  have hnone : ∀ q point, sys.procs q ≠ .flushing (some s) point := by
    intro q point hq
    have hqp := hmine q (by rw [hq]; rfl)
    rw [hqp, hp] at hq
    nomatch hq
  rw [System.logStripe]
  split
  · rename_i hbit
    have hinv : Inv { sys with log := { sys.log with lockVec := setBit s sys.log.lockVec } } :=
      ⟨⟨h.owned.owner, h.owned.saver, h.owned.asleep⟩, h.kept.setBit hbit, ⟨h.seen.points, h.seen.settled⟩⟩
    apply inv_flushReturn hinv hstripe
    rintro r hr
    cases hr
    exact ⟨update_self _ _ _, h.seen.settled s hbit hnone⟩
  · have hspec := setDiskBit_spec s h.kept.locked
    revert hspec
    generalize ({ sys.log with lockVec := setBit s sys.log.lockVec } : RaidLog).setDiskBit s = log
    rintro ⟨⟨hbusy, hflushed, hdisk, hlock⟩, hvec⟩
    have hflight : ∀ r, InFlight sys r →
        InFlight { sys.setProc p (.flushing (some s) .enter) with log := log } r := fun r hin => inFlight_set hin fun _ _ => nofun
    refine ⟨h.owned.move (.inr (by rw [hstripe]; rfl)) nofun nofun (fun hb => hbusy.trans hb) (.inl hflushed) nofun,
      ⟨fun r => (hvec r).2, fun r hr => ?_, fun q r point hq => ?_⟩, ⟨fun q r point hq => ?_, fun r hr hnone' => ?_⟩⟩
    · rw [hlock]
      exact setBit_true.2 (.inr (h.kept.held r hr))
    · rw [hlock]
      obtain ⟨-, hself⟩ | ⟨-, hold⟩ := of_update hq
      · cases hself
        exact setBit_true.2 (.inl rfl)
      · exact setBit_true.2 (.inr (h.kept.flushing q r point hold))
    · obtain ⟨-, hself⟩ | ⟨-, hold⟩ := of_update hq
      · cases hself
        trivial
      · exact (h.seen.points q r point hold).mono (hflight r) (fun _ hd => by rw [hdisk]; exact hd)
          fun _ o t ho => .inr (of_update_ne ho nofun).2
    · have hrs : r ≠ s := by
        rintro rfl
        exact hnone' p .enter (update_self _ _ _)
      have hold := ((hvec r).1 hr).resolve_left hrs
      obtain ⟨hin, hd⟩ := h.seen.settled r hold (fun q point hq => by
        have hqp : q ≠ p := by
          rintro rfl
          rw [hp] at hq
          nomatch hq
        apply hnone' q point
        show update sys.procs p _ q = _
        rw [update_of_ne hqp, hq])
      refine ⟨hflight r hin, ?_⟩
      rw [hdisk]
      exact hd

variable {point : FlushPoint} {l : Label}

theorem inv_waitFlushed (h : Inv sys) {point' : FlushPoint} (hp : sys.procs p = .flushing t point)
    (hbusy : sys.log.busy = true) (hsaves : (Stage.flushing t point').saves = false)
    (hnew : ∀ s, t = some s → PointOk (sys.waitFlushed p (.flushing t point')) s point')
    (hstill : ∀ s image, InFlight sys s → point' ≠ .saving (some image)) :
    Inv (sys.waitFlushed p (.flushing t point')) where
  owned := h.owned.move (.inr (by rw [hp]; rfl)) (fun hno => by rw [hsaves] at hno; nomatch hno) (fun _ => rfl) id
    (.inr rfl) (fun _ => hbusy)
  kept := h.kept.move rfl rfl (fun s q hst => by
    injection hst with ht
    exact ⟨point, by rw [hp, ht]⟩)
  seen := h.seen.move h.kept rfl
    (fun s _ hin u image hst => by
      injection hst with _ himage
      exact absurd himage (hstill s image hin))
    (fun _ _ hdisk => hdisk)
    (fun s u _ hst => by
      injection hst with _ hsaved
      rw [hsaved] at hsaves
      nomatch hsaves)
    (fun s q hst => by
      injection hst with ht hq
      rw [← hq]
      exact hnew s ht)
    (fun s q hq hno => by
      rw [hp] at hq
      injection hq with ht
      exact absurd (by rw [ht]) (hno point'))

theorem inv_beginSave (h : Inv sys) (hp : sys.procs p = .flushing t point)
    (hbusy : sys.log.busy = false) : Inv (sys.beginSave p t) := by
  have hno : ∀ q, (sys.procs q).saves ≠ true := by
    intro q hq
    have hyes := (h.owned.saver q hq).1
    rw [hbusy] at hyes
    nomatch hyes
  refine ⟨h.owned.move (.inr (by rw [hp]; rfl)) (fun _ => ⟨rfl, fun q hq => absurd hq (hno q)⟩) nofun (fun _ => rfl)
      (.inl rfl) nofun, h.kept.move rfl rfl (fun s q hst => ?_),
    h.seen.move h.kept rfl (fun _ _ _ _ _ => nofun) (fun _ _ hdisk => hdisk) (fun _ _ _ => nofun) (fun s q hst => ?_)
      (fun s q hq hleft => ?_)⟩
  · injection hst with ht
    exact ⟨point, by rw [hp, ht]⟩
  · injection hst with _ hq
    rw [← hq]
    intro r u image hr
    exact absurd (by rw [(of_update_ne hr nofun).2]; rfl) (hno r)
  · rw [hp] at hq
    injection hq with ht
    exact absurd (by rw [ht]) (hleft (.saving none))

theorem waits_of_saves {st : Stage} (h : st.saves = true) : st.waitsFlushed = false := by
  cases st with
  | flushing t point => cases point <;> first | rfl | nomatch h
  | _ => rfl

theorem inv_output (h : Inv sys) {image : Option (Nat → Bool)} {disk : Nat → Bool}
    (hp : sys.procs p = .flushing t (.saving image)) (hsaves : (Stage.flushing t point).saves = true)
    (himage : ∀ s, sys.log.diskLockVec s = true → InFlight sys s → ∀ image', point = .saving (some image') → image' s = true)
    (hdisk : ∀ s, InFlight sys s → sys.log.disk s = true ∨ point = .saved → disk s = true)
    (hpoint : ∀ s, InFlight sys s → sys.log.diskLockVec s = true → InFlight { sys.setProc p (.flushing t point) with
      log := { sys.log with disk := disk } } s) :
    Inv { sys.setProc p (.flushing t point) with log := { sys.log with disk := disk } } where
  owned := by
    obtain ⟨hbusy, hmine⟩ := h.owned.saver p (by rw [hp]; rfl)
    refine h.owned.move (.inr (by rw [hp]; rfl)) (fun _ => ⟨hbusy, hmine⟩) (fun hno => ?_) id (.inl rfl) (fun _ => hbusy)
    rw [waits_of_saves hsaves] at hno
    nomatch hno
  kept := h.kept.move rfl rfl (fun s q hst => by
    injection hst with ht
    exact ⟨_, by rw [hp, ht]⟩)
  seen := by
    refine h.seen.move h.kept rfl (fun s hs hin u image' hst => ?_) (fun s hin hd => hdisk s hin (.inl hd))
      (fun s u hin hst => ?_) (fun s q hst => ?_) (fun s q hq hno => ?_)
    · injection hst with _ hq
      exact himage s hs hin image' hq
    · injection hst with _ hq
      exact hdisk s hin (.inr hq)
    · injection hst with ht hq
      have hin : InFlight sys s := h.seen.points p s (.saving image) (by rw [hp, ht])
      have hbit := h.kept.locked s (h.kept.flushing p s (.saving image) (by rw [hp, ht]))
      rw [← hq]
      cases point with
      | saving _ => exact hpoint s hin hbit
      | saved => exact ⟨hpoint s hin hbit, hdisk s hin (.inr rfl)⟩
      | _ => nomatch hsaves
    · rw [hp] at hq
      injection hq with ht
      exact absurd (by rw [ht]) (hno point)

/-! The end of a flush. -/

theorem wakeFlush_outside : Stage.wakeFlush .outside = .outside := rfl

theorem broadcast_flushReturn (sys : System) (p : Nat) (t : Option Nat) :
    ({ sys with log := { sys.log with busy := false } }.broadcastFlushed).flushReturn p t =
      { sys.flushReturn p t with log := { (sys.flushReturn p t).log with busy := false } }.broadcastFlushed := by
  have hwake : update (fun q => (sys.procs q).wakeFlush) p .outside =
      fun q => (update sys.procs p .outside q).wakeFlush := by
    funext q
    by_cases hqp : q = p
    · rw [hqp, update_self, update_self, wakeFlush_outside]
    · rw [update_of_ne hqp, update_of_ne hqp]
  cases hflag : sys.log.flushed <;> cases t <;>
    simp [System.broadcastFlushed, System.flushReturn, System.setProc, hflag, hwake]

section wake
variable {st : Stage} {t : Option Nat}

theorem wakeFlush_stripe : st.wakeFlush.stripe = st.stripe := by
  cases st with
  | flushing t point => cases point <;> rfl
  | _ => rfl

theorem wakeFlush_saves : st.wakeFlush.saves = st.saves := by
  cases st with
  | flushing t point => cases point <;> rfl
  | _ => rfl

theorem wakeFlush_waits : st.wakeFlush.waitsFlushed = false := by
  cases st with
  | flushing t point => cases point <;> rfl
  | _ => rfl

theorem wakeFlush_cases (h : st.wakeFlush = .flushing t point) :
    st = .flushing t .wait1 ∧ point = .woken1 ∨ st = .flushing t .wait2 ∧ point = .woken2 ∨ st = .flushing t point := by
  cases st with
  | flushing u old =>
    cases old <;> simp only [Stage.wakeFlush, Stage.flushing.injEq] at h <;> obtain ⟨rfl, rfl⟩ := h <;> simp
  | _ => nomatch h

end wake

theorem inv_broadcast (h : Inv sys) (hnone : ∀ q, (sys.procs q).saves = false)
    (hdisk : ∀ q s, sys.procs q = .flushing (some s) .wait2 → sys.log.disk s = true) :
    Inv ({ sys with log := { sys.log with busy := false } }.broadcastFlushed) := by
  rw [System.broadcastFlushed]
  split
  · have hin' : ∀ s, InFlight { sys with
        log := { sys.log with busy := false, flushed := false }, procs := fun q => (sys.procs q).wakeFlush } s := by
      intro s q t image hq
      replace hq : (sys.procs q).wakeFlush = .flushing t (.saving (some image)) := hq
      have hno := hnone q
      rw [← wakeFlush_saves, hq] at hno
      nomatch hno
    refine ⟨⟨fun q s hq => ?_, fun q hq => ?_, fun q hq => ?_⟩, ⟨h.kept.locked, h.kept.held, fun q s point hq => ?_⟩,
      ⟨fun q s point hq => ?_, fun s hs hno => ⟨hin' s, (h.seen.settled s hs (fun q point hq => ?_)).2⟩⟩⟩
    · obtain ⟨htaken, hmine⟩ := h.owned.owner q s (wakeFlush_stripe.symm.trans hq)
      exact ⟨htaken, fun r hr => hmine r (wakeFlush_stripe.symm.trans hr)⟩
    · rw [wakeFlush_saves, hnone q] at hq
      nomatch hq
    · rw [wakeFlush_waits] at hq
      nomatch hq
    · rcases wakeFlush_cases hq with ⟨hold, -⟩ | ⟨hold, -⟩ | hold
      · exact h.kept.flushing q s _ hold
      · exact h.kept.flushing q s _ hold
      · exact h.kept.flushing q s _ hold
    · rcases wakeFlush_cases hq with ⟨-, rfl⟩ | ⟨hold, rfl⟩ | hold
      · refine ⟨hin' s, fun r t hr => ?_⟩
        replace hr : (sys.procs r).wakeFlush = .flushing t .saved := hr
        have hno := hnone r
        rw [← wakeFlush_saves, hr] at hno
        nomatch hno
      · exact ⟨hin' s, hdisk q s hold⟩
      · refine (h.seen.points q s point hold).mono (fun _ => hin' s) (fun _ (hd : sys.log.disk s = true) => hd)
          (fun _ r t hr => ?_)
        replace hr : (sys.procs r).wakeFlush = .flushing t .saved := hr
        have hno := hnone r
        rw [← wakeFlush_saves, hr] at hno
        nomatch hno
    · cases point <;> exact hno q _ (congrArg Stage.wakeFlush hq)
  · rename_i hflag
    have hawake : ∀ q, (sys.procs q).waitsFlushed = true → False := fun q hq => hflag (h.owned.asleep q hq).2
    refine ⟨⟨h.owned.owner, fun q hq => ?_, fun q hq => absurd hq (hawake q)⟩,
      ⟨h.kept.locked, h.kept.held, h.kept.flushing⟩, ⟨h.seen.points, h.seen.settled⟩⟩
    rw [hnone q] at hq
    nomatch hq

theorem inv_flush (h : Inv sys) (henabled : sys.log.enabled = true)
    (hp : sys.procs p = .flushing t point) (hs : sys.flush p t point = some sys') : Inv sys' := by
  have hstripe : (sys.procs p).stripe = t := by rw [hp]; rfl
  have hbit : ∀ s, t = some s → sys.log.lockVec s = true := fun s ht => h.kept.flushing p s point (by rw [hp, ht])
  have hpoint : ∀ s, t = some s → PointOk sys s point := fun s ht => h.seen.points p s point (by rw [hp, ht])
  cases point with
  | enter =>
    rw [System.flush, if_neg (by rw [henabled]; exact Bool.true_eq_false.mp)] at hs
    split at hs
    · rename_i hbusy
      cases hs
      exact inv_waitFlushed h hp hbusy rfl (fun _ _ => trivial) (fun _ _ _ => nofun)
    · rename_i hidle
      cases hs
      exact inv_beginSave h hp (by simpa using hidle)
  | wait1 => nomatch hs
  | woken1 =>
    rw [System.flush] at hs
    split at hs
    · rename_i hbusy
      cases hs
      -- the output that goes on has begun after the bit was set
      refine inv_waitFlushed h hp hbusy rfl (fun s ht => ⟨inFlight_set (hpoint s ht).1 (fun _ _ => nofun), ?_⟩)
        (fun _ _ _ => nofun)
      intro q u hq
      exact (hpoint s ht).2 q u (of_update_ne hq nofun).2
    · rename_i hidle
      cases hs
      exact inv_beginSave h hp (by simpa using hidle)
  | wait2 => nomatch hs
  | woken2 =>
    cases hs
    exact inv_flushReturn h hstripe (fun s ht => ⟨hbit s ht, hpoint s ht⟩)
  | saving image =>
    cases image with
    | none =>
      cases hs
      exact inv_output h hp rfl
        (fun s hs _ image' hq => by
          cases hq
          exact hs)
        (fun s _ hd => hd.elim id nofun)
        (fun s hin hs => inFlight_set hin (fun u image' hst => by
          injection hst with _ hq
          cases hq
          exact hs))
    | some image =>
      cases hs
      have himage : ∀ s, InFlight sys s → image s = true := fun s hin => hin p t image hp
      exact inv_output h hp rfl (fun _ _ _ _ => nofun) (fun s hin _ => himage s hin)
        (fun s hin _ => inFlight_set hin (fun _ _ => nofun))
  | saved =>
    rw [← Option.some.inj hs, broadcast_flushReturn]
    have hmine := (h.owned.saver p (by rw [hp]; rfl)).2
    have hleft : ∀ q, (sys.flushReturn p t).procs q = update sys.procs p .outside q := by
      intro q
      cases t <;> rfl
    have hdiskEq : (sys.flushReturn p t).log = sys.log := by cases t <;> rfl
    refine inv_broadcast (inv_flushReturn h hstripe (fun s ht => ⟨hbit s ht, hpoint s ht⟩)) (fun q => ?_) (fun q s hq => ?_)
    · rw [hleft]
      by_cases hqp : q = p
      · rw [hqp, update_self]
        rfl
      · rw [update_of_ne hqp]
        by_contra hsave
        exact hqp (hmine q (by simpa using hsave))
    · rw [hleft] at hq
      rw [hdiskEq]
      exact (h.seen.points q s .wait2 (of_update_ne hq nofun).2).2 p t hp

theorem inv_unlog (h : Inv sys) (hs : sys.stripes s = .held) :
    Inv { sys with
      log := { sys.log with lockVec := clearBit s sys.log.lockVec }
      stripes := update sys.stripes s .unlogged } := by
  have hnone : ∀ q, (sys.procs q).stripe ≠ some s := by
    intro q hq
    have htaken := (h.owned.owner q s hq).1
    rw [hs] at htaken
    nomatch htaken
  have hclear : ∀ r, clearBit s sys.log.lockVec r = true ↔ r ≠ s ∧ sys.log.lockVec r = true := by
    intro r
    rw [clearBit, update_apply]
    split <;> simp [*]
  refine ⟨⟨fun q r hq => ⟨?_, (h.owned.owner q r hq).2⟩, h.owned.saver, h.owned.asleep⟩,
    ⟨fun r hr => h.kept.locked r ((hclear r).1 hr).2, fun r hr => ?_, fun q r point hq => ?_⟩,
    ⟨h.seen.points, h.seen.settled⟩⟩
  · have hrs : r ≠ s := by
      rintro rfl
      exact hnone q hq
    show update sys.stripes s .unlogged r = .taken
    rw [update_of_ne hrs]
    exact (h.owned.owner q r hq).1
  · obtain ⟨hrs, hr⟩ := of_update_ne hr nofun
    exact (hclear r).2 ⟨hrs, h.kept.held r hr⟩
  · have hrs : r ≠ s := by
      rintro rfl
      exact hnone q (by rw [hq]; rfl)
    exact (hclear r).2 ⟨hrs, h.kept.flushing q r point hq⟩

theorem wakeStripe_eq (st : Stage) (s : Nat) : st.wakeStripe s = st ∨ st = .lockAsleep s ∧ st.wakeStripe s = .lockWoken s := by
  cases st with
  | lockAsleep t =>
    rw [Stage.wakeStripe]
    split
    · rename_i hts
      rw [hts]
      exact .inr ⟨rfl, rfl⟩
    · exact .inl rfl
  | _ => exact .inl rfl

theorem inv_sunlock (h : Inv sys) (hs : sys.stripes s = .unlogged) :
    Inv { sys with
      stripes := update sys.stripes s .free
      procs := fun p => (sys.procs p).wakeStripe s } := by
  have hnone : ∀ q, (sys.procs q).stripe ≠ some s := by
    intro q hq
    have htaken := (h.owned.owner q s hq).1
    rw [hs] at htaken
    nomatch htaken
  have hstripe : ∀ q, ((sys.procs q).wakeStripe s).stripe = (sys.procs q).stripe := by
    intro q
    rcases wakeStripe_eq (sys.procs q) s with heq | ⟨hold, heq⟩
    · rw [heq]
    · rw [heq, hold]
      rfl
  have hsaves : ∀ q, ((sys.procs q).wakeStripe s).saves = (sys.procs q).saves := by
    intro q
    rcases wakeStripe_eq (sys.procs q) s with heq | ⟨hold, heq⟩
    · rw [heq]
    · rw [heq, hold]
      rfl
  have hwaits : ∀ q, ((sys.procs q).wakeStripe s).waitsFlushed = (sys.procs q).waitsFlushed := by
    intro q
    rcases wakeStripe_eq (sys.procs q) s with heq | ⟨hold, heq⟩
    · rw [heq]
    · rw [heq, hold]
      rfl
  have hflush : ∀ q t point, (sys.procs q).wakeStripe s = .flushing t point ↔ sys.procs q = .flushing t point := by
    intro q t point
    rcases wakeStripe_eq (sys.procs q) s with heq | ⟨hold, heq⟩
    · rw [heq]
    · rw [heq, hold]
      exact ⟨nofun, nofun⟩
  have hin : ∀ r, InFlight sys r → InFlight { sys with
      stripes := update sys.stripes s .free, procs := fun p => (sys.procs p).wakeStripe s } r :=
    fun r hin q t image hq => hin q t image ((hflush q t _).1 hq)
  refine ⟨⟨fun q r hq => ?_, fun q hq => ?_, fun q hq => ?_⟩, ⟨h.kept.locked, fun r hr => ?_, fun q r point hq => ?_⟩,
    ⟨fun q r point hq => ?_, fun r hr hno => ?_⟩⟩
  · replace hq : (sys.procs q).stripe = some r := (hstripe q).symm.trans hq
    obtain ⟨htaken, hmine⟩ := h.owned.owner q r hq
    refine ⟨?_, fun o ho => hmine o ((hstripe o).symm.trans ho)⟩
    have hrs : r ≠ s := by
      rintro rfl
      exact hnone q hq
    show update sys.stripes s .free r = .taken
    rw [update_of_ne hrs]
    exact htaken
  · obtain ⟨hbusy, hmine⟩ := h.owned.saver q ((hsaves q).symm.trans hq)
    exact ⟨hbusy, fun o ho => hmine o ((hsaves o).symm.trans ho)⟩
  · exact h.owned.asleep q ((hwaits q).symm.trans hq)
  · exact h.kept.held r (of_update_ne hr nofun).2
  · exact h.kept.flushing q r point ((hflush q _ _).1 hq)
  · exact (h.seen.points q r point ((hflush q _ _).1 hq)).mono (hin r) (fun _ hd => hd)
      (fun _ o t ho => .inr ((hflush o t _).1 ho))
  · obtain ⟨hflight, hd⟩ := h.seen.settled r hr (fun q point hq => hno q point ((hflush q _ _).2 hq))
    exact ⟨hin r hflight, hd⟩

theorem inv_of_step (h : Inv sys) (henabled : sys.log.enabled = true) (hc : sys.Careful l)
    (hs : sys.step l = some sys') : Inv sys' := by
  cases l with
  | xlock p s =>
    rw [System.step] at hs
    split at hs
    · rename_i hp
      cases hs
      exact inv_trySLock h (by rw [hp]; rfl) s
    · nomatch hs
  | retry p =>
    rw [System.step] at hs
    split at hs
    · rename_i s hp
      cases hs
      exact inv_trySLock h (by rw [hp]; rfl) s
    · nomatch hs
  | flush p =>
    rw [System.step] at hs
    split at hs
    · rename_i hp
      cases hs
      exact h.setProc rfl rfl rfl (by rw [hp]; rfl) (fun _ _ => nofun)
    · nomatch hs
  | go p =>
    rw [System.step] at hs
    split at hs
    · rename_i s hp
      cases hs
      exact inv_logStripe h hp
    · rename_i t point hp
      exact inv_flush h henabled hp hs
    · nomatch hs
  | read p bits =>
    rw [System.step] at hs
    split at hs
    · rename_i t image hp
      cases hs
      have hmix : ∀ s, sys.log.diskLockVec s = true → InFlight sys s → mix bits sys.log.diskLockVec image s = true := by
        intro s hbit hin
        rw [mix]
        split
        · exact hbit
        · exact hin p t image hp
      refine inv_output h hp rfl (fun s hbit hin image' hq => ?_) (fun s _ hd => hd.elim id nofun)
        (fun s hin hbit => inFlight_set hin (fun u image' hst => ?_))
      · cases hq
        exact hmix s hbit hin
      · injection hst with _ hq
        cases hq
        exact hmix s hbit hin
    · nomatch hs
  | fail p bits =>
    rw [System.step] at hs
    split at hs
    · rename_i t image hp
      cases hs
      refine inv_output h hp rfl (fun _ _ _ _ => nofun) (fun s hin hd => ?_)
        (fun s hin _ => inFlight_set hin (fun _ _ => nofun))
      rw [mix]
      split
      · exact hin p t image hp
      · exact hd.elim id nofun
    · nomatch hs
  | unlog s =>
    obtain ⟨hheld, heq⟩ := Option.ite_none_right_eq_some.1 hs
    cases heq
    exact inv_unlog h hheld
  | sunlock s =>
    obtain ⟨hunlogged, heq⟩ := Option.ite_none_right_eq_some.1 hs
    cases heq
    exact inv_sunlock h hunlogged
  | signal p =>
    rw [System.step] at hs
    split at hs
    · rename_i s hp
      cases hs
      exact h.setProc rfl rfl rfl (by rw [hp]; rfl) (fun _ _ => nofun)
    · cases hs
      -- it does not wait on `flushed`
      have hsame : (sys.procs p).wakeFlush = sys.procs p := by
        replace hc : (sys.procs p).waitsFlushed = false := hc
        revert hc
        generalize sys.procs p = st
        intro hc
        cases st with
        | flushing t point => cases point <;> first | rfl | nomatch hc
        | _ => rfl
      have hkeep : sys.setProc p (sys.procs p).wakeFlush = sys := by
        rw [hsame, System.setProc, update_eq_self]
      rw [hkeep]
      exact h

/-! The log stays enabled. -/

@[simp]
theorem flushReturn_log (t : Option Nat) : (sys.flushReturn p t).log = sys.log := by
  cases t <;> rfl

@[simp]
theorem broadcastFlushed_enabled : sys.broadcastFlushed.log.enabled = sys.log.enabled := by
  rw [System.broadcastFlushed]
  split <;> rfl

@[simp]
theorem setDiskBit_enabled (log : RaidLog) (s : Nat) : (log.setDiskBit s).enabled = log.enabled := by
  rw [RaidLog.setDiskBit]
  split <;> rfl

theorem logStripe_enabled (s : Nat) : (sys.logStripe p s).log.enabled = sys.log.enabled := by
  rw [System.logStripe]
  split <;> simp

theorem trySLock_enabled (s : Nat) : (sys.trySLock p s).log.enabled = sys.log.enabled := by
  rw [System.trySLock]
  split <;> rfl

theorem flush_enabled (hs : sys.flush p t point = some sys') : sys'.log.enabled = sys.log.enabled := by
  cases point with
  | enter =>
    rw [System.flush] at hs
    split at hs
    · rw [← Option.some.inj hs, flushReturn_log]
    · split at hs <;> rw [← Option.some.inj hs] <;> rfl
  | wait1 => nomatch hs
  | woken1 =>
    rw [System.flush] at hs
    split at hs <;> rw [← Option.some.inj hs] <;> rfl
  | wait2 => nomatch hs
  | woken2 => rw [← Option.some.inj hs, flushReturn_log]
  | saving image => cases image <;> rw [← Option.some.inj hs] <;> rfl
  | saved =>
    rw [← Option.some.inj hs, flushReturn_log, broadcastFlushed_enabled]

theorem enabled_of_step (hs : sys.step l = some sys') : sys'.log.enabled = sys.log.enabled := by
  cases l <;> rw [System.step] at hs <;> split at hs <;> first
    | exact flush_enabled hs
    | rw [← Option.some.inj hs, trySLock_enabled]
    | rw [← Option.some.inj hs, logStripe_enabled]
    | exact congrArg (·.log.enabled) (Option.some.inj hs).symm
    | nomatch hs

theorem initial_inv (disk : Nat → Bool) (restored : Bool) : Inv (System.initial disk restored) where
  owned := ⟨fun _ _ => nofun, fun _ => nofun, fun _ => nofun⟩
  kept := ⟨fun _ => nofun, fun _ => nofun, fun _ _ _ => nofun⟩
  seen := by
    refine ⟨fun _ _ _ => nofun, fun s hs _ => ⟨fun _ _ _ => nofun, ?_⟩⟩
    cases restored with
    | false => nomatch hs
    | true => exact hs

theorem Inv.logged (h : Inv sys) : Logged sys := by
  intro s hs
  refine (h.seen.settled s (h.kept.locked s (h.kept.held s hs)) (fun p point hp => ?_)).2
  have htaken := (h.owned.owner p s (by rw [hp]; rfl)).1
  rw [hs] at htaken
  nomatch htaken

end steps

instance (sys : System) (l : Label) : Decidable (sys.Careful l) :=
  match l with
  | .signal p => inferInstanceAs (Decidable ((sys.procs p).waitsFlushed = false))
  | .xlock _ _ => .isTrue trivial
  | .retry _ => .isTrue trivial
  | .flush _ => .isTrue trivial
  | .go _ => .isTrue trivial
  | .read _ _ => .isTrue trivial
  | .fail _ _ => .isTrue trivial
  | .unlog _ => .isTrue trivial
  | .sunlock _ => .isTrue trivial

/-- **What is locked is in the log on the device**, where no wait for the log is ended by a signal. -/
theorem stripes_logged (disk : Nat → Bool) (restored : Bool) {sys : System}
    (hrun : Run System.step System.Careful (System.initial disk restored) sys) : Logged sys := by
  have hinv : Inv sys ∧ sys.log.enabled = true :=
    hrun.invariant (I := fun sys => Inv sys ∧ sys.log.enabled = true)
      (fun _ _ _ hi hc hs => ⟨inv_of_step hi.1 hi.2 hc hs, (enabled_of_step hs).trans hi.2⟩)
      ⟨initial_inv disk restored, rfl⟩
  exact hinv.1.logged

/-- **A stripe has one process that takes it, and the log one that writes it**; what is held is in both vectors. -/
theorem stripes_owned (disk : Nat → Bool) (restored : Bool) {sys : System}
    (hrun : Run System.step System.Careful (System.initial disk restored) sys) :
    (∀ p s, (sys.procs p).stripe = some s → sys.stripes s = .taken ∧ ∀ q, (sys.procs q).stripe = some s → q = p) ∧
    (∀ p, (sys.procs p).saves = true → sys.log.busy = true ∧ ∀ q, (sys.procs q).saves = true → q = p) ∧
    ∀ s, sys.stripes s = .held → sys.log.lockVec s = true ∧ sys.log.diskLockVec s = true := by
  obtain ⟨⟨howned, hkept, -⟩, -⟩ := hrun.invariant (I := fun sys => Inv sys ∧ sys.log.enabled = true)
    (fun _ _ _ hi hc hs => ⟨inv_of_step hi.1 hi.2 hc hs, (enabled_of_step hs).trans hi.2⟩) ⟨initial_inv disk restored, rfl⟩
  exact ⟨howned.owner, howned.saver, fun s hs => ⟨hkept.held s hs, hkept.locked s (hkept.held s hs)⟩⟩

/-- Process 0 writes the log for stripe 3, and has read it when process 1 sets the bit of
    stripe 4. -/
def twoStripes : List Label := [.xlock 0 3, .go 0, .go 0, .go 0, .xlock 1 4, .go 1, .go 1]

/-- The output fails, and is begun anew. Then process 1 writes the log too. -/
def flushedTwice : List Label :=
  twoStripes ++ [.fail 0 (fun _ => true), .go 0, .go 0, .go 0, .go 1, .go 1, .go 1, .go 1]

theorem both_logged :
    ∃ sys, exec (guarded System.Careful System.step) (System.initial (fun _ => false) false) flushedTwice = some sys ∧
      sys.stripes 3 = .held ∧ sys.stripes 4 = .held ∧ Logged sys :=
  ⟨_, rfl, rfl, rfl, stripes_logged (fun _ => false) false (run_of_guarded flushedTwice _ _ rfl)⟩

theorem stripes_owned_two : ∃ sys, exec (guarded System.Careful System.step) (System.initial (fun _ => false) false) twoStripes = some sys ∧
    ∀ q, (sys.procs q).saves = true → q = 0 :=
  ⟨_, rfl, ((stripes_owned (fun _ => false) false (run_of_guarded twoStripes _ _ rfl)).2.1 0 rfl).2⟩

/-- A signal makes process 1 take the output of process 0 for one begun since, and wait for that. -/
def signalled : List Label := twoStripes ++ [.signal 1, .go 1, .go 0, .go 0, .go 1]

theorem stripe_not_logged :
    ∃ sys, Run System.step (fun _ _ => True) (System.initial (fun _ => false) false) sys ∧
      sys.stripes 4 = .held ∧ sys.log.disk 4 = false :=
  ⟨_, run_of_exec (A := fun _ => True) signalled _ _ (fun _ _ => trivial) rfl, rfl, rfl⟩

end SpriteKernel.DevRaid.StripeLog
