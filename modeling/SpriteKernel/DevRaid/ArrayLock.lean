import SpriteKernel.Lib.Transition
import SpriteKernel.Lib.Update
import SpriteKernel.Lib.Tally

/- The lock of a whole array (devRaidLock.c): users that may share it, and exclusive holders. `Raid_Disable` keeps
   new users out until `Raid_Enable`. A label is what happens under `raidPtr->mutex` at a stretch. A process that is
   woken up takes the mutex again later. -/
namespace SpriteKernel.DevRaid.ArrayLock

open Function
open Transition Tally

/-- Where a user of the array is. A user that is woken up has not looked again yet. -/
inductive Stage where
  | outside
  | useAsleep
  | useWoken
  | inUse
  | lockAsleep
  | lockWoken
  | locked
  deriving DecidableEq

/-- The fields of `Raid` the lock is made of; of a condition, whether its `waiting` is set. -/
structure Raid where
  numReqInSys : Int
  numWaitExclusive : Int
  waitExclusive : Bool
  waitNonExclusive : Bool

/-- The array, its users, and how many times each process has disabled it. -/
structure System where
  raid : Raid
  users : Nat → Stage
  disables : Nat → Nat

def System.initial : System := ⟨⟨0, 0, false, false⟩, fun _ => .outside, fun _ => 0⟩

inductive Label where
  | beginUse (u : Nat)
  | endUse (u : Nat)
  | lock (u : Nat)
  | unlock (u : Nat)
  | disable (p : Nat)
  | enable (p : Nat)
  | retry (u : Nat)
  | signal (u : Nat)

/-- A process waiting on `waitNonExclusive` is made ready, or one on `waitExclusive`. -/
def Stage.wakeUse : Stage → Stage
  | .useAsleep => .useWoken
  | st => st

def Stage.wakeLock : Stage → Stage
  | .lockAsleep => .lockWoken
  | st => st

/-- `Sync_MasterBroadcast` on each condition. -/
def System.broadcastNonExclusive (s : System) : System :=
  if s.raid.waitNonExclusive then
    { s with raid := { s.raid with waitNonExclusive := false }, users := fun u => (s.users u).wakeUse }
  else s

def System.broadcastExclusive (s : System) : System :=
  if s.raid.waitExclusive then
    { s with raid := { s.raid with waitExclusive := false }, users := fun u => (s.users u).wakeLock }
  else s

def System.setUser (s : System) (u : Nat) (st : Stage) : System := { s with users := update s.users u st }

/-- `Raid_BeginUse` cannot go on. -/
def Raid.Shut (r : Raid) : Prop := r.numReqInSys = -1 ∨ r.numWaitExclusive > 0

instance (r : Raid) : Decidable r.Shut := inferInstanceAs (Decidable (_ ∨ _))

/-- The loop of `Raid_BeginUse`, once. -/
def System.tryUse (s : System) (u : Nat) : System :=
  if s.raid.Shut then { s.setUser u .useAsleep with raid := { s.raid with waitNonExclusive := true } }
  else { s.setUser u .inUse with raid := { s.raid with numReqInSys := s.raid.numReqInSys + 1 } }

/-- The loop of `Raid_Lock`, once. -/
def System.tryLock (s : System) (u : Nat) : System :=
  if s.raid.numReqInSys ≠ 0 then { s.setUser u .lockAsleep with raid := { s.raid with waitExclusive := true } }
  else
    { s.setUser u .locked with
      raid := { s.raid with numWaitExclusive := s.raid.numWaitExclusive - 1, numReqInSys := -1 } }

def System.endUse (s : System) (u : Nat) : System :=
  let s := { s.setUser u .outside with raid := { s.raid with numReqInSys := s.raid.numReqInSys - 1 } }
  if s.raid.numReqInSys = 0 then s.broadcastExclusive else s

def System.unlock (s : System) (u : Nat) : System :=
  let s := { s.setUser u .outside with raid := { s.raid with numReqInSys := 0 } }
  if s.raid.numWaitExclusive > 0 then s.broadcastExclusive else s.broadcastNonExclusive

/-- A number is added to `numWaitExclusive`. -/
def Raid.addWait (r : Raid) (n : Int) : Raid := { r with numWaitExclusive := r.numWaitExclusive + n }

/-- One step. A user ends what he began, and a process enables what it disabled. -/
def System.step (s : System) : Label → Option System
  | .beginUse u => if s.users u = .outside then some (s.tryUse u) else none
  | .endUse u => if s.users u = .inUse then some (s.endUse u) else none
  | .lock u => if s.users u = .outside then some ({ s with raid := s.raid.addWait 1 }.tryLock u) else none
  | .unlock u => if s.users u = .locked then some (s.unlock u) else none
  | .disable p =>
    some { s with raid := s.raid.addWait 1, disables := update s.disables p (s.disables p + 1) }
  | .enable p =>
    if 0 < s.disables p then
      some ({ s with
        raid := s.raid.addWait (-1)
        disables := update s.disables p (s.disables p - 1) }.broadcastExclusive.broadcastNonExclusive)
    else none
  | .retry u =>
    match s.users u with
    | .useWoken => some (s.tryUse u)
    | .lockWoken => some (s.tryLock u)
    | _ => none
  | .signal u => some (s.setUser u (s.users u).wakeUse.wakeLock)

/-- Whether a process is in the loop of `Raid_Lock`. -/
def Stage.waitsExclusive : Stage → Int
  | .lockAsleep => 1
  | .lockWoken => 1
  | _ => 0

/-- What is promised. -/
structure Sound (s : System) : Prop where
  exclusive : ∀ u, s.users u = .locked → ∀ v, v ≠ u → s.users v ≠ .locked ∧ s.users v ≠ .inUse
  held : s.raid.numReqInSys = -1 ↔ ∃ u, s.users u = .locked
  shared : (∀ u, s.users u ≠ .locked) → Sums (fun u => if s.users u = .inUse then 1 else 0) s.raid.numReqInSys
  waiting : Sums (fun u => (s.users u).waitsExclusive + s.disables u) s.raid.numWaitExclusive
  useAsleep : ∀ u, s.users u = .useAsleep → s.raid.Shut
  lockAsleep : ∀ u, s.users u = .lockAsleep → s.raid.numReqInSys ≠ 0

/-! What a step does to the counters. -/

/-- The share of a user in `numReqInSys`. -/
def Stage.share : Stage → Int
  | .inUse => 1
  | .locked => -1
  | _ => 0

/-- What the counters say. -/
structure Counted (s : System) : Prop where
  exclusive : ∀ u, s.users u = .locked → ∀ v, v ≠ u → (s.users v).share = 0
  shares : Sums (fun u => (s.users u).share) s.raid.numReqInSys
  waiting : Sums (fun u => (s.users u).waitsExclusive + s.disables u) s.raid.numWaitExclusive

/-- A broadcast is not missed. -/
structure Flagged (s : System) : Prop where
  use : ∀ u, s.users u = .useAsleep → s.raid.waitNonExclusive = true
  lock : ∀ u, s.users u = .lockAsleep → s.raid.waitExclusive = true

/-- Who sleeps could not go on. -/
structure Blocked (s : System) : Prop where
  use : ∀ u, s.users u = .useAsleep → s.raid.Shut
  lock : ∀ u, s.users u = .lockAsleep → s.raid.numReqInSys ≠ 0

structure Inv (s : System) : Prop where
  counted : Counted s
  flagged : Flagged s
  blocked : Blocked s

section stages
variable {st : Stage}

@[simp] theorem wakeUse_share : st.wakeUse.share = st.share := by cases st <;> rfl
@[simp] theorem wakeLock_share : st.wakeLock.share = st.share := by cases st <;> rfl
@[simp] theorem wakeUse_waits : st.wakeUse.waitsExclusive = st.waitsExclusive := by cases st <;> rfl
@[simp] theorem wakeLock_waits : st.wakeLock.waitsExclusive = st.waitsExclusive := by cases st <;> rfl
theorem wakeUse_locked : st.wakeUse = .locked ↔ st = .locked := by cases st <;> decide
theorem wakeLock_locked : st.wakeLock = .locked ↔ st = .locked := by cases st <;> decide
theorem wakeUse_useAsleep : st.wakeUse ≠ .useAsleep := by cases st <;> decide
theorem wakeLock_lockAsleep : st.wakeLock ≠ .lockAsleep := by cases st <;> decide
theorem wakeLock_useAsleep : st.wakeLock = .useAsleep ↔ st = .useAsleep := by cases st <;> decide
theorem wakeUse_lockAsleep : st.wakeUse = .lockAsleep ↔ st = .lockAsleep := by cases st <;> decide
theorem share_eq_zero : st.share = 0 ↔ st ≠ .locked ∧ st ≠ .inUse := by cases st <;> decide

end stages

section moves
variable {s : System}

theorem Counted.move (h : Counted s) (u : Nat) (st : Stage) {r : Raid}
    (hshare : r.numReqInSys = s.raid.numReqInSys + (st.share - (s.users u).share))
    (hwait : r.numWaitExclusive = s.raid.numWaitExclusive + (st.waitsExclusive - (s.users u).waitsExclusive))
    (hlocked : st = .locked → ∀ v, v ≠ u → (s.users v).share = 0)
    (hothers : st.share ≠ 0 → ∀ v, v ≠ u → s.users v ≠ .locked) :
    Counted { s with raid := r, users := update s.users u st } where
  exclusive := by
    intro v hv w hw
    show (update s.users u st w).share = 0
    obtain ⟨rfl, hst⟩ | ⟨hvu, hv⟩ := of_update hv
    · rw [update_of_ne hw]
      exact hlocked hst w hw
    · by_cases hwu : w = u
      · rw [hwu, update_self]
        by_contra hne
        exact hothers hne v hvu hv
      · rw [update_of_ne hwu]
        exact h.exclusive v hv w hw
  shares := by
    have hc := h.shares.change u (g := fun v => (update s.users u st v).share)
      (fun v hv => by rw [update_of_ne hv])
    rw [update_self, ← hshare] at hc
    exact hc
  waiting := by
    have hc := h.waiting.change u (g := fun v => (update s.users u st v).waitsExclusive + (s.disables v : Int))
      (fun v hv => by rw [update_of_ne hv])
    rw [update_self, add_sub_add_right_eq_sub, ← hwait] at hc
    exact hc

theorem Counted.setDisables (h : Counted s) (p n : Nat) :
    Counted { s with
      raid := s.raid.addWait ((n : Int) - s.disables p)
      disables := update s.disables p n } where
  exclusive := h.exclusive
  shares := h.shares
  waiting := by
    have hc := h.waiting.change p
      (g := fun v => (s.users v).waitsExclusive + ((update s.disables p n v : Nat) : Int))
      (fun v hv => by rw [update_of_ne hv])
    rw [update_self, add_sub_add_left_eq_sub] at hc
    exact hc

theorem Flagged.move (h : Flagged s) (u : Nat) (st : Stage) {r : Raid}
    (huse : r.waitNonExclusive = s.raid.waitNonExclusive ∧ st ≠ .useAsleep ∨ r.waitNonExclusive = true)
    (hlock : r.waitExclusive = s.raid.waitExclusive ∧ st ≠ .lockAsleep ∨ r.waitExclusive = true) :
    Flagged { s with raid := r, users := update s.users u st } where
  use := by
    intro v hv
    rcases huse with ⟨heq, hst⟩ | htrue
    · exact heq.trans (h.use v (of_update_ne hv hst).2)
    · exact htrue
  lock := by
    intro v hv
    rcases hlock with ⟨heq, hst⟩ | htrue
    · exact heq.trans (h.lock v (of_update_ne hv hst).2)
    · exact htrue

/-! After a broadcast. -/

theorem Counted.broadcastExclusive (h : Counted s) : Counted s.broadcastExclusive := by
  rw [System.broadcastExclusive]
  split
  · refine ⟨fun u hu v hv => ?_, ?_, ?_⟩
    · rw [wakeLock_share]
      exact h.exclusive u (wakeLock_locked.1 hu) v hv
    · exact h.shares.congr (fun u => wakeLock_share)
    · exact h.waiting.congr (fun u => by rw [wakeLock_waits])
  · exact h

theorem Counted.broadcastNonExclusive (h : Counted s) : Counted s.broadcastNonExclusive := by
  rw [System.broadcastNonExclusive]
  split
  · refine ⟨fun u hu v hv => ?_, ?_, ?_⟩
    · rw [wakeUse_share]
      exact h.exclusive u (wakeUse_locked.1 hu) v hv
    · exact h.shares.congr (fun u => wakeUse_share)
    · exact h.waiting.congr (fun u => by rw [wakeUse_waits])
  · exact h

theorem broadcastExclusive_spec (h : Flagged s) : Flagged s.broadcastExclusive ∧
    (∀ u, s.broadcastExclusive.users u ≠ .lockAsleep) ∧
    (∀ u, s.broadcastExclusive.users u = .useAsleep → s.users u = .useAsleep) ∧
    s.broadcastExclusive.raid.numReqInSys = s.raid.numReqInSys ∧
    s.broadcastExclusive.raid.numWaitExclusive = s.raid.numWaitExclusive := by
  rw [System.broadcastExclusive]
  split
  · exact ⟨⟨fun u hu => h.use u (wakeLock_useAsleep.1 hu), fun u hu => absurd hu wakeLock_lockAsleep⟩,
      fun u => wakeLock_lockAsleep, fun u hu => wakeLock_useAsleep.1 hu, rfl, rfl⟩
  · rename_i hflag
    exact ⟨h, fun u hu => hflag (h.lock u hu), fun u hu => hu, rfl, rfl⟩

theorem broadcastNonExclusive_spec (h : Flagged s) : Flagged s.broadcastNonExclusive ∧
    (∀ u, s.broadcastNonExclusive.users u ≠ .useAsleep) ∧
    (∀ u, s.broadcastNonExclusive.users u = .lockAsleep → s.users u = .lockAsleep) ∧
    s.broadcastNonExclusive.raid.numReqInSys = s.raid.numReqInSys ∧
    s.broadcastNonExclusive.raid.numWaitExclusive = s.raid.numWaitExclusive := by
  rw [System.broadcastNonExclusive]
  split
  · exact ⟨⟨fun u hu => absurd hu wakeUse_useAsleep, fun u hu => h.lock u (wakeUse_lockAsleep.1 hu)⟩,
      fun u => wakeUse_useAsleep, fun u hu => wakeUse_lockAsleep.1 hu, rfl, rfl⟩
  · rename_i hflag
    exact ⟨h, fun u hu => hflag (h.use u hu), fun u hu => hu, rfl, rfl⟩

/-! What the counters say of the users. -/

theorem Counted.locked_reqs (h : Counted s) {u : Nat} (hu : s.users u = .locked) : s.raid.numReqInSys = -1 := by
  have hrest := (h.shares.erase u).eq_zero (fun v => by
    by_cases hv : v = u
    · rw [hv, update_self]
    · rw [update_of_ne hv]
      exact h.exclusive u hu v hv)
  rw [hu] at hrest
  exact Int.eq_of_sub_eq_zero hrest

theorem share_nonneg {st : Stage} (h : st ≠ .locked) : 0 ≤ st.share := by
  cases st <;> simp_all [Stage.share]

theorem Counted.exists_locked (h : Counted s) (hreq : s.raid.numReqInSys = -1) : ∃ u, s.users u = .locked := by
  by_contra hno
  have hnonneg : 0 ≤ s.raid.numReqInSys :=
    h.shares.induction (fun n => 0 ≤ n) (Int.le_refl 0) (fun a b => Int.add_nonneg)
      (fun u => share_nonneg (fun hu => hno ⟨u, hu⟩))
  omega

theorem Counted.share_of_zero (h : Counted s) (hreq : s.raid.numReqInSys = 0) (u : Nat) : (s.users u).share = 0 := by
  have hall : ∀ v, 0 ≤ (s.users v).share := by
    intro v
    apply share_nonneg
    intro hv
    have hneg := h.locked_reqs hv
    omega
  have hle := h.shares.value_le hall u
  have hge := hall u
  omega

theorem Counted.wait_pos (h : Counted s) {u : Nat} (hu : s.users u = .lockAsleep) : 0 < s.raid.numWaitExclusive := by
  have hle := h.waiting.value_le (fun v => by cases s.users v <;> simp only [Stage.waitsExclusive] <;> omega) u
  rw [hu, Stage.waitsExclusive] at hle
  omega

end moves

section steps
variable {s s' : System} {u : Nat}

theorem inv_tryUse (h : Inv s) (hu : s.users u = .outside ∨ s.users u = .useWoken) : Inv (s.tryUse u) := by
  have hshare : (s.users u).share = 0 := by rcases hu with hu | hu <;> rw [hu] <;> rfl
  have hwaits : (s.users u).waitsExclusive = 0 := by rcases hu with hu | hu <;> rw [hu] <;> rfl
  rw [System.tryUse]
  split
  · rename_i hshut
    refine ⟨h.counted.move u _ (by rw [hshare]; exact (Int.add_zero _).symm) (by rw [hwaits]; exact (Int.add_zero _).symm)
      nofun (fun hno => absurd rfl hno), h.flagged.move u _ (.inr rfl) (.inl ⟨rfl, nofun⟩), fun _ _ => hshut, ?_⟩
    exact fun v hv => h.blocked.lock v (of_update_ne hv nofun).2
  · rename_i hopen
    rw [Raid.Shut, not_or] at hopen
    refine ⟨h.counted.move u _ (by rw [hshare]; rfl) (by rw [hwaits]; exact (Int.add_zero _).symm) nofun
      (fun _ v _ hv => hopen.1 (h.counted.locked_reqs hv)), h.flagged.move u _ (.inl ⟨rfl, nofun⟩) (.inl ⟨rfl, nofun⟩),
      fun v hv => ?_, fun v _ hzero => ?_⟩
    · exact absurd (h.blocked.use v (of_update_ne hv nofun).2) (not_or.2 hopen)
    · replace hzero : s.raid.numReqInSys + 1 = 0 := hzero
      omega

theorem inv_tryLock (h : Inv s) (hu : s.users u = .lockWoken) : Inv (s.tryLock u) := by
  have hshare : (s.users u).share = 0 := by rw [hu]; rfl
  have hwaits : (s.users u).waitsExclusive = 1 := by rw [hu]; rfl
  rw [System.tryLock]
  split
  · rename_i hbusy
    refine ⟨h.counted.move u _ (by rw [hshare]; exact (Int.add_zero _).symm) (by rw [hwaits]; exact (Int.add_zero _).symm)
      nofun (fun hno => absurd rfl hno), h.flagged.move u _ (.inl ⟨rfl, nofun⟩) (.inr rfl), ?_, fun _ _ => hbusy⟩
    exact fun v hv => h.blocked.use v (of_update_ne hv nofun).2
  · rename_i hidle
    have hzero : s.raid.numReqInSys = 0 := not_not.1 hidle
    refine ⟨h.counted.move u _ (by rw [hzero, hshare]; rfl) (by rw [hwaits]; rfl) (fun _ v _ => h.counted.share_of_zero hzero v)
      (fun _ v _ hv => ?_), h.flagged.move u _ (.inl ⟨rfl, nofun⟩) (.inl ⟨rfl, nofun⟩), fun _ _ => .inl rfl,
      fun _ _ hno => nomatch hno⟩
    have hneg := h.counted.locked_reqs hv
    omega

theorem inv_enterLock (h : Inv s) (hu : s.users u = .outside) :
    Inv { s with raid := s.raid.addWait 1, users := update s.users u .lockWoken } := by
  refine ⟨h.counted.move u _ (by rw [hu]; exact (Int.add_zero _).symm) (by rw [hu]; rfl) nofun (fun hno => absurd rfl hno),
    h.flagged.move u _ (.inl ⟨rfl, nofun⟩) (.inl ⟨rfl, nofun⟩), fun v hv => ?_, fun v hv => ?_⟩
  · refine (h.blocked.use v (of_update_ne hv nofun).2).imp id (fun hpos => ?_)
    show 0 < s.raid.numWaitExclusive + 1
    omega
  · exact h.blocked.lock v (of_update_ne hv nofun).2

theorem tryLock_enter (s : System) (u : Nat) (r : Raid) :
    ({ s with raid := r } : System).tryLock u =
      ({ s with raid := r, users := update s.users u .lockWoken } : System).tryLock u := by
  simp only [System.tryLock, System.setUser, Function.update_idem]

section
variable (h : Inv s)
include h

theorem inv_endUse (hu : s.users u = .inUse) : Inv (s.endUse u) := by
  have hcounted : Counted { s.setUser u .outside with raid := { s.raid with numReqInSys := s.raid.numReqInSys - 1 } } :=
    h.counted.move u .outside (by rw [hu]; rfl) (by rw [hu]; exact (Int.add_zero _).symm) nofun
      (fun hno => absurd rfl hno)
  have hflagged : Flagged { s.setUser u .outside with raid := { s.raid with numReqInSys := s.raid.numReqInSys - 1 } } :=
    h.flagged.move u .outside (.inl ⟨rfl, nofun⟩) (.inl ⟨rfl, nofun⟩)
  -- where there is a user, only a wait for exclusive access keeps another out
  have huse : ∀ v, s.users v = .useAsleep → s.raid.numWaitExclusive > 0 := by
    intro v hv
    rcases h.blocked.use v hv with hneg | hpos
    · obtain ⟨w, hw⟩ := h.counted.exists_locked hneg
      by_cases huw : u = w
      · rw [huw, hw] at hu
        nomatch hu
      · have hshare := h.counted.exclusive w hw u huw
        rw [hu] at hshare
        nomatch hshare
    · exact hpos
  rw [System.endUse]
  split
  · obtain ⟨hflag, hnone, hsame, hreq, hwait⟩ := broadcastExclusive_spec hflagged
    refine ⟨hcounted.broadcastExclusive, hflag, fun v hv => .inr ?_, fun v hv => absurd hv (hnone v)⟩
    rw [hwait]
    exact huse v (of_update_ne (hsame v hv) nofun).2
  · rename_i hmore
    exact ⟨hcounted, hflagged, fun v hv => .inr (huse v (of_update_ne hv nofun).2), fun _ _ => hmore⟩

theorem inv_unlock (hu : s.users u = .locked) : Inv (s.unlock u) := by
  have hneg := h.counted.locked_reqs hu
  have hcounted : Counted { s.setUser u .outside with raid := { s.raid with numReqInSys := 0 } } :=
    h.counted.move u .outside (by rw [hu, hneg]; rfl) (by rw [hu]; exact (Int.add_zero _).symm) nofun
      (fun hno => absurd rfl hno)
  have hflagged : Flagged { s.setUser u .outside with raid := { s.raid with numReqInSys := 0 } } :=
    h.flagged.move u .outside (.inl ⟨rfl, nofun⟩) (.inl ⟨rfl, nofun⟩)
  rw [System.unlock]
  split
  · rename_i hpos
    obtain ⟨hflag, hnone, -, -, hwait⟩ := broadcastExclusive_spec hflagged
    exact ⟨hcounted.broadcastExclusive, hflag, fun v _ => .inr (by rw [hwait]; exact hpos),
      fun v hv => absurd hv (hnone v)⟩
  · rename_i hpos
    obtain ⟨hflag, hnone, hsame, -, -⟩ := broadcastNonExclusive_spec hflagged
    exact ⟨hcounted.broadcastNonExclusive, hflag, fun v hv => absurd hv (hnone v),
      fun v hv => absurd (hcounted.wait_pos (hsame v hv)) hpos⟩

theorem inv_disable (p : Nat) :
    Inv { s with raid := s.raid.addWait 1, disables := update s.disables p (s.disables p + 1) } where
  counted := by
    have hc := h.counted.setDisables p (s.disables p + 1)
    have hone : ((s.disables p + 1 : Nat) : Int) - s.disables p = 1 := by omega
    rw [hone] at hc
    exact hc
  flagged := ⟨h.flagged.use, h.flagged.lock⟩
  blocked :=
    { use := fun v hv => (h.blocked.use v hv).imp id (fun hpos => Int.lt_trans hpos (Int.lt_succ _))
      lock := h.blocked.lock }

theorem inv_enable {p : Nat} (hp : 0 < s.disables p) :
    Inv ({ s with
      raid := s.raid.addWait (-1)
      disables := update s.disables p (s.disables p - 1) }.broadcastExclusive.broadcastNonExclusive) := by
  have hcounted : Counted { s with
      raid := s.raid.addWait (-1)
      disables := update s.disables p (s.disables p - 1) } := by
    have hc := h.counted.setDisables p (s.disables p - 1)
    have hone : ((s.disables p - 1 : Nat) : Int) - s.disables p = -1 := by omega
    rw [hone] at hc
    exact hc
  obtain ⟨hflag, hnone, -⟩ := broadcastExclusive_spec (s := { s with
      raid := s.raid.addWait (-1)
      disables := update s.disables p (s.disables p - 1) }) ⟨h.flagged.use, h.flagged.lock⟩
  obtain ⟨hflag', hnone', hsame, -⟩ := broadcastNonExclusive_spec hflag
  exact ⟨hcounted.broadcastExclusive.broadcastNonExclusive, hflag', fun v hv => absurd hv (hnone' v),
    fun v hv => absurd (hsame v hv) (hnone v)⟩

theorem inv_signal (u : Nat) : Inv (s.setUser u (s.users u).wakeUse.wakeLock) := by
  have hasleep : (s.users u).wakeUse.wakeLock ≠ .useAsleep := fun hno => wakeUse_useAsleep (wakeLock_useAsleep.1 hno)
  refine ⟨h.counted.move u _ (by simp) (by simp) (fun hlocked => ?_) (fun hshare v hv hlocked => ?_),
    h.flagged.move u _ (.inl ⟨rfl, hasleep⟩) (.inl ⟨rfl, wakeLock_lockAsleep⟩),
    fun v hv => h.blocked.use v (of_update_ne hv hasleep).2, fun v hv => h.blocked.lock v (of_update_ne hv wakeLock_lockAsleep).2⟩
  · exact h.counted.exclusive u (wakeUse_locked.1 (wakeLock_locked.1 hlocked))
  · rw [wakeLock_share, wakeUse_share] at hshare
    exact hshare (h.counted.exclusive v hlocked u (Ne.symm hv))

theorem inv_of_step {l : Label} (hs : s.step l = some s') : Inv s' := by
  cases l with
  | beginUse u =>
    obtain ⟨hu, heq⟩ := Option.ite_none_right_eq_some.1 hs
    cases heq
    exact inv_tryUse h (.inl hu)
  | endUse u =>
    obtain ⟨hu, heq⟩ := Option.ite_none_right_eq_some.1 hs
    cases heq
    exact inv_endUse h hu
  | lock u =>
    obtain ⟨hu, heq⟩ := Option.ite_none_right_eq_some.1 hs
    rw [← Option.some.inj heq, tryLock_enter]
    exact inv_tryLock (inv_enterLock h hu) (update_self _ _ _)
  | unlock u =>
    obtain ⟨hu, heq⟩ := Option.ite_none_right_eq_some.1 hs
    cases heq
    exact inv_unlock h hu
  | disable p =>
    cases hs
    exact inv_disable h p
  | enable p =>
    obtain ⟨hp, heq⟩ := Option.ite_none_right_eq_some.1 hs
    cases heq
    exact inv_enable h hp
  | retry u =>
    rw [System.step] at hs
    split at hs
    · rename_i hu
      cases hs
      exact inv_tryUse h (.inr hu)
    · rename_i hu
      cases hs
      exact inv_tryLock h hu
    · nomatch hs
  | signal u =>
    cases hs
    exact inv_signal h u

end

theorem initial_inv : Inv System.initial where
  counted := ⟨fun _ => nofun, sums_zero, sums_zero⟩
  flagged := ⟨fun _ => nofun, fun _ => nofun⟩
  blocked := ⟨fun _ => nofun, fun _ => nofun⟩

theorem Inv.sound (h : Inv s) : Sound s where
  exclusive := fun u hu v hv => share_eq_zero.1 (h.counted.exclusive u hu v hv)
  held := ⟨h.counted.exists_locked, fun ⟨_, hu⟩ => h.counted.locked_reqs hu⟩
  shared := by
    intro hnone
    apply h.counted.shares.congr
    intro u
    have hu := hnone u
    cases hst : s.users u with
    | locked => exact absurd hst hu
    | _ => rfl
  waiting := h.counted.waiting
  useAsleep := h.blocked.use
  lockAsleep := h.blocked.lock

end steps

/-- **The lock is sound in every state that is reached.** -/
theorem array_lock_sound {s : System} (hrun : Run System.step (fun _ _ => True) System.initial s) : Sound s :=
  (hrun.invariant (fun _ _ _ hi _ hs => inv_of_step hi hs) initial_inv).sound

/-- User 1 waits for user 0, and user 2 for both of them and for process 9. -/
def threeUsers : List Label :=
  [.beginUse 0, .lock 1, .disable 9, .beginUse 2, .signal 2, .retry 2, .endUse 0, .retry 1, .unlock 1]

theorem three_users_sound : ∃ s, exec System.step System.initial threeUsers = some s ∧ s.users 2 = .useAsleep ∧ Sound s :=
  ⟨_, rfl, rfl, array_lock_sound (run_of_exec (A := fun _ => True) threeUsers _ _ (fun _ _ => trivial) rfl)⟩

end SpriteKernel.DevRaid.ArrayLock
