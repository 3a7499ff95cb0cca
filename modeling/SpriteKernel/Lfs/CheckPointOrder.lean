import SpriteKernel.Lfs.SegCheckPoint
import SpriteKernel.Lib.Transition

/- Which checkpoint is the newest, over all runs: the one with the latest capture, as long as none is written while
   an earlier captured one is still to be written by the other of the cleaner and the process that has
   `LFS_SYNC_CHECKPOINT_ACTIVE`. -/
namespace SpriteKernel.Lfs.CheckPoints

open Function List

open Transition

/-! ## What a step does -/

def Call.Early : Call → Prop
  | .captured _ => False
  | .written => False
  | _ => True

/-- The call is behind the wait for other checkpoints. -/
def Call.Inside : Call → Prop
  | .out => False
  | .waiting => False
  | .queued _ => False
  | _ => True

/-- Whether `LFS_SYNC_CHECKPOINT_ACTIVE` is set by a process that goes on to `c`. -/
def TakesTurn (s : State) (p : Proc) (f : Flags) (c : Call) : Prop :=
  (f.syncCheckPointActive = s.flags.syncCheckPointActive ∧ (c.Inside → p = none ∨ (s.calls p).Inside)) ∨
    (s.flags.syncCheckPointActive = false ∧ f.syncCheckPointActive = true)

/-- The steps, by what they change. -/
inductive Effect (s : State) : Act → State → Prop where
  | flags (a : Act) (f : Flags) : f.syncCheckPointActive = s.flags.syncCheckPointActive → Effect s a (s.setFlags f)
  | turn (a : Act) (p : Proc) (f : Flags) (c : Call) : (s.calls p).Early → c.Early → TakesTurn s p f c →
      Effect s a ((s.setFlags f).setCall p c)
  | capture (p : Proc) : s.calls p = .laying → Effect s (.capture p)
      { s.setCall p (.captured ⟨s.clock, s.segs.refs⟩) with clock := s.clock + 1 }
  | write (p : Proc) (c : Capture) : s.calls p = .captured c → Effect s (.write p)
      { s.setCall p .written with disk := s.disk.write c }
  | writeFails (p : Proc) (c : Capture) : s.calls p = .captured c → Effect s (.writeFails p)
      { s with
        disk := { s.disk.stamp with areas := update s.disk.areas s.disk.nextArea none }
        panicked := true }
  | done (p : Nat) : s.calls (some p) = .written → Effect s (.segCheckPointDone (some p))
      (s.segCheckPointDone (some p))
  | cleanerDone : s.calls none = .written → Effect s (.segCheckPointDone none)
      { s.segCheckPointDone none with cleaner := s.cleaner.checkPointed }
  | cleaner (a : Act) (f : Flags) (c : Cleaner) : f.syncCheckPointActive = s.flags.syncCheckPointActive →
      c.segs = ∅ → (∀ segs, c ≠ .marking segs) → Effect s a { s.setFlags f with cleaner := c }
  | clean (seg : Nat) (segs : Finset Nat) : s.cleaner = .cleaning segs → s.calls none = .out →
      seg ∉ s.segs.clean → seg ≠ s.segs.currentSegment → Effect s (.clean seg)
      { s with cleaner := .cleaning (insert seg segs), segs := { s.segs with refs := s.segs.refs.erase seg } }
  | mark (segs : Finset Nat) : s.cleaner = .marking segs → Effect s .markSegsClean
      { s with cleaner := .cleaning ∅, segs := { s.segs with clean := s.segs.clean ∪ segs } }
  | log (seg : Nat) : seg ∈ s.segs.clean ∨ seg = s.segs.currentSegment → Effect s (.log seg)
      { s with segs := ⟨insert seg s.segs.refs, s.segs.clean.erase seg, seg⟩ }
  | free (seg : Nat) : Effect s (.free seg) { s with segs := { s.segs with refs := s.segs.refs.erase seg } }
  | stamp : Effect s .stamp { s with disk := s.disk.stamp }

theorem waitCleanerExit_eq (s : State) (p : Proc) (flags : CallFlags) : ∃ f c,
    s.waitCleanerExit p flags = (s.setFlags f).setCall p c ∧
      f.syncCheckPointActive = s.flags.syncCheckPointActive ∧ c.Early := by
  unfold State.waitCleanerExit
  split
  · by_cases hactive : s.flags.cleanerActive = true
    · exact ⟨_, .cleanerExit, if_pos hactive, rfl, trivial⟩
    · exact ⟨_, .laying, if_neg hactive, rfl, trivial⟩
  · exact ⟨s.flags, _, rfl, rfl, trivial⟩

theorem waitDirMods_eq (s : State) (p : Proc) (flags : CallFlags) : ∃ f c,
    s.waitDirMods p flags = (s.setFlags f).setCall p c ∧
      f.syncCheckPointActive = s.flags.syncCheckPointActive ∧ c.Early := by
  unfold State.waitDirMods
  split
  · exact ⟨s.flags, _, rfl, rfl, trivial⟩
  · exact waitCleanerExit_eq s p flags

theorem waitCheckPoint_eq (s : State) (p : Proc) (flags : CallFlags) : ∃ f c,
    s.waitCheckPoint p flags = (s.setFlags f).setCall p c ∧ c.Early ∧ TakesTurn s p f c := by
  unfold State.waitCheckPoint
  split
  · split
    · split
      · exact ⟨s.flags, _, rfl, trivial, .inl ⟨rfl, fun h => h.elim⟩⟩
      · exact ⟨s.flags, _, rfl, trivial, .inl ⟨rfl, fun h => h.elim⟩⟩
    · next hidle =>
      obtain ⟨f, c, heq, hsync, hearly⟩ :=
        waitDirMods_eq (s.setFlags { s.flags with syncCheckPointActive := true }) p flags
      refine ⟨f, c, heq, hearly, .inr ⟨?_, hsync⟩⟩
      unfold Flags.checkPointActive at hidle
      rw [Bool.or_eq_true, not_or, Bool.not_eq_true] at hidle
      exact hidle.1
  · next hcleaner =>
    obtain ⟨f, c, heq, hsync, hearly⟩ :=
      waitDirMods_eq (s.setFlags { s.flags with cleanerCheckPointActive := true }) p flags
    exact ⟨f, c, heq, hearly, .inl ⟨hsync, fun _ => .inl (not_not.mp hcleaner)⟩⟩

theorem segCheckPoint_eq (s : State) (p : Proc) (flags : CallFlags) : ∃ f c,
    s.segCheckPoint p flags = (s.setFlags f).setCall p c ∧ c.Early ∧ TakesTurn s p f c := by
  unfold State.segCheckPoint
  split
  · split
    · exact ⟨s.flags, _, rfl, trivial, .inl ⟨rfl, fun h => h.elim⟩⟩
    · split
      · exact ⟨_, _, rfl, trivial, .inl ⟨rfl, fun h => h.elim⟩⟩
      · exact waitCheckPoint_eq s p flags
  · exact waitCheckPoint_eq s p flags

variable {s t : State} {p : Proc}

theorem resume_effect (h : s.resume p = some t) : Effect s (.resume p) t := by
  unfold State.resume at h
  split at h
  · next hcall =>
    split at h
    · exact absurd h (by simp)
    · cases h
      exact Effect.turn _ p s.flags .out (by rw [hcall]; trivial) trivial (.inl ⟨rfl, fun hin => hin.elim⟩)
  · next flags hcall =>
    split at h
    · exact absurd h (by simp)
    · obtain ⟨f, c, heq, hearly, hturn⟩ := waitCheckPoint_eq s p flags
      rw [← Option.some.inj h, heq]
      exact Effect.turn _ p f c (by rw [hcall]; trivial) hearly hturn
  · next flags hcall =>
    split at h
    · exact absurd h (by simp)
    · obtain ⟨f, c, heq, hsync, hearly⟩ := waitCleanerExit_eq s p flags
      rw [← Option.some.inj h, heq]
      exact Effect.turn _ p f c (by rw [hcall]; trivial) hearly
        (.inl ⟨hsync, fun _ => .inr (by rw [hcall]; trivial)⟩)
  · next hcall =>
    split at h
    · exact absurd h (by simp)
    · cases h
      exact Effect.turn _ p _ .laying (by rw [hcall]; trivial) trivial
        (.inl ⟨rfl, fun _ => .inr (by rw [hcall]; trivial)⟩)
  · exact absurd h (by simp)

variable {a : Act}

theorem step_effect (h : step s a = some t) : Effect s a t := by
  unfold step at h
  split at h
  · exact absurd h (by simp)
  · cases a with
    | segCheckPoint p flags =>
      simp only [Option.ite_none_left_eq_some, not_or, not_not, Option.some.injEq] at h
      obtain ⟨⟨-, hout⟩, rfl⟩ := h
      obtain ⟨f, c, heq, hearly, hturn⟩ := segCheckPoint_eq s (some p) flags
      rw [heq]
      exact Effect.turn _ (some p) f c (by rw [hout]; trivial) hearly hturn
    | cleanerCheckPoint =>
      simp only at h
      split at h
      · simp only [Option.ite_none_left_eq_some, not_or, not_not, Option.some.injEq] at h
        obtain ⟨⟨-, hout⟩, rfl⟩ := h
        obtain ⟨f, c, heq, hearly, hturn⟩ := segCheckPoint_eq s none ⟨false, false⟩
        rw [heq]
        exact Effect.turn _ none f c (by rw [hout]; trivial) hearly hturn
      · exact absurd h (by simp)
    | resume p => exact resume_effect h
    | capture p =>
      simp only [State.capture] at h
      split at h
      · next hcall =>
        cases h
        exact Effect.capture p hcall
      · exact absurd h (by simp)
    | write p =>
      simp only [State.write] at h
      split at h
      · next c hcall =>
        cases h
        exact Effect.write p c hcall
      · exact absurd h (by simp)
    | writeFails p =>
      simp only [State.writeFails] at h
      split at h
      · next c hcall =>
        cases h
        exact Effect.writeFails p c hcall
      · exact absurd h (by simp)
    | segCheckPointDone p =>
      simp only [Option.ite_none_left_eq_some, not_or, not_not] at h
      obtain ⟨⟨-, hcall⟩, h⟩ := h
      cases p with
      | none =>
        cases h
        exact Effect.cleanerDone hcall
      | some p =>
        cases h
        exact Effect.done p hcall
    | segCleanStart =>
      simp only [State.segCleanStart, Option.some.injEq] at h
      split at h
      · rw [← h]
        exact Effect.flags _ s.flags rfl
      · rw [← h]
        exact Effect.cleaner _ _ _ rfl rfl (fun _ hc => by simp at hc)
    | clean seg =>
      simp only [State.clean] at h
      split at h
      · next segs hcleaner =>
        simp only [Option.ite_none_left_eq_some, not_or, not_not, Option.some.injEq] at h
        obtain ⟨⟨hout, hclean, hcur⟩, rfl⟩ := h
        exact Effect.clean seg segs hcleaner hout hclean hcur
      · exact absurd h (by simp)
    | markSegsClean =>
      simp only [State.markSegsClean] at h
      split at h
      · next segs hcleaner =>
        cases h
        exact Effect.mark segs hcleaner
      · exact absurd h (by simp)
    | cleanerExits =>
      simp only [State.cleanerExits] at h
      split at h
      · simp only [Option.ite_none_left_eq_some, not_or, not_not, Option.some.injEq] at h
        rw [← h.2]
        exact Effect.cleaner _ _ _ rfl rfl (fun _ hc => by simp at hc)
      · exact absurd h (by simp)
    | dirOpStart =>
      simp only [Option.ite_none_left_eq_some, Option.some.injEq] at h
      rw [← h.2]
      exact Effect.flags _ _ rfl
    | dirOpEnd =>
      simp only [Option.ite_none_left_eq_some, Option.some.injEq] at h
      rw [← h.2]
      exact Effect.flags _ _ rfl
    | waitForCleanSegments =>
      simp only [Option.ite_none_left_eq_some, Option.some.injEq] at h
      rw [← h.2]
      exact Effect.flags _ _ rfl
    | log seg =>
      simp only [State.log, Option.ite_none_right_eq_some, Option.some.injEq] at h
      rw [← h.2]
      exact Effect.log seg h.1
    | free seg =>
      cases h
      exact Effect.free seg
    | stamp =>
      cases h
      exact Effect.stamp

/-! ## One call at a time behind the wait -/

/-- One process at most, the cleaner aside, is behind the wait, with `LFS_SYNC_CHECKPOINT_ACTIVE` set. -/
def Exclusive (s : State) : Prop :=
  (∀ p, (s.calls (some p)).Inside → s.flags.syncCheckPointActive = true) ∧
    ∀ p q, (s.calls (some p)).Inside → (s.calls (some q)).Inside → p = q

theorem Exclusive.of_inside (h : Exclusive s)
    (hsync : t.flags.syncCheckPointActive = s.flags.syncCheckPointActive)
    (hin : ∀ p, (t.calls (some p)).Inside → (s.calls (some p)).Inside) : Exclusive t :=
  ⟨fun p hp => hsync.trans (h.1 p (hin p hp)), fun p q hp hq => h.2 p q (hin p hp) (hin q hq)⟩

theorem setCall_self (s : State) (p : Proc) (c : Call) : (s.setCall p c).calls p = c := update_self _ _ _

variable {q : Proc}

theorem setCall_of_ne (h : q ≠ p) (s : State) (c : Call) : (s.setCall p c).calls q = s.calls q :=
  update_of_ne h _ _

variable {c : Call}

theorem setCall_inside (h : c.Inside → p = none ∨ (s.calls p).Inside) (q : Nat)
    (hq : ((s.setCall p c).calls (some q)).Inside) : (s.calls (some q)).Inside := by
  by_cases heq : some q = p
  · rw [heq, setCall_self] at hq
    rcases h hq with hnone | hin
    · rw [hnone] at heq
      exact absurd heq (by simp)
    · rw [heq]
      exact hin
  · rw [setCall_of_ne heq] at hq
    exact hq

theorem out_not_inside : ¬Call.out.Inside := fun h => h

theorem Effect.exclusive (he : Effect s a t) (h : Exclusive s) : Exclusive t := by
  cases he with
  | flags _ f hsync => exact h.of_inside hsync (fun _ hp => hp)
  | turn _ p f c _ hc hturn =>
    rcases hturn with ⟨hsync, hin⟩ | ⟨hold, hnew⟩
    · exact h.of_inside hsync (fun q hq => setCall_inside hin q hq)
    · have hnone : ∀ q, ¬(s.calls (some q)).Inside := by
        intro q hq
        have hset := h.1 q hq
        rw [hold] at hset
        exact Bool.false_ne_true hset
      have hself : ∀ q, (((s.setFlags f).setCall p c).calls (some q)).Inside → some q = p := by
        intro q hq
        by_contra hne
        rw [setCall_of_ne hne] at hq
        exact hnone q hq
      refine ⟨fun _ _ => hnew, fun q r hq hr => ?_⟩
      exact Option.some.inj ((hself q hq).trans (hself r hr).symm)
  | capture p hcall => exact h.of_inside rfl (fun q hq => setCall_inside (fun _ => .inr (by rw [hcall]; trivial)) q hq)
  | write p c hcall => exact h.of_inside rfl (fun q hq => setCall_inside (fun _ => .inr (by rw [hcall]; trivial)) q hq)
  | writeFails p c _ => exact h.of_inside rfl (fun _ hp => hp)
  | done p hcall =>
    have hin : (s.calls (some p)).Inside := by
      rw [hcall]
      trivial
    -- whoever is inside afterwards was inside before, beside the process that is done
    have hnone : ∀ q, ¬((s.segCheckPointDone (some p)).calls (some q)).Inside := by
      intro q hq
      have hold : (s.calls (some q)).Inside := setCall_inside (s := s) (fun hout => absurd hout out_not_inside) q hq
      have hqp := h.2 q p hold hin
      rw [hqp] at hq
      have hout : (s.segCheckPointDone (some p)).calls (some p) = .out := setCall_self _ _ _
      rw [hout] at hq
      exact hq
    exact ⟨fun q hq => (hnone q hq).elim, fun q _ hq _ => (hnone q hq).elim⟩
  | cleanerDone _ =>
    refine h.of_inside rfl (fun q hq => ?_)
    exact setCall_inside (s := s) (p := none) (c := .out) (fun hout => absurd hout out_not_inside) q hq
  | cleaner _ f c hsync _ _ => exact h.of_inside hsync (fun _ hp => hp)
  | clean seg segs _ _ _ _ => exact h.of_inside rfl (fun _ hp => hp)
  | mark segs _ => exact h.of_inside rfl (fun _ hp => hp)
  | log seg _ => exact h.of_inside rfl (fun _ hp => hp)
  | free seg => exact h.of_inside rfl (fun _ hp => hp)
  | stamp => exact h.of_inside rfl (fun _ hp => hp)

/-! ## The newest checkpoint -/

/-- The checkpoint a load would take. -/
def Areas.newest (d : Areas) : Option Written :=
  match d.areas false, d.areas true with
  | some v, some w => if v.timestamp < w.timestamp then some w else some v
  | some v, none => some v
  | none, w => w

/-- Of all completed checkpoints the newest has the latest capture. -/
def NewestIsLatest (s : State) : Prop :=
  ∀ w, s.disk.newest = some w → ∀ v ∈ s.disk.completed, v.capture.time ≤ w.capture.time

/-- The newest checkpoint refers to no clean segment. -/
def NewestUsesNoClean (s : State) : Prop :=
  ∀ w, s.disk.newest = some w → Disjoint w.capture.refs s.segs.clean

/-- A checkpoint is written only when no earlier capture waits, of the cleaner or next to the cleaner's. -/
def InOrder (s : State) : Act → Prop
  | .write p => ∀ q c d, s.calls p = .captured c → s.calls q = .captured d → p = none ∨ q = none → c.time ≤ d.time
  | _ => True

/-- The timestamp does not wrap around. -/
def Fresh (s : State) : Act → Prop
  | .write _ => s.disk.timestamp + 1 < 4294967296
  | .writeFails _ => s.disk.timestamp + 1 < 4294967296
  | .stamp => s.disk.timestamp + 1 < 4294967296
  | _ => True

def Allowed (s : State) (a : Act) : Prop := Fresh s a ∧ InOrder s a

/-- `w` is the newest checkpoint and has the latest capture but for those that wait to be
written. -/
structure Latest (s : State) (w : Written) : Prop where
  area : s.disk.areas (!s.disk.nextArea) = some w
  other : ∀ v, s.disk.areas s.disk.nextArea = some v → v.timestamp < w.timestamp
  stamp : w.timestamp ≤ s.disk.timestamp
  past : w.capture.time < s.clock
  completed : ∀ v ∈ s.disk.completed, v.capture.time ≤ w.capture.time
  pending : ∀ p c, s.calls p = .captured c → w.capture.time ≤ c.time ∧ c.time < s.clock

variable {w : Written} {segs : Finset Nat} {d : Areas} {seg : Nat}

theorem newest_of_lt {a : Bool} (h : d.areas a = some w)
    (hother : ∀ v, d.areas (!a) = some v → v.timestamp < w.timestamp) : d.newest = some w := by
  unfold Areas.newest
  cases a with
  | false =>
    rw [h]
    cases htrue : d.areas true with
    | none => rfl
    | some v => exact if_neg (Nat.lt_asymm (hother v htrue))
  | true =>
    rw [h]
    cases hfalse : d.areas false with
    | none => rfl
    | some v => exact if_pos (hother v hfalse)

theorem Latest.newest (h : Latest s w) : s.disk.newest = some w := by
  refine newest_of_lt h.area ?_
  rw [Bool.not_not]
  exact h.other

theorem Areas.write_self (d : Areas) (c : Capture) :
    (d.write c).areas (!(d.write c).nextArea) = some ⟨d.stamp.timestamp, c⟩ := by
  change update d.areas d.nextArea _ (!(!d.nextArea)) = _
  rw [Bool.not_not, update_self]

theorem Areas.write_other (d : Areas) (c : Capture) :
    (d.write c).areas (d.write c).nextArea = d.areas (!d.nextArea) := by
  change update d.areas d.nextArea _ (!d.nextArea) = _
  exact update_of_ne (by simp) _ _

theorem Areas.stamp_of_lt (h : d.timestamp + 1 < 4294967296) : d.stamp.timestamp = d.timestamp + 1 :=
  Nat.mod_eq_of_lt h

theorem captured_of_setCall {d : Capture} (hc : ∀ d, c ≠ .captured d)
    (h : (s.setCall p c).calls q = .captured d) : q ≠ p ∧ s.calls q = .captured d := by
  by_cases heq : q = p
  · rw [heq, setCall_self] at h
    exact absurd h (hc d)
  · rw [setCall_of_ne heq] at h
    exact ⟨heq, h⟩

theorem Call.Early.not_captured (h : c.Early) (d : Capture) : c ≠ .captured d := by
  rintro rfl
  exact h

theorem Latest.of_pending (h : Latest s w) (hdisk : t.disk = s.disk) (hclock : t.clock = s.clock)
    (hpend : ∀ p c, t.calls p = .captured c → s.calls p = .captured c) : Latest t w := by
  refine ⟨?_, ?_, ?_, ?_, ?_, ?_⟩
  · rw [hdisk]
    exact h.area
  · rw [hdisk]
    exact h.other
  · rw [hdisk]
    exact h.stamp
  · rw [hclock]
    exact h.past
  · rw [hdisk]
    exact h.completed
  · rw [hclock]
    exact fun p c hc => h.pending p c (hpend p c hc)

theorem Latest.write (h : Latest s w) (hex : Exclusive s) {c : Capture}
    (hcall : s.calls p = .captured c) (hfresh : Fresh s (.write p)) (horder : InOrder s (.write p)) :
    Latest { s.setCall p .written with disk := s.disk.write c } ⟨s.disk.stamp.timestamp, c⟩ := by
  obtain ⟨hle, hpast⟩ := h.pending p c hcall
  refine ⟨Areas.write_self _ _, ?_, Nat.le_refl _, hpast, ?_, ?_⟩
  · change ∀ v, (s.disk.write c).areas (s.disk.write c).nextArea = some v → v.timestamp < s.disk.stamp.timestamp
    intro v hv
    rw [Areas.write_other, h.area] at hv
    have hstamp := h.stamp
    rw [← Option.some.inj hv, Areas.stamp_of_lt hfresh]
    omega
  · intro v hv
    rcases mem_cons.mp hv with rfl | hold
    · exact Nat.le_refl _
    · exact Nat.le_trans (h.completed v hold) hle
  · intro q d hq
    obtain ⟨hne, hq'⟩ := captured_of_setCall (fun d => by simp) hq
    refine ⟨?_, (h.pending q d hq').2⟩
    -- beside the cleaner only one process can have a capture
    by_cases hcleaner : p = none ∨ q = none
    · exact horder q c d hcall hq' hcleaner
    · rw [not_or] at hcleaner
      obtain ⟨m, rfl⟩ := Option.ne_none_iff_exists'.mp hcleaner.1
      obtain ⟨n, rfl⟩ := Option.ne_none_iff_exists'.mp hcleaner.2
      have hin : (s.calls (some m)).Inside ∧ (s.calls (some n)).Inside := by
        rw [hcall, hq']
        exact ⟨trivial, trivial⟩
      exact absurd (congrArg some (hex.2 n m hin.2 hin.1)) hne

/-! ## Clean segments -/

/-- What captures and the newest checkpoint `w` have to do with clean segments, and with those the cleaner will mark. -/
structure Cleaned (s : State) (w : Written) : Prop where
  refs : Disjoint s.segs.refs s.segs.clean
  current : s.segs.currentSegment ∉ s.segs.clean ∧ s.segs.currentSegment ∉ s.cleaner.segs
  moved : Disjoint s.segs.refs s.cleaner.segs ∧ Disjoint s.segs.clean s.cleaner.segs
  newest : Disjoint w.capture.refs s.segs.clean
  pending : ∀ p c, s.calls p = .captured c → Disjoint c.refs s.segs.clean
  own : ∀ c, s.calls none = .captured c → ∀ p d, s.calls p = .captured d → c.time ≤ d.time →
    Disjoint d.refs s.cleaner.segs
  after : (s.calls none = .written ∨ ∃ segs, s.cleaner = .marking segs) →
    Disjoint w.capture.refs s.cleaner.segs ∧ ∀ p d, s.calls p = .captured d → Disjoint d.refs s.cleaner.segs

section
variable (h : Cleaned s w)
include h

theorem Cleaned.of_calls (hsegs : t.segs = s.segs)
    (hcleaner : t.cleaner = s.cleaner) (hpend : ∀ p c, t.calls p = .captured c → s.calls p = .captured c)
    (hwritten : t.calls none = .written → s.calls none = .written) : Cleaned t w := by
  refine ⟨?_, ?_, ?_, ?_, ?_, ?_, ?_⟩
  · rw [hsegs]
    exact h.refs
  · rw [hsegs, hcleaner]
    exact h.current
  · rw [hsegs, hcleaner]
    exact h.moved
  · rw [hsegs]
    exact h.newest
  · rw [hsegs]
    exact fun p c hc => h.pending p c (hpend p c hc)
  · rw [hcleaner]
    exact fun c hc p d hd hle => h.own c (hpend none c hc) p d (hpend p d hd) hle
  · rw [hcleaner]
    intro hafter
    obtain ⟨hw, hall⟩ := h.after (hafter.imp_left hwritten)
    exact ⟨hw, fun p d hd => hall p d (hpend p d hd)⟩

theorem Cleaned.capture (hl : Latest s w) (p : Proc) :
    Cleaned { s.setCall p (.captured ⟨s.clock, s.segs.refs⟩) with clock := s.clock + 1 } w := by
  -- what is captured is the new capture, or waited to be written before
  have hcases : ∀ q d, (s.setCall p (.captured ⟨s.clock, s.segs.refs⟩)).calls q = .captured d →
      (q = p ∧ d = ⟨s.clock, s.segs.refs⟩) ∨ (q ≠ p ∧ s.calls q = .captured d) := by
    intro q d hq
    by_cases heq : q = p
    · rw [heq, setCall_self] at hq
      exact .inl ⟨heq, (Call.captured.inj hq).symm⟩
    · rw [setCall_of_ne heq] at hq
      exact .inr ⟨heq, hq⟩
  refine ⟨h.refs, h.current, h.moved, h.newest, ?_, ?_, ?_⟩
  · intro q d hq
    rcases hcases q d hq with ⟨-, rfl⟩ | ⟨-, hold⟩
    · exact h.refs
    · exact h.pending q d hold
  · intro c hc q d hq hle
    rcases hcases q d hq with ⟨-, rfl⟩ | ⟨-, hold⟩
    · exact h.moved.1
    · rcases hcases none c hc with ⟨-, rfl⟩ | ⟨-, hcold⟩
      · have hpast := (hl.pending q d hold).2
        exact absurd hle (Nat.not_le.mpr hpast)
      · exact h.own c hcold q d hold hle
  · intro hafter
    have hbefore : s.calls none = .written ∨ ∃ segs, s.cleaner = .marking segs := by
      refine hafter.imp_left (fun hwritten => ?_)
      by_cases hnone : (none : Proc) = p
      · rw [hnone] at hwritten
        have hself : Call.captured ⟨s.clock, s.segs.refs⟩ = .written := (setCall_self s p _).symm.trans hwritten
        exact absurd hself (by simp)
      · exact (setCall_of_ne hnone s _).symm.trans hwritten
    obtain ⟨hw, hall⟩ := h.after hbefore
    refine ⟨hw, fun q d hq => ?_⟩
    rcases hcases q d hq with ⟨-, rfl⟩ | ⟨-, hold⟩
    · exact h.moved.1
    · exact hall q d hold

theorem Cleaned.write {c : Capture}
    (hcall : s.calls p = .captured c) (horder : InOrder s (.write p)) (timestamp : Nat) :
    Cleaned { s.setCall p .written with disk := s.disk.write c } ⟨timestamp, c⟩ := by
  have hpend : ∀ q d, (s.setCall p .written).calls q = .captured d → s.calls q = .captured d :=
    fun q d hq => (captured_of_setCall (fun d => by simp) hq).2
  refine ⟨h.refs, h.current, h.moved, h.pending p c hcall, fun q d hq => h.pending q d (hpend q d hq), ?_, ?_⟩
  · exact fun e he q d hq hle => h.own e (hpend none e he) q d (hpend q d hq) hle
  · intro hafter
    by_cases hp : p = none
    · subst hp
      refine ⟨h.own c hcall none c hcall (Nat.le_refl _), fun q d hq => ?_⟩
      exact h.own c hcall q d (hpend q d hq) (horder q c d hcall (hpend q d hq) (.inl rfl))
    · have hbefore : s.calls none = .written ∨ ∃ segs, s.cleaner = .marking segs :=
        hafter.imp_left (fun hwritten => (setCall_of_ne (Ne.symm hp) s .written).symm.trans hwritten)
      obtain ⟨-, hall⟩ := h.after hbefore
      exact ⟨hall p c hcall, fun q d hq => hall q d (hpend q d hq)⟩

theorem Cleaned.log (hseg : seg ∈ s.segs.clean ∨ seg = s.segs.currentSegment) :
    Cleaned { s with segs := ⟨insert seg s.segs.refs, s.segs.clean.erase seg, seg⟩ } w := by
  have hmoved : seg ∉ s.cleaner.segs := by
    rcases hseg with hclean | rfl
    · exact Finset.disjoint_left.mp h.moved.2 hclean
    · exact h.current.2
  have hsub : s.segs.clean.erase seg ⊆ s.segs.clean := Finset.erase_subset _ _
  refine ⟨?_, ⟨Finset.notMem_erase _ _, hmoved⟩, ⟨?_, h.moved.2.mono_left hsub⟩, h.newest.mono_right hsub,
    fun p c hc => (h.pending p c hc).mono_right hsub, h.own, h.after⟩
  · exact Finset.disjoint_insert_left.mpr ⟨Finset.notMem_erase _ _, h.refs.mono_right hsub⟩
  · exact Finset.disjoint_insert_left.mpr ⟨hmoved, h.moved.1⟩

theorem Cleaned.clean
    (hcleaner : s.cleaner = .cleaning segs) (hout : s.calls none = .out) (hclean : seg ∉ s.segs.clean)
    (hcur : seg ≠ s.segs.currentSegment) :
    Cleaned { s with
      cleaner := .cleaning (insert seg segs), segs := { s.segs with refs := s.segs.refs.erase seg } } w := by
  have hsub : s.segs.refs.erase seg ⊆ s.segs.refs := Finset.erase_subset _ _
  have hcurrent := h.current
  have hmoved := h.moved
  rw [hcleaner] at hcurrent hmoved
  refine ⟨h.refs.mono_left hsub, ⟨hcurrent.1, ?_⟩, ⟨?_, ?_⟩, h.newest, h.pending, ?_, ?_⟩
  · intro hmem
    rcases Finset.mem_insert.mp hmem with heq | hold
    · exact hcur heq.symm
    · exact hcurrent.2 hold
  · exact Finset.disjoint_insert_right.mpr ⟨Finset.notMem_erase _ _, hmoved.1.mono_left hsub⟩
  · exact Finset.disjoint_insert_right.mpr ⟨hclean, hmoved.2⟩
  · intro c hc
    exact absurd (hout.symm.trans hc) (by simp)
  · rintro (hwritten | ⟨segs', hmark⟩)
    · exact absurd (hout.symm.trans hwritten) (by simp)
    · exact absurd hmark (by simp)

theorem Cleaned.mark (hcleaner : s.cleaner = .marking segs) :
    Cleaned { s with cleaner := .cleaning ∅, segs := { s.segs with clean := s.segs.clean ∪ segs } } w := by
  obtain ⟨hw, hall⟩ := h.after (.inr ⟨segs, hcleaner⟩)
  have hcurrent := h.current
  have hmoved := h.moved
  rw [hcleaner] at hw hall hcurrent hmoved
  refine ⟨?_, ⟨?_, Finset.notMem_empty _⟩, ⟨disjoint_bot_right, disjoint_bot_right⟩, ?_, ?_, ?_, ?_⟩
  · exact Finset.disjoint_union_right.mpr ⟨h.refs, hmoved.1⟩
  · intro hmem
    rcases Finset.mem_union.mp hmem with hclean | hmark
    · exact hcurrent.1 hclean
    · exact hcurrent.2 hmark
  · exact Finset.disjoint_union_right.mpr ⟨h.newest, hw⟩
  · exact fun p c hc => Finset.disjoint_union_right.mpr ⟨h.pending p c hc, hall p c hc⟩
  · exact fun _ _ _ _ _ _ => disjoint_bot_right
  · exact fun _ => ⟨disjoint_bot_right, fun _ _ _ => disjoint_bot_right⟩

end

theorem Call.Early.not_written (h : c.Early) : c ≠ .written := by
  rintro rfl
  exact h

theorem written_of_setCall (hc : c ≠ .written) (h : (s.setCall p c).calls q = .written) : s.calls q = .written := by
  by_cases heq : q = p
  · rw [heq, setCall_self] at h
    exact absurd h hc
  · rw [setCall_of_ne heq] at h
    exact h

theorem checkPointed_segs (c : Cleaner) : c.checkPointed.segs = c.segs := by
  cases c <;> rfl

theorem Effect.kept (he : Effect s a t) (hex : Exclusive s) (hl : Latest s w)
    (h : Cleaned s w) (ha : Allowed s a) : ∃ v, Latest t v ∧ Cleaned t v := by
  cases he with
  | flags _ f _ => exact ⟨w, hl.of_pending rfl rfl (fun _ _ hc => hc), h.of_calls rfl rfl (fun _ _ hc => hc) id⟩
  | turn _ p f c _ hc _ =>
    have hpend : ∀ q d, ((s.setFlags f).setCall p c).calls q = .captured d → s.calls q = .captured d :=
      fun q d hq => (captured_of_setCall hc.not_captured hq).2
    exact ⟨w, hl.of_pending rfl rfl hpend, h.of_calls rfl rfl hpend (fun hq => written_of_setCall hc.not_written hq)⟩
  | capture p _ =>
    refine ⟨w, ⟨hl.area, hl.other, hl.stamp, Nat.lt_succ_of_lt hl.past, hl.completed, ?_⟩, h.capture hl p⟩
    intro q d hq
    have hclock := hl.past
    by_cases heq : q = p
    · rw [heq] at hq
      have hself : Call.captured ⟨s.clock, s.segs.refs⟩ = .captured d := (setCall_self s p _).symm.trans hq
      rw [← Call.captured.inj hself]
      exact ⟨Nat.le_of_lt hclock, Nat.lt_succ_self _⟩
    · obtain ⟨hle, hlt⟩ := hl.pending q d ((setCall_of_ne heq s _).symm.trans hq)
      exact ⟨hle, Nat.lt_succ_of_lt hlt⟩
  | write p c hcall => exact ⟨_, hl.write hex hcall ha.1 ha.2, h.write hcall ha.2 _⟩
  | writeFails p c _ =>
    have hstamp := hl.stamp
    have hnew := Areas.stamp_of_lt ha.1
    refine ⟨w, ⟨?_, ?_, ?_, hl.past, hl.completed, hl.pending⟩, h.of_calls rfl rfl (fun _ _ hc => hc) id⟩
    · exact (update_of_ne (by simp [Areas.stamp]) _ _).trans hl.area
    · intro v hv
      have hnone : none = some v := (update_self s.disk.nextArea none s.disk.areas).symm.trans hv
      exact absurd hnone (by simp)
    · change w.timestamp ≤ s.disk.stamp.timestamp
      omega
  | done p _ =>
    have hpend : ∀ q d, (s.segCheckPointDone (some p)).calls q = .captured d → s.calls q = .captured d :=
      fun q d hq => (captured_of_setCall (s := s) (fun d => by simp) hq).2
    refine ⟨w, hl.of_pending rfl rfl hpend, h.of_calls rfl rfl hpend (fun hq => ?_)⟩
    exact written_of_setCall (s := s) (p := some p) (c := .out) (by simp) hq
  | cleanerDone hcall =>
    have hpend : ∀ q d, (s.segCheckPointDone none).calls q = .captured d → s.calls q = .captured d :=
      fun q d hq => (captured_of_setCall (s := s) (fun d => by simp) hq).2
    obtain ⟨hw, hall⟩ := h.after (.inl hcall)
    refine ⟨w, hl.of_pending rfl rfl hpend, ⟨h.refs, ?_, ?_, h.newest, fun q d hq => h.pending q d (hpend q d hq), ?_, ?_⟩⟩
    · rw [checkPointed_segs]
      exact h.current
    · rw [checkPointed_segs]
      exact h.moved
    · intro c hc
      exact absurd (hcall.symm.trans (hpend none c hc)) (by simp)
    · rw [checkPointed_segs]
      exact fun _ => ⟨hw, fun q d hq => hall q d (hpend q d hq)⟩
  | cleaner _ f c _ hsegs hmark =>
    refine ⟨w, hl.of_pending rfl rfl (fun _ _ hc => hc), ⟨h.refs, ?_, ?_, h.newest, h.pending, ?_, ?_⟩⟩
    · rw [hsegs]
      exact ⟨h.current.1, Finset.notMem_empty _⟩
    · rw [hsegs]
      exact ⟨disjoint_bot_right, disjoint_bot_right⟩
    · rw [hsegs]
      exact fun _ _ _ _ _ _ => disjoint_bot_right
    · rw [hsegs]
      exact fun _ => ⟨disjoint_bot_right, fun _ _ _ => disjoint_bot_right⟩
  | clean seg segs hcleaner hout hclean hcur =>
    exact ⟨w, hl.of_pending rfl rfl (fun _ _ hc => hc), h.clean hcleaner hout hclean hcur⟩
  | mark segs hcleaner => exact ⟨w, hl.of_pending rfl rfl (fun _ _ hc => hc), h.mark hcleaner⟩
  | log seg hseg => exact ⟨w, hl.of_pending rfl rfl (fun _ _ hc => hc), h.log hseg⟩
  | free seg =>
    have hsub : s.segs.refs.erase seg ⊆ s.segs.refs := Finset.erase_subset _ _
    exact ⟨w, hl.of_pending rfl rfl (fun _ _ hc => hc), ⟨h.refs.mono_left hsub, h.current,
      ⟨h.moved.1.mono_left hsub, h.moved.2⟩, h.newest, h.pending, h.own, h.after⟩⟩
  | stamp =>
    have hstamp := hl.stamp
    have hnew := Areas.stamp_of_lt ha.1
    refine ⟨w, ⟨hl.area, hl.other, ?_, hl.past, hl.completed, hl.pending⟩,
      h.of_calls rfl rfl (fun _ _ hc => hc) id⟩
    change w.timestamp ≤ s.disk.stamp.timestamp
    omega

/-! ## Runs -/

/-- A file system that has just been loaded from the checkpoint `w`. -/
structure Loaded (s : State) (w : Written) : Prop where
  calls : ∀ p, s.calls p = .out
  cleaner : s.cleaner = .off
  area : s.disk.areas (!s.disk.nextArea) = some w
  other : ∀ v, s.disk.areas s.disk.nextArea = some v → v.timestamp < w.timestamp
  stamp : w.timestamp ≤ s.disk.timestamp
  past : w.capture.time < s.clock
  completed : ∀ v ∈ s.disk.completed, v.capture.time ≤ w.capture.time
  refs : s.segs.refs = w.capture.refs
  clean : Disjoint s.segs.refs s.segs.clean
  current : s.segs.currentSegment ∉ s.segs.clean

/-- What every run keeps. -/
def Kept (s : State) : Prop := Exclusive s ∧ ∃ w, Latest s w ∧ Cleaned s w

theorem Loaded.kept (h : Loaded s w) : Kept s := by
  have hnot : ∀ p c, s.calls p ≠ .captured c := fun p c hc => absurd ((h.calls p).symm.trans hc) (by simp)
  have hout : ∀ p, ¬(s.calls p).Inside := by
    intro p
    rw [h.calls]
    exact out_not_inside
  refine ⟨⟨fun p hp => absurd hp (hout _), fun p _ hp _ => absurd hp (hout _)⟩, w, ?_, ?_⟩
  · exact ⟨h.area, h.other, h.stamp, h.past, h.completed, fun p c hc => absurd hc (hnot p c)⟩
  · refine ⟨h.clean, ?_, ?_, h.refs ▸ h.clean, fun p c hc => absurd hc (hnot p c), fun c hc => absurd hc (hnot none c), ?_⟩
    · rw [h.cleaner]
      exact ⟨h.current, Finset.notMem_empty _⟩
    · rw [h.cleaner]
      exact ⟨disjoint_bot_right, disjoint_bot_right⟩
    · rw [h.cleaner]
      exact fun _ => ⟨disjoint_bot_right, fun _ _ _ => disjoint_bot_right⟩

theorem kept_step (h : Kept s) (ha : Allowed s a) (hs : step s a = some t) : Kept t := by
  obtain ⟨hex, w, hl, hc⟩ := h
  have he := step_effect hs
  exact ⟨he.exclusive hex, he.kept hex hl hc ha⟩

theorem kept_run (h : Loaded s w) (hr : Run step Allowed s t) : Kept t :=
  Run.invariant (fun _ _ _ hk ha hs => kept_step hk ha hs) hr h.kept

theorem step_write_iff : step s (.write p) = some t ↔
    s.panicked = false ∧ ∃ c, s.calls p = .captured c ∧ t = { s.setCall p .written with disk := s.disk.write c } := by
  rw [step, Option.ite_none_left_eq_some, Bool.not_eq_true]
  refine and_congr_right (fun _ => ?_)
  constructor
  · intro h
    simp only [State.write] at h
    split at h
    · next c hcall => exact ⟨c, hcall, (Option.some.inj h).symm⟩
    · exact absurd h (by simp)
  · rintro ⟨c, hcall, rfl⟩
    simp only [State.write, hcall]

/-- A checkpoint is written while another, captured earlier, waits: its write makes the older capture the newest. -/
theorem overtaken (hs : step s (.write p) = some t) (hfresh : s.disk.timestamp + 2 < 4294967296)
    (hlate : ¬InOrder s (.write p)) : ∃ q u, step t (.write q) = some u ∧ ¬NewestIsLatest u := by
  simp only [InOrder, not_forall] at hlate
  obtain ⟨q, c, d, hp, hq, -, hle⟩ := hlate
  obtain ⟨hgo, c', hp', rfl⟩ := step_write_iff.mp hs
  obtain rfl := Call.captured.inj (hp.symm.trans hp')
  have hne : q ≠ p := by
    rintro rfl
    exact hle (Nat.le_of_eq (congrArg Capture.time (Call.captured.inj (hp.symm.trans hq))))
  have hq' : (s.setCall p .written).calls q = .captured d := (setCall_of_ne hne s _).trans hq
  have hone : s.disk.stamp.timestamp = s.disk.timestamp + 1 := Areas.stamp_of_lt (by omega)
  have htwo : (s.disk.write c).stamp.timestamp = s.disk.timestamp + 2 := by
    have hlt : (s.disk.write c).timestamp + 1 < 4294967296 := by
      change s.disk.stamp.timestamp + 1 < _
      omega
    rw [Areas.stamp_of_lt hlt]
    change s.disk.stamp.timestamp + 1 = _
    omega
  refine ⟨q, _, step_write_iff.mpr ⟨hgo, d, hq', rfl⟩, fun hnewest => ?_⟩
  have hw : ((s.disk.write c).write d).newest = some ⟨(s.disk.write c).stamp.timestamp, d⟩ := by
    refine newest_of_lt (Areas.write_self _ _) (fun v hv => ?_)
    rw [Bool.not_not, Areas.write_other, Areas.write_self] at hv
    rw [← Option.some.inj hv, htwo, hone]
    exact Nat.lt_succ_self _
  exact hle (hnewest _ hw ⟨s.disk.stamp.timestamp, c⟩ (mem_cons_of_mem _ mem_cons_self))

/-- Exactly where checkpoints are written in order the newest one has the latest capture. -/
theorem newest_is_latest {s t : State} {w : Written} (h : Loaded s w) (hr : Run step Allowed s t) :
    (NewestIsLatest t ∧ NewestUsesNoClean t) ∧
      ∀ p u, step t (.write p) = some u → t.disk.timestamp + 2 < 4294967296 → ¬InOrder t (.write p) →
        ∃ q v, step u (.write q) = some v ∧ ¬NewestIsLatest v := by
  obtain ⟨-, v, hl, hc⟩ := kept_run h hr
  refine ⟨⟨fun v' hv' => ?_, fun v' hv' => ?_⟩, fun p u hs hfresh hlate => overtaken hs hfresh hlate⟩
  · rw [hl.newest] at hv'
    cases hv'
    exact hl.completed
  · rw [hl.newest] at hv'
    cases hv'
    exact hc.newest

/-- Loaded from the only checkpoint. Segment 0 is the current one, 1 has data, 2 and 3 are clean. -/
def fourSegments : State where
  flags := ⟨false, false, false, false, false, 0, false⟩
  calls := fun _ => .out
  cleaner := .off
  segs := ⟨{0, 1}, {2, 3}, 0⟩
  disk := ⟨6, true, fun a => if a then none else some ⟨5, ⟨0, {0, 1}⟩⟩, [⟨5, ⟨0, {0, 1}⟩⟩]⟩
  clock := 1
  panicked := false

theorem fourSegments_loaded : Loaded fourSegments ⟨5, ⟨0, {0, 1}⟩⟩ where
  calls := fun _ => rfl
  cleaner := rfl
  area := rfl
  other := fun v hv => absurd hv (by simp [fourSegments])
  stamp := by decide
  past := by decide
  completed := by decide
  refs := rfl
  clean := by decide
  current := by decide

/-- The cleaner cleans segment 1 and captures the file system. -/
def cleanerCaptures : List Act := [.segCleanStart, .clean 1, .cleanerCheckPoint, .capture none]

/-- Its checkpoint is written, and the segment marked. -/
def cleanerMarks : List Act := [.segCheckPointDone none, .markSegsClean]

/-- The cleaner alone. -/
theorem newest_after_cleaner : ∃ t, exec step fourSegments (cleanerCaptures ++ .write none :: cleanerMarks) = some t ∧
    NewestIsLatest t ∧ NewestUsesNoClean t := by
  have hfree : ∀ l ∈ cleanerCaptures ++ cleanerMarks, ∀ s, Allowed s l := by
    intro l hl s
    simp only [cleanerCaptures, cleanerMarks, cons_append, nil_append, mem_cons, not_mem_nil,
      or_false] at hl
    rcases hl with rfl | rfl | rfl | rfl | rfl | rfl <;> exact ⟨trivial, trivial⟩
  obtain ⟨s, hs⟩ : ∃ s, exec step fourSegments cleanerCaptures = some s := ⟨_, rfl⟩
  obtain ⟨u, hu⟩ : ∃ u, step s (.write none) = some u := by
    cases hs
    exact ⟨_, rfl⟩
  obtain ⟨t, ht⟩ : ∃ t, exec step u cleanerMarks = some t := by
    cases hs
    cases hu
    exact ⟨_, rfl⟩
  have hone : Run step Allowed fourSegments s :=
    Run.mono (fun s l h => h s) (run_of_exec (A := fun l => ∀ s, Allowed s l) _ _ _
      (fun l hl => hfree l (mem_append_left _ hl)) hs)
  have hwrite : Allowed s (.write none) := by
    cases hs
    refine ⟨show (6 : Nat) + 1 < 4294967296 by decide, fun q c d hc hd _ => ?_⟩
    cases q with
    | none => exact Nat.le_of_eq (congrArg Capture.time (Call.captured.inj (hc.symm.trans hd)))
    | some n => exact absurd (show Call.out = .captured d from hd) (by simp)
  have htwo : Run step Allowed u t :=
    Run.mono (fun s l h => h s) (run_of_exec (A := fun l => ∀ s, Allowed s l) _ _ _
      (fun l hl => hfree l (mem_append_right _ hl)) ht)
  refine ⟨t, ?_, (newest_is_latest fourSegments_loaded ((hone.snoc hwrite hu).trans htwo)).1⟩
  cases hs
  cases hu
  exact ht

/-- A write-back captures the file system, the cleaner checkpoints, then the write-back's is written. -/
theorem checkPoint_goes_back : ∃ t, Run step (fun _ _ => True) fourSegments t ∧ ¬NewestIsLatest t ∧ ¬NewestUsesNoClean t := by
  obtain ⟨t, ht⟩ : ∃ t, exec step fourSegments ([.segCheckPoint 0 ⟨false, false⟩, .capture (some 0)] ++
      cleanerCaptures ++ .write none :: cleanerMarks ++ [.write (some 0)]) = some t := ⟨_, rfl⟩
  refine ⟨t, run_of_exec (A := fun _ => True) _ _ _ (fun _ _ => trivial) ht, ?_, ?_⟩
  · cases ht
    intro hlatest
    exact absurd (hlatest ⟨8, ⟨1, {0, 1}⟩⟩ rfl ⟨7, ⟨2, {0}⟩⟩ (mem_cons_of_mem _ mem_cons_self))
      (by decide)
  · cases ht
    intro hclean
    exact absurd (hclean ⟨8, ⟨1, {0, 1}⟩⟩ rfl) (by decide)

end SpriteKernel.Lfs.CheckPoints
