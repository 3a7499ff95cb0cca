import SpriteKernel.Fsutil.HandleInv

/- Runs of the handle table: any number of processes call the routines in any order, each with the
   references and locks it has. -/
namespace SpriteKernel.Fsutil

open List
namespace Handles
open Transition
variable {P : HandleParams} {s t : Handles} {p q a b : Nat} {x y : HandleHeader} {busy : Nat → Bool}

/-- The lock of a removed handle goes by a reference of the process that has it. -/
def LockKept (s : Handles) (p a : Nat) : Prop :=
  (p, a) ∈ s.locks → (∃ x, s.hdr a = some x ∧ x.removed = true) → (p, a) ∈ s.refs.erase (p, a)

/-- A process locks a handle it references, unlocks what it has locked, releases its reference (its lock of a removed
    handle with the last), and removes what it has locked, once. -/
def Promised (s : Handles) : HandleStep → Prop
  | .lock p a _ => (p, a) ∈ s.refs
  | .unlock p a => (p, a) ∈ s.locks
  | .release p a locked => (p, a) ∈ s.refs ∧ (if locked then (p, a) ∈ s.locks else s.LockKept p a)
  | .incRefCount p a _ => (p, a) ∈ s.refs ∨ (p, a) ∈ s.locks
  | .decRefCount p a | .give p _ a => (p, a) ∈ s.refs ∧ s.LockKept p a
  | .remove p a | .attemptRemove p a => (p, a) ∈ s.locks ∧ ∀ x, s.hdr a = some x → x.removed = false
  | .invalidate p a => ((p, a) ∈ s.refs ∨ (p, a) ∈ s.locks) ∧ ∀ x, s.hdr a = some x → x.removed = false
  | .fetch _ _ _ | .install _ _ _ | .goOn _ _ | .getNextHandle _ _ | .getNextLRUHandle _ | .doneLRU _ _ | .shutDown => True

/-- No last reference of a removed handle goes with Fsutil_HandleDecRefCount; no lock is taken over in shut-down; no
    empty LRU list is scanned. -/
def Careful (s : Handles) : HandleStep → Prop
  | .decRefCount _ a => ∀ x, s.hdr a = some x → x.removed = true → x.refCount ≠ 1
  | .lock _ a _ => s.shuttingDown = true → ∀ x, s.hdr a = some x → x.locked = false
  | .goOn p _ => s.shuttingDown = true → ∀ a, (s.act p).asks = some a → ∀ x, s.hdr a = some x → x.locked = false
  | .getNextLRUHandle _ => s.lruList ≠ []
  | _ => True

def Met (s : Handles) (l : HandleStep) : Prop := s.Promised l ∧ s.Careful l

theorem asks_of_awake (h : s.awake p = true) : (s.act p).asks = none := by
  unfold awake at h
  cases hact : s.act p with
  | lockWait g d w =>
    rw [hact] at h
    cases h
  | _ => rfl

section
variable (h : s.Inv) {id : FileId}
include h

theorem Inv.rest (p : Nat) : (s.setAct p .idle).Inv := h.setAct_rest rfl rfl

theorem Inv.handleFetch {install cantBlock : Bool} (hs : s.handleFetch p id install cantBlock = some t) : t.Inv := by
  unfold Handles.handleFetch at hs
  split at hs
  · cases hs
    cases install <;> exact h.setAct_rest rfl rfl
  · next a hid =>
    obtain ⟨x, hx, rfl⟩ := Option.map_eq_some_iff.1 hs
    split
    · cases cantBlock with
      | true => exact h.rest p
      | false =>
        refine h.setAct nofun fun b hb => ?_
        cases hb
        obtain ⟨z, hz, hrem, -⟩ := (h.table id a).1 hid
        exact ⟨z, hz, hrem⟩
    · next hfree => exact (h.takeHandle hx (Bool.eq_false_iff.2 hfree)).rest p

theorem Inv.handleInstallInt {cantBlock : Bool} {limit : Int} {addr : Nat}
    (hs : s.handleInstallInt P p id cantBlock limit addr = some t) : t.Inv := by
  unfold Handles.handleInstallInt at hs
  split at hs
  · next hid =>
    split at hs
    · split at hs
      · cases hs
        exact h.setAct_rest rfl rfl
      · cases hs
        refine Inv.setAct_rest ?_ rfl rfl
        exact ⟨h.table, h.refs, h.lockOnce, h.locked, h.kept, h.backed, h.asking, h.awaiting, h.exist, h.limbo, h.lruOnce,
          h.lru, h.lruEntries, h.tame⟩
    · split at hs
      · cases hs
      · next hfree =>
        cases hs
        exact (h.newHandle (Option.not_isSome_iff_eq_none.1 hfree) hid).rest p
  · next a hid =>
    obtain ⟨x, hx, rfl⟩ := Option.map_eq_some_iff.1 hs
    split
    · refine h.setAct nofun fun b hb => ?_
      cases hb
      obtain ⟨z, hz, hrem, -⟩ := (h.table id a).1 hid
      exact ⟨z, hz, hrem⟩
    · next hfree => exact (h.takeHandle hx (Bool.eq_false_iff.2 hfree)).rest p

theorem Inv.handleLock {dup : Bool} (hr : (p, a) ∈ s.refs)
    (hc : s.shuttingDown = true → ∀ x, s.hdr a = some x → x.locked = false) (hs : s.handleLock p a dup = some t) : t.Inv := by
  obtain ⟨x, hx, rfl⟩ := Option.map_eq_some_iff.1 hs
  split
  · refine h.setAct (fun b hb => ?_) nofun
    cases hb
    exact hr
  · next hgo =>
    have hfree : x.locked = false := by
      by_contra hlocked
      rw [Bool.not_eq_false] at hlocked
      rw [hlocked] at hgo
      have hshut : s.shuttingDown = true := by simpa using hgo
      rw [hc hshut x hx] at hlocked
      cases hlocked
    split
    · exact (h.takeHandle hx hfree).rest p
    · exact (h.lockHandle hx hfree fun _ => hr).rest p

theorem Inv.handleRelease {locked : Bool} (hr : (p, a) ∈ s.refs)
    (hl : if locked then (p, a) ∈ s.locks else s.LockKept p a) (hask : (s.act p).asks = none)
    (hs : s.handleRelease p a locked = some t) : t.Inv := by
  obtain ⟨x, hx, hs⟩ := Option.bind_eq_some_iff.1 hs
  have hcount := h.refs a
  rw [hx] at hcount
  split at hs
  · cases hs
  · dsimp only at hs
    split at hs
    · cases hs
    · split at hs
      · next hlast =>
        cases hs
        obtain ⟨hzero, hrem⟩ := hlast
        have hone : x.refCount = 1 := by omega
        refine h.freeLast hx hrem hone hr ⟨fun hlk => ?_, fun hin => ?_⟩ hask
        · rw [hlk] at hl
          exact hl
        · cases locked with
          | true => rfl
          | false =>
            -- the lock would go by a reference that is none
            have hkept : s.LockKept p a := hl
            have hagain := countRefs_pos (hkept hin ⟨x, hx, hrem⟩)
            rw [countRefs_erase hr, if_pos rfl, hcount, show refsOf (some x) = x.refCount from rfl, hone] at hagain
            exact absurd hagain (Int.lt_irrefl 0)
      · next hnlast =>
        have hmore : x.removed = true → 1 < x.refCount := by
          intro hrem
          have hpos := countRefs_pos hr
          by_contra hle
          exact hnlast ⟨by omega, hrem⟩
        cases locked with
        | false =>
          cases hs
          exact h.dropRef hx hr hmore (fun hin hrem => (show s.LockKept p a from hl) hin ⟨x, hx, hrem⟩) hask
        | true =>
          cases hs
          have hin : (p, a) ∈ s.locks := hl
          -- unlocking first makes the same state
          have hun := h.unlockHandle hx hin
          have hux : (s.unlockHandle p a x).hdr a = some { x with locked := false } := Function.update_self _ _ _
          have hdrop := hun.dropRef (p := p) hux hr hmore (fun hno => ?_) ((asks_broadcast).trans hask)
          · have heq : (s.unlockHandle p a x).dropRef p a { x with locked := false } =
                (s.dropRef p a x).unlockHandle p a { x with refCount := x.refCount - 1 } := by
              unfold Handles.unlockHandle Handles.dropRef Handles.setHdr Handles.broadcast
              simp only [Function.update_idem]
            rw [if_pos rfl, ← heq]
            exact hdrop
          · exact absurd rfl ((mem_locks_erase h hin).1 hno).2

theorem Inv.handleRemoveInt (hx : s.hdr a = some x) (hl : (p, a) ∈ s.locks) (hrem : x.removed = false)
    (hs : s.handleRemoveInt p a x = some t) : t.Inv := by
  unfold Handles.handleRemoveInt at hs
  split at hs
  · cases hs
  · have hun := h.unlockHandle hx hl
    have hux : (s.unlockHandle p a x).hdr a = some { x with locked := false } := Function.update_self _ _ _
    have hno : ∀ q, ((s.unlockHandle p a x).act q).awaits ≠ some a := fun q hq => (awaits_broadcast hq).2 rfl
    obtain ⟨id, locked, removed, invalid, refCount, onLru⟩ := x
    dsimp only at hs
    split at hs
    · next hpos =>
      cases hs
      have hret := hun.retire hux rfl hrem hpos hno
      cases invalid <;> exact hret
    · next hzero =>
      cases hs
      have hnonneg := h.refCount_nonneg hx
      have hret := hun.discard hux rfl hrem (by dsimp only at hzero hnonneg ⊢; omega) hno
      cases invalid <;> cases onLru <;> exact hret

theorem Inv.handleAttemptRemove (hl : (p, a) ∈ s.locks) (hrem : ∀ x, s.hdr a = some x → x.removed = false)
    (hs : s.handleAttemptRemove p a = some t) : t.Inv := by
  obtain ⟨x, hx, hs⟩ := Option.bind_eq_some_iff.1 hs
  split at hs
  · exact h.handleRemoveInt hx hl (hrem x hx) hs
  · cases hs
    exact h.unlockHandle hx hl

theorem Inv.handleInvalidate (hrem : ∀ x, s.hdr a = some x → x.removed = false)
    (hs : s.handleInvalidate a = some t) : t.Inv := by
  obtain ⟨x, hx, hs⟩ := Option.bind_eq_some_iff.1 hs
  split at hs
  · cases hs
    exact h
  · next hinv =>
    split at hs
    · cases hs
    · cases hs
      exact h.invalidate hx (hrem x hx) (Bool.eq_false_iff.2 hinv) _

end

theorem scanLRU_spec : ∀ {n m : Nat} {l l' : List Nat} {found : Option Nat},
    scanLRU busy n l = some (m, l', found) → List.Perm l' l ∧ ∀ a, found = some a → a ∈ l ∧ busy a = false
  | 0, m, l, l', found, h => by
    obtain ⟨-, rfl, rfl⟩ := h
    exact ⟨List.Perm.refl _, nofun⟩
  | n + 1, m, [], l', found, h => by
    cases h
  | n + 1, m, a :: l, l', found, h => by
    simp only [scanLRU] at h
    have hturn : List.Perm (l ++ [a]) (a :: l) := perm_append_singleton a l
    split at h
    · obtain ⟨hperm, hfound⟩ := scanLRU_spec h
      refine ⟨hperm.trans hturn, fun b hb => ?_⟩
      obtain ⟨hin, hbusy⟩ := hfound b hb
      exact ⟨hturn.mem_iff.1 hin, hbusy⟩
    · next hbusy =>
      obtain ⟨-, rfl, rfl⟩ := h
      refine ⟨hturn, fun b hb => ?_⟩
      cases hb
      exact ⟨mem_cons_self, Bool.eq_false_iff.2 hbusy⟩

theorem scanLRU_some : ∀ {n : Nat} {l : List Nat}, l ≠ [] → scanLRU busy n l ≠ none
  | 0, l, _ => by simp [scanLRU]
  | n + 1, [], h => absurd rfl h
  | n + 1, a :: l, _ => by
    simp only [scanLRU]
    split
    · exact scanLRU_some (by simp)
    · simp

section
variable (h : s.Inv)
include h

theorem Inv.getNextLRUHandle (hne : s.lruList ≠ []) : (s.getNextLRUHandle p).Inv := by
  unfold Handles.getNextLRUHandle
  dsimp only
  split
  · next hnone => exact absurd hnone (scanLRU_some hne)
  · next n l found hscan =>
    obtain ⟨hperm, hfound⟩ := scanLRU_spec hscan
    have hturn : ∀ c, ({ s with lruList := l, lruHandlesChecked := c } : Handles).Inv := fun c =>
      ⟨h.table, h.refs, h.lockOnce, h.locked, h.kept, h.backed, h.asking, h.awaiting, h.exist, h.limbo,
        hperm.nodup_iff.2 h.lruOnce, fun b => hperm.mem_iff.trans (h.lru b), h.lruEntries.trans (by rw [hperm.length_eq]), h.tame⟩
    split
    · exact hturn _
    · next a =>
      obtain ⟨hin, hbusy⟩ := hfound a rfl
      obtain ⟨x, hx, -⟩ := (h.lru a).1 hin
      rw [hx] at hbusy
      have hidle : x.removed = false ∧ x.locked = false := by simpa using hbusy
      have hlock := (hturn (if s.lruHandlesChecked < s.maxNumber then s.maxNumber - n else s.lruHandlesChecked)).lockHandle
        (p := p) hx hidle.2 fun hrem => by rw [hidle.1] at hrem; cases hrem
      split
      · next y hy =>
        cases hx.symm.trans hy
        exact hlock
      · next hnone =>
        have hgone : s.hdr a = none := hnone
        rw [hx] at hgone
        cases hgone

theorem Inv.getNextHandle (hs : s.getNextHandle p a = some t) : t.Inv := by
  obtain ⟨x, hx, hs⟩ := Option.bind_eq_some_iff.1 hs
  split at hs
  · next hok =>
    cases hs
    obtain ⟨-, hfree, -, hrem⟩ := hok
    refine h.lockHandle hx (by simpa using hfree) fun hr => ?_
    rw [hr] at hrem
    cases hrem
  · cases hs

theorem Inv.doneLRU (n : Nat) : (s.doneLRU n).Inv := by
  have hact : ∀ p, ((s.doneLRU n).act p).asks = (s.act p).asks ∧ ((s.doneLRU n).act p).awaits = (s.act p).awaits := by
    intro p
    unfold Handles.doneLRU broadcastLru
    dsimp only
    split
    · next he =>
      rw [he]
      exact ⟨rfl, rfl⟩
    · exact ⟨rfl, rfl⟩
  exact ⟨h.table, h.refs, h.lockOnce, h.locked, h.kept, h.backed, fun p b hp => h.asking p b ((hact p).1.symm.trans hp),
    fun p b hp => h.awaiting p b ((hact p).2.symm.trans hp), h.exist, h.limbo, h.lruOnce, h.lru, h.lruEntries, h.tame⟩

theorem Inv.give (hr : (p, a) ∈ s.refs) (hkept : s.LockKept p a) (hask : (s.act p).asks = none) :
    ({ s with refs := (q, a) :: s.refs.erase (p, a) } : Handles).Inv := by
  refine ⟨h.table, fun b => ?_, h.lockOnce, h.locked, h.kept, fun r b y hl hy hrem => ?_, fun r b hb => ?_, h.awaiting, h.exist,
    h.limbo, h.lruOnce, h.lru, h.lruEntries, h.tame⟩
  · rw [← h.refs b]
    show countRefs (List.replicate 1 (q, a) ++ s.refs.erase (p, a)) b = _
    rw [countRefs_append, countRefs_replicate, countRefs_erase hr]
    split <;> push_cast <;> omega
  · refine mem_cons_of_mem _ ?_
    by_cases heq : (r, b) = (p, a)
    · obtain ⟨rfl, rfl⟩ := Prod.mk.inj heq
      exact hkept hl ⟨y, hy, hrem⟩
    · exact (mem_erase_of_ne heq).2 (h.backed r b y hl hy hrem)
  · refine mem_cons_of_mem _ ((mem_erase_of_ne fun heq => ?_).2 (h.asking r b hb))
    obtain ⟨rfl, -⟩ := Prod.mk.inj heq
    rw [show (s.act r).asks = none from hask] at hb
    cases hb

theorem Inv.goOn {addr : Nat}
    (hc : s.shuttingDown = true → ∀ a, (s.act p).asks = some a → ∀ x, s.hdr a = some x → x.locked = false)
    (hs : s.goOn P p addr = some t) : t.Inv := by
  unfold Handles.goOn at hs
  split at hs
  · next b dup hact =>
    have hask : (s.act p).asks = some b := by rw [hact]; rfl
    exact h.handleLock (h.asking p b hask) (fun hshut => hc hshut b hask) hs
  · exact h.handleFetch hs
  · exact h.handleInstallInt hs
  · exact h.handleInstallInt hs
  · exact h.handleFetch hs
  · exact h.handleInstallInt hs
  · cases hs

theorem Inv.step {l : HandleStep} (hmet : s.Met l) (hs : step P s l = some t) : t.Inv := by
  obtain ⟨hp, hc⟩ := hmet
  cases l with
  | fetch p id noWait =>
    simp only [Handles.step, Option.ite_none_right_eq_some] at hs
    exact h.handleFetch hs.2
  | install p id cantBlock =>
    simp only [Handles.step, Option.ite_none_right_eq_some] at hs
    exact h.handleFetch hs.2
  | goOn p addr => exact h.goOn hc hs
  | lock p a dup =>
    simp only [Handles.step, Option.ite_none_right_eq_some] at hs
    exact h.handleLock hp hc hs.2
  | unlock p a =>
    simp only [Handles.step, Option.ite_none_right_eq_some] at hs
    obtain ⟨x, hx, hs⟩ := Option.bind_eq_some_iff.1 hs.2
    split at hs
    · cases hs
      exact h.unlockHandle hx hp
    · cases hs
  | release p a locked =>
    simp only [Handles.step, Option.ite_none_right_eq_some] at hs
    exact h.handleRelease hp.1 hp.2 (asks_of_awake hs.1) hs.2
  | incRefCount p a n =>
    simp only [Handles.step, Option.ite_none_right_eq_some] at hs
    obtain ⟨x, hx, rfl⟩ := Option.map_eq_some_iff.1 hs.2
    exact h.addRefs hx n
  | decRefCount p a =>
    simp only [Handles.step, Option.ite_none_right_eq_some] at hs
    obtain ⟨hawake, hs⟩ := hs
    obtain ⟨x, hx, rfl⟩ := Option.map_eq_some_iff.1 hs
    refine h.dropRef hx hp.1 (fun hrem => ?_) (fun hin hrem => hp.2 hin ⟨x, hx, hrem⟩) (asks_of_awake hawake)
    have hpos := h.kept a x hx hrem
    have hne := hc x hx hrem
    omega
  | remove p a =>
    simp only [Handles.step, Option.ite_none_right_eq_some] at hs
    obtain ⟨x, hx, hs⟩ := Option.bind_eq_some_iff.1 hs.2
    exact h.handleRemoveInt hx hp.1 (hp.2 x hx) hs
  | attemptRemove p a =>
    simp only [Handles.step, Option.ite_none_right_eq_some] at hs
    exact h.handleAttemptRemove hp.1 hp.2 hs.2
  | invalidate p a =>
    simp only [Handles.step, Option.ite_none_right_eq_some] at hs
    exact h.handleInvalidate hp.2 hs.2
  | getNextHandle p a =>
    simp only [Handles.step, Option.ite_none_right_eq_some] at hs
    exact h.getNextHandle hs.2
  | getNextLRUHandle p =>
    simp only [Handles.step] at hs
    split at hs
    · cases hs
      exact h.getNextLRUHandle hc
    · cases hs
  | doneLRU p n =>
    simp only [Handles.step] at hs
    split at hs
    · cases hs
      exact (h.doneLRU n).setAct_rest rfl rfl
    · cases hs
  | give p q a =>
    simp only [Handles.step, Option.ite_none_right_eq_some] at hs
    obtain ⟨⟨hawake, -⟩, hs⟩ := hs
    cases hs
    exact h.give hp.1 hp.2 (asks_of_awake hawake)
  | shutDown =>
    cases hs
    exact ⟨h.table, h.refs, h.lockOnce, h.locked, h.kept, h.backed, h.asking, h.awaiting, h.exist, h.limbo, h.lruOnce, h.lru,
      h.lruEntries, h.tame⟩

end

/-- One good handle a file, in the table; one process with its lock; none freed that is referenced, locked or waited
    for, none kept removed and unreferenced; true statistics. -/
structure Sound (s : Handles) : Prop where
  unique : ∀ a b x y, s.hdr a = some x → s.hdr b = some y → x.removed = false → x.invalid = false → y.removed = false →
    y.invalid = false → x.fileID = y.fileID → a = b
  installed : ∀ a x, s.hdr a = some x → x.removed = false → x.invalid = false → s.fileHashTable x.fileID = some a
  found : ∀ id a, s.fileHashTable id = some a →
    ∃ x, s.hdr a = some x ∧ x.removed = false ∧ x.invalid = false ∧ x.fileID = id
  exclusive : ∀ p q a, (p, a) ∈ s.locks → (q, a) ∈ s.locks → p = q
  referenced : ∀ p a, (p, a) ∈ s.refs → ∃ x, s.hdr a = some x ∧ 0 < x.refCount
  lockedIn : ∀ p a, (p, a) ∈ s.locks → ∃ x, s.hdr a = some x ∧ x.locked = true
  waitedFor : ∀ p a, (s.act p).asks = some a ∨ (s.act p).awaits = some a → (s.hdr a).isSome = true
  freed : ∀ a x, s.hdr a = some x → x.removed = true → ∃ p, (p, a) ∈ s.refs
  exist : Tally.Sums (fun a => standing (s.hdr a)) s.exist
  limbo : Tally.Sums (fun a => inLimbo (s.hdr a)) s.limbo
  lruEntries : s.lruEntries = s.lruList.length

theorem Inv.sound (h : s.Inv) : s.Sound where
  unique a b x y hx hy hxr hxi hyr hyi hid := by
    have ha := (h.table x.fileID a).2 ⟨x, hx, hxr, hxi, rfl⟩
    rw [hid, (h.table y.fileID b).2 ⟨y, hy, hyr, hyi, rfl⟩] at ha
    exact (Option.some.inj ha).symm
  installed a x hx hr hi := (h.table x.fileID a).2 ⟨x, hx, hr, hi, rfl⟩
  found id a := (h.table id a).1
  exclusive p q a hp hq := (Prod.mk.inj (inj_on_of_nodup_map h.lockOnce hp hq rfl)).1
  referenced p a hr := h.live_of_ref hr
  lockedIn p a hl := h.live_of_lock hl
  waitedFor p a hw := by
    obtain hask | hawait := hw
    · obtain ⟨x, hx, -⟩ := h.live_of_ref (h.asking p a hask)
      rw [hx]
      rfl
    · obtain ⟨x, hx, -⟩ := h.awaiting p a hawait
      rw [hx]
      rfl
  freed a x hx hr := by
    have hpos := h.kept a x hx hr
    have hcount := h.refs a
    rw [hx, show refsOf (some x) = x.refCount from rfl] at hcount
    have hsome : 0 < s.refs.countP fun r => r.2 == a := by
      unfold countRefs at hcount
      omega
    obtain ⟨⟨p, b⟩, hin, hb⟩ := countP_pos_iff.1 hsome
    obtain rfl : b = a := by simpa using hb
    exact ⟨p, hin⟩
  exist := h.exist
  limbo := h.limbo
  lruEntries := h.lruEntries

theorem inv_init : Inv init := by
  refine ⟨fun _ _ => ⟨nofun, ?_⟩, fun _ => rfl, nodup_nil, fun _ => ⟨?_, ?_⟩, ?_, ?_, ?_, ?_, ?_, ?_,
    nodup_nil, fun _ => ⟨nofun, ?_⟩, rfl, rfl⟩
  · rintro ⟨_, h, _⟩
    cases h
  · rintro ⟨_, h⟩
    cases h
  · rintro ⟨_, h, _⟩
    cases h
  · intro a x h
    cases h
  · intro p a x h
    cases h
  · intro p a h
    cases h
  · intro p a h
    cases h
  · exact Tally.sums_zero
  · exact Tally.sums_zero
  · rintro ⟨_, h, _⟩
    cases h

theorem handles_sound (hr : Run (step P) Met init t) : t.Sound :=
  (hr.invariant (I := Inv) (fun _ _ _ hi hc hs => hi.step hc hs) inv_init).sound

/-- Every type of file is scavenged. -/
def scavengeAll : HandleParams := ⟨fun _ => true⟩

/-- A process installs a file's handle, another one waits for it, and the first gives it up. -/
theorem handles_sound_handedOver : ∃ t, Run (step scavengeAll) Met init t ∧ t.Sound ∧ (2, 7) ∈ t.locks := by
  have h₀ : Run (step scavengeAll) Met init init := Run.refl _ _
  have h₁ := h₀.snoc (l := .install 1 ⟨1, 5, 0, 3⟩ false) (by exact ⟨trivial, trivial⟩) rfl
  have h₂ := h₁.snoc (l := .goOn 1 7) (by exact ⟨trivial, nofun⟩) rfl
  have h₃ := h₂.snoc (l := .install 2 ⟨1, 5, 0, 3⟩ false) (by exact ⟨trivial, trivial⟩) rfl
  have h₄ := h₃.snoc (l := .release 1 7 true) (by exact ⟨⟨by decide, mem_cons_self⟩, trivial⟩) rfl
  have h₅ := h₄.snoc (l := .goOn 2 0) (by exact ⟨trivial, nofun⟩) rfl
  exact ⟨_, h₅, handles_sound h₅, by decide⟩

/-- A handle is removed while a reference is kept, and the reference dropped. -/
theorem removed_handle_kept :
    ∃ t, Run (step scavengeAll) Promised init t ∧ ¬ t.Sound ∧ t.refs = [] ∧ t.limbo = 1 ∧ (t.hdr 7).isSome = true := by
  have h₀ : Run (step scavengeAll) Promised init init := Run.refl _ _
  have h₁ := h₀.snoc (l := .install 1 ⟨1, 5, 0, 3⟩ false) (by trivial) rfl
  have h₂ := h₁.snoc (l := .goOn 1 7) (by trivial) rfl
  have h₃ := h₂.snoc (l := .remove 1 7) (by exact ⟨by decide, fun x hx => by obtain rfl := Option.some.inj hx; rfl⟩) rfl
  have h₄ := h₃.snoc (l := .decRefCount 1 7) (by exact ⟨by decide, fun h => (not_mem_nil h).elim⟩) rfl
  refine ⟨_, h₄, fun hsound => ?_, rfl, rfl, rfl⟩
  obtain ⟨p, hp⟩ := hsound.freed 7 _ rfl rfl
  exact not_mem_nil hp

end Handles
end SpriteKernel.Fsutil
