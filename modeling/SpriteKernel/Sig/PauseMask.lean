import SpriteKernel.Sig.HoldMask
import Mathlib.Data.List.Forall2

/- The hold mask as user code finds it. `Sig_Pause` parks it in `oldSigHoldMask`, and only the call of a handler takes it
   from there. -/
namespace SpriteKernel.Sig

open Function List Transition

/-- In user code, in the wait of `Sig_Pause`, or on the way out of it. -/
inductive Place where
  | user
  | waiting
  | leaving
  deriving DecidableEq

/-- User code: the mask it is to have, and whether it was told `GEN_ABORTED_BY_SIGNAL` and is to pause again. -/
structure Level where
  mask : Mask
  retry : Bool

/-- `contexts`: the `oldHoldMask`s on the stack. History: the code that runs, that interrupted, and whether a
    migration was postponed. -/
structure UserProc where
  proc : Proc := {}
  place : Place := .user
  contexts : List Mask := []
  level : Level := ⟨fun _ => false, false⟩
  outer : List Level := []
  postponed : Bool := false

inductive UserStep where
  | send (sigNum : Signal) (code addr : Int) (env : SendEnv)
  | setHoldMask (newMask : Mask) (copyOut : Bool)
  | setAction (sigNum : Option Signal) (new : SigAction) (copies handlerOk : Bool)
  | pause (sigHoldMask : Mask)
  | wake (aborted : Bool)
  | handle (sigNum : Signal) (env : HandleEnv)
  | resume
  | ret

/-- `Sig_Handle` sets up a handler. -/
def delivers (sigNum : Signal) (p : Proc) : Bool :=
  !sigs p .kill && match p.sigActions sigNum with
    | .handler _ => true
    | _ => false

/-- The status of `Sig_Pause` is `GEN_ABORTED_BY_SIGNAL`. -/
def Aborted (p : Proc) : Prop :=
  (∀ s, p.sigPendingMask s = true → s = .migrateTrap ∨ s = .migrateHome) ∧
    (p.sigPendingMask .migrateTrap = true ∨ p.sigPendingMask .migrateHome = true)

/-- A signal that comes in touches no parked mask; it takes from the mask only what must not be held. -/
theorem localSend_holds (sigNum : Signal) (code addr : Int) (env : SendEnv) (p : Proc) :
    (localSend sigNum code addr env p).pauseInProgress = p.pauseInProgress ∧
    (localSend sigNum code addr env p).oldSigHoldMask = p.oldSigHoldMask ∧
    ∀ t, (localSend sigNum code addr env p).sigHoldMask t = p.sigHoldMask t ∨
      (localSend sigNum code addr env p).sigHoldMask t = false ∧ p.sigHoldMask t = true ∧ sigCanHoldMask t = false ∧
        (t = sigNum ∨ p.sigActions sigNum = .debug) := by
  unfold localSend
  dsimp only
  obtain ⟨sent, hsent, heq⟩ : ∃ sent, sent = (if p.sigActions sigNum = .debug ∧ env.killMigratedDebugs then Signal.kill else sigNum) ∧
      (sent = sigNum ∨ p.sigActions sigNum = .debug) := by
    refine ⟨_, rfl, ?_⟩
    split
    · next h => exact .inr h.1
    · exact .inl rfl
  rw [← hsent]
  split
  · exact ⟨rfl, rfl, fun t => .inl rfl⟩
  split
  · exact ⟨rfl, rfl, fun t => .inl rfl⟩
  split
  · exact ⟨rfl, rfl, fun t => .inl rfl⟩
  split
  · next hheld =>
    rw [Bool.and_eq_true, Bool.not_eq_true'] at hheld
    refine ⟨rfl, rfl, fun t => ?_⟩
    by_cases ht : t = sent
    · subst ht
      exact .inr ⟨update_self .., hheld.1, hheld.2, heq⟩
    · exact .inl (update_of_ne ht _ _)
  · exact ⟨rfl, rfl, fun t => .inl rfl⟩

theorem sigHandle_delivers {sigNum : Signal} {env : HandleEnv} {p : Proc} (h : delivers sigNum p = true) :
    sigHandle sigNum env p = deliver sigNum { p with sigPendingMask := update p.sigPendingMask sigNum false } := by
  unfold delivers at h
  rw [Bool.and_eq_true, Bool.not_eq_true'] at h
  rw [sigHandle, if_neg (by rw [h.1]; exact Bool.false_ne_true)]
  have hact := h.2
  dsimp only
  split at hact
  · next heq => rw [heq]
  · cases hact

/-- `Sig_Handle` without a handler touches the mask for a postponed migration only. -/
theorem sigHandle_holds {sigNum : Signal} {env : HandleEnv} {p : Proc} (hsig : sigs p sigNum = true) (h : delivers sigNum p = false) :
    (sigHandle sigNum env p).pauseInProgress = p.pauseInProgress ∧ (sigHandle sigNum env p).oldSigHoldMask = p.oldSigHoldMask ∧
    ∀ t, (sigHandle sigNum env p).sigHoldMask t = p.sigHoldMask t ∨ (p.sigActions sigNum = .migrate ∧ env.canMigrate = false) ∧
      t = .migrateTrap ∧ (sigHandle sigNum env p).sigHoldMask t = true := by
  unfold sigHandle
  split
  · exact ⟨rfl, rfl, fun t => .inl rfl⟩
  next hkill =>
  dsimp only
  split
  · exact ⟨rfl, rfl, fun t => .inl rfl⟩
  · exact ⟨rfl, rfl, fun t => .inl rfl⟩
  · exact ⟨rfl, rfl, fun t => .inl rfl⟩
  · split <;> exact ⟨rfl, rfl, fun t => .inl rfl⟩
  · next hact =>
    split
    · exact ⟨rfl, rfl, fun t => .inl rfl⟩
    next hcan =>
    have hsend := localSend_holds sigNum (p.sigCodes sigNum) p.sigAddr env.send
      { p with sigPendingMask := update p.sigPendingMask sigNum false }
    refine ⟨hsend.1, hsend.2.1, fun t => ?_⟩
    by_cases ht : t = .migrateTrap
    · subst ht
      exact .inr ⟨⟨hact, Bool.eq_false_iff.2 hcan⟩, rfl, by simp⟩
    · refine .inl ((update_of_ne ht _ _).trans ?_)
      obtain heq | ⟨-, hheld, -, rfl | hdebug⟩ := hsend.2.2 t
      · exact heq
      · rw [sigs, show p.sigHoldMask t = true from hheld] at hsig
        simp at hsig
      · cases hact.symm.trans hdebug
  · exact ⟨rfl, rfl, fun t => .inl rfl⟩
  · next hact =>
    rw [delivers, hact] at h
    simp [hkill] at h

theorem contextMask_eq {p : Proc} (h : p.pauseInProgress = false) : contextMask p = p.sigHoldMask := by
  rw [contextMask, h]
  exact if_neg Bool.false_ne_true

namespace UserProc
variable {s t : UserProc} {l : UserStep}

/-- A sender may take its signal from the mask in force. -/
def sent (s : UserProc) (sigNum : Signal) (code addr : Int) (env : SendEnv) : UserProc :=
  let p := localSend sigNum code addr env s.proc
  { s with
    proc := p
    level := { s.level with mask := fun t => s.level.mask t && (p.sigHoldMask t || !s.proc.sigHoldMask t) } }

def handled (s : UserProc) (sigNum : Signal) (env : HandleEnv) : UserProc :=
  let p := sigHandle sigNum env s.proc
  if delivers sigNum s.proc then
    { s with
      proc := p
      place := .user
      contexts := contextMask s.proc :: s.contexts
      level := ⟨p.sigHoldMask, false⟩
      outer := s.level :: s.outer }
  else { s with proc := p, postponed := s.postponed || decide (s.proc.sigActions sigNum = .migrate) && !env.canMigrate }

def step (s : UserProc) (l : UserStep) : Option UserProc :=
  if s.proc.exited then none
  else
    match l, s.place with
    | .send sigNum code addr env, _ => some (s.sent sigNum code addr env)
    | .setHoldMask newMask copyOut, .user =>
      match setHoldMask newMask copyOut s.proc with
      | .ok p => some { s with proc := p, level := { s.level with mask := fun t => newMask t && sigCanHoldMask t } }
      | .error _ => some s
    | .setAction sigNum new copies handlerOk, .user =>
      some { s with proc := (setAction sigNum new copies handlerOk s.proc).toOption.getD s.proc }
    | .pause mask, .user => some { s with proc := sigPause mask s.proc, place := .waiting, level := { s.level with retry := false } }
    | .wake aborted, .waiting => some { s with place := .leaving, level := { s.level with retry := aborted } }
    | .handle _ _, .waiting => none
    | .handle sigNum env, _ => if sigs s.proc sigNum then some (s.handled sigNum env) else none
    | .resume, .leaving => some { s with place := .user }
    | .ret, .user =>
      match s.contexts, s.outer with
      | c :: cs, m :: ms => some { s with proc := sigReturn c s.proc, contexts := cs, level := m, outer := ms }
      | _, _ => none
    | _, _ => none

/-- `m` is `n`, but for the trap of a postponed migration. -/
def Agrees (postponed : Bool) (m n : Mask) : Prop := ∀ s, m s = n s ∨ postponed = true ∧ s = .migrateTrap ∧ m s = true

/-- User code has its mask, and each context the mask of the code that was interrupted. -/
structure Restored (s : UserProc) : Prop where
  current : s.place = .user → Agrees s.postponed s.proc.sigHoldMask s.level.mask
  contexts : Forall₂ (Agrees s.postponed) s.contexts (s.outer.map Level.mask)

def Told (s : UserProc) : UserStep → Prop
  | .wake aborted => aborted = true ↔ Aborted s.proc
  | _ => True

/-- No pause ends but in a handler. -/
def EndsInHandler (s : UserProc) (l : UserStep) : Prop := s.Told l ∧ (l = .resume → s.proc.pauseInProgress = false)

/-- What every step keeps. -/
structure Inv (s : UserProc) : Prop where
  current : Agrees s.postponed (contextMask s.proc) s.level.mask
  contexts : Forall₂ (Agrees s.postponed) s.contexts (s.outer.map Level.mask)
  user : s.place = .user → s.proc.pauseInProgress = false
  paused : s.proc.pauseInProgress = true → ∀ t, s.proc.sigHoldMask t = true → sigCanHoldMask t = true

theorem Agrees.refl (postponed : Bool) (m : Mask) : Agrees postponed m m := fun _ => .inl rfl

theorem Agrees.mono {a b : Bool} {m n : Mask} (h : Agrees a m n) (hab : a = true → b = true) : Agrees b m n :=
  fun s => (h s).imp_right (.imp_left hab)

/-- With no pause in progress the mask is not parked. -/
theorem Inv.of_user (hp : s.proc.pauseInProgress = false) (hcur : Agrees s.postponed s.proc.sigHoldMask s.level.mask)
    (hcontexts : Forall₂ (Agrees s.postponed) s.contexts (s.outer.map Level.mask)) : s.Inv := by
  refine ⟨?_, hcontexts, fun _ => hp, fun h => by cases hp.symm.trans h⟩
  rw [contextMask_eq hp]
  exact hcur

theorem Inv.sent (h : s.Inv) (sigNum : Signal) (code addr : Int) (env : SendEnv) : (s.sent sigNum code addr env).Inv := by
  obtain ⟨hpause, hold, hholds⟩ := localSend_holds sigNum code addr env s.proc
  refine ⟨fun t => ?_, h.contexts, fun hp => hpause.trans (h.user hp), fun hp t ht => ?_⟩
  · have hcur := h.current t
    unfold contextMask UserProc.sent at *
    dsimp only
    rw [hpause, hold]
    split
    · next hp =>
      rw [if_pos hp] at hcur
      obtain heq | ⟨-, hheld, hcan, -⟩ := hholds t
      · rw [heq, Bool.or_not_self, Bool.and_true]
        exact hcur
      · rw [h.paused hp t hheld] at hcan
        cases hcan
    · next hp =>
      rw [if_neg hp] at hcur
      obtain heq | ⟨hno, hheld, -, -⟩ := hholds t
      · rw [heq, Bool.or_not_self, Bool.and_true]
        exact hcur
      · simp [hno, hheld]
  · obtain heq | ⟨hno, -, -, -⟩ := hholds t
    · exact h.paused (hpause.symm.trans hp) t (heq.symm.trans ht)
    · cases hno.symm.trans ht

theorem Inv.handled {sigNum : Signal} (h : s.Inv) (env : HandleEnv) (hsig : sigs s.proc sigNum = true) :
    (s.handled sigNum env).Inv := by
  unfold UserProc.handled
  split
  · next hdeliver =>
    have hpause : (sigHandle sigNum env s.proc).pauseInProgress = false := by
      rw [sigHandle_delivers hdeliver]
      rfl
    exact .of_user hpause (.refl _ _) (.cons h.current h.contexts)
  · next hdeliver =>
    obtain ⟨hpause, hold, hholds⟩ := @sigHandle_holds _ env _ hsig (Bool.eq_false_iff.2 hdeliver)
    have hmono : s.postponed = true → (s.postponed || decide (s.proc.sigActions sigNum = .migrate) && !env.canMigrate) = true :=
      fun hp => by rw [hp, Bool.true_or]
    refine ⟨fun t => ?_, h.contexts.imp fun _ _ ha => ha.mono hmono, fun hp => hpause.trans (h.user hp), fun hp t ht => ?_⟩
    · have hcur := h.current.mono hmono t
      unfold contextMask at hcur ⊢
      rw [hpause, hold]
      split
      · next hp =>
        rw [if_pos hp] at hcur
        exact hcur
      · next hp =>
        rw [if_neg hp] at hcur
        obtain heq | ⟨hmig, htrap, hset⟩ := hholds t
        · rw [heq]
          exact hcur
        · exact .inr ⟨by simp [hmig.1, hmig.2], htrap, hset⟩
    · obtain heq | ⟨-, rfl, -⟩ := hholds t
      · exact h.paused (hpause.symm.trans hp) t (heq.symm.trans ht)
      · rfl

theorem Inv.step (h : s.Inv) (hl : s.EndsInHandler l) (hs : s.step l = some t) : t.Inv := by
  unfold UserProc.step at hs
  split at hs
  · cases hs
  split at hs
  · cases hs
    exact h.sent _ _ _ _
  · next hplace =>
    split at hs
    · next p hset =>
      cases hs
      unfold Sig.setHoldMask at hset
      split at hset
      · cases hset
      cases hset
      exact .of_user (h.user hplace) (.refl _ _) h.contexts
    · cases hs
      exact h
  · next sigNum new copies handlerOk hplace =>
    cases hs
    cases hset : Sig.setAction sigNum new copies handlerOk s.proc with
    | error => exact h
    | ok p =>
      unfold Sig.setAction at hset
      dsimp only at hset
      repeat' split at hset
      all_goals cases hset
      all_goals exact ⟨h.current, h.contexts, h.user, h.paused⟩
  · next hplace =>
    cases hs
    have hcur := h.current
    rw [contextMask_eq (h.user hplace)] at hcur
    exact ⟨hcur, h.contexts, fun hp => (by cases hp), fun _ t ht => (Bool.and_eq_true_iff.1 ht).2⟩
  · cases hs
    exact ⟨h.current, h.contexts, fun hp => (by cases hp), h.paused⟩
  · cases hs
  · obtain ⟨hsig, hs⟩ := Option.ite_none_right_eq_some.1 hs
    cases hs
    exact h.handled _ hsig
  · cases hs
    exact ⟨h.current, h.contexts, fun _ => hl.2 rfl, h.paused⟩
  · next hplace =>
    split at hs
    · next c cs m ms hcontexts houter =>
      cases hs
      have hall := h.contexts
      rw [hcontexts, houter] at hall
      cases hall with
      | cons hc hcs => exact .of_user (h.user hplace) hc hcs
    · cases hs
  · cases hs

/-- **The hold mask comes back** in every run in which no pause ends but in a handler. -/
theorem restored_of_run (h : Run UserProc.step EndsInHandler {} s) : s.Restored := by
  have hinv : s.Inv :=
    h.invariant (fun _ _ _ hi hl hs => hi.step hl hs) (.of_user rfl (.refl _ _) .nil)
  refine ⟨fun hplace => ?_, hinv.contexts⟩
  have hcur := hinv.current
  rw [contextMask_eq (hinv.user hplace)] at hcur
  exact hcur

/-- A pause with no signal held ends in a handler, which returns. -/
theorem restored_of_run_paused : ∃ s, Run UserProc.step EndsInHandler {} s ∧ s.place = .user ∧
    s.proc.sigHoldMask .child = true ∧ s.Restored := by
  have hstart : Run UserProc.step EndsInHandler {} {} := Run.refl _ _
  have hsent := hstart.free [.setHoldMask (fun s => decide (s = .child)) true,
    .setAction (some .urgent) (.handle (.handler 8192) fun _ => false) true true, .pause fun _ => false, .send .urgent 0 0 {}]
    (by simp [EndsInHandler, Told]) rfl
  have hwake := hsent.snoc (l := .wake false)
    (by exact ⟨⟨fun h => (by cases h), fun h => (by cases h.2 <;> contradiction)⟩, fun h => (by cases h)⟩) rfl
  have hrun := hwake.free [.handle .urgent {}, .ret] (by simp [EndsInHandler, Told]) rfl
  exact ⟨_, hrun, rfl, rfl, restored_of_run hrun⟩

/-- With a signal held a process pauses with none, and is suspended. When it runs again none is held. -/
theorem hold_mask_lost : ∃ s, Run UserProc.step Told {} s ∧ s.place = .user ∧ s.contexts = [] ∧ s.level.retry = false ∧
    s.postponed = false ∧ s.level.mask .child = true ∧ s.proc.sigHoldMask .child = false := by
  have hstart : Run UserProc.step Told {} {} := Run.refl _ _
  have hsent := hstart.free [.setHoldMask (fun s => decide (s = .child)) true, .pause fun _ => false, .send .ttyInput 0 0 {}]
    (by simp [Told]) rfl
  have hwake := hsent.snoc (l := .wake false) (by exact ⟨fun h => (by cases h), fun h => (by cases h.2 <;> contradiction)⟩) rfl
  have hrun := hwake.free [.handle .ttyInput {}, .resume] (by simp [Told]) rfl
  exact ⟨_, hrun, rfl, rfl, rfl, rfl, rfl, rfl⟩

end UserProc
end SpriteKernel.Sig
