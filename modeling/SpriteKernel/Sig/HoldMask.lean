import SpriteKernel.Lib.Transition
import Mathlib.Logic.Function.Basic

/- The signal state of a user process (`signals.c`). A mask is kept as the signals whose bits are set. The signals'
   numbers are not in the source, so which pending one `Sig_Handle` comes to first is open; an action above the
   action numbers is a handler's address. Resuming, suspending and migrating are other modules' doing. -/
namespace SpriteKernel.Sig

open Function

open List

open Transition

inductive Signal where
  | debug
  | arithFault
  | illInst
  | addrFault
  | kill
  | breakpoint
  | traceTrap
  | migrateTrap
  | migrateHome
  | suspend
  | resume
  | ttyInput
  | urgent
  | child
  | ttySuspend
  | ttyOutput
  | ioReady
  | windowChange
  | other (n : Nat)
  deriving DecidableEq

/-- What `sigActions` holds; a handler whose address is an action's number is that action. -/
inductive Action where
  | default
  | ignore
  | kill
  | debug
  | suspend
  | migrate
  | handler (address : Nat)
  deriving DecidableEq

abbrev Mask := Signal → Bool

def sigDefActions : Signal → Action
  | .debug | .arithFault | .illInst | .addrFault | .breakpoint | .traceTrap => .debug
  | .migrateTrap | .migrateHome => .migrate
  | .suspend | .ttyInput | .ttySuspend | .ttyOutput => .suspend
  | .urgent | .child | .ioReady | .windowChange => .ignore
  | _ => .kill

def sigCanHoldMask : Mask
  | .arithFault | .illInst | .addrFault | .kill | .breakpoint | .traceTrap | .migrateHome | .suspend => false
  | _ => true

/-- What is used of `Proc_ControlBlock`. `running`: the signals whose handlers have not returned, last first;
    `killSent`: `SIG_KILL` was sent; `exited`: nothing runs any more, as after a panic. -/
structure Proc where
  sigHoldMask : Mask := fun _ => false
  sigPendingMask : Mask := fun _ => false
  sigActions : Signal → Action := sigDefActions
  sigMasks : Signal → Mask := fun _ _ => false
  sigCodes : Signal → Int := fun _ => 0
  sigAddr : Int := 0
  oldSigHoldMask : Mask := fun _ => false
  pauseInProgress : Bool := false
  running : List Signal := []
  killSent : Bool := false
  exited : Bool := false

/-! ## The routines -/

/-- The process is foreign and such are killed rather than debugged, it is at home, and it is suspended. -/
structure SendEnv where
  killMigratedDebugs : Bool := false
  home : Bool := true
  suspended : Bool := false

def localSend (sigNum : Signal) (code addr : Int) (env : SendEnv) (p : Proc) : Proc :=
  let sigNum := if p.sigActions sigNum = .debug ∧ env.killMigratedDebugs then .kill else sigNum
  if p.sigActions sigNum = .ignore ∨ sigNum = .migrateHome ∧ env.home then p
  else if p.sigActions sigNum = .suspend ∧ env.suspended then p
  else if sigNum = .resume ∧ p.sigActions sigNum = .kill then p
  else
    let p := { p with
      sigPendingMask := update p.sigPendingMask sigNum true
      sigCodes := update p.sigCodes sigNum code
      sigAddr := addr }
    if p.sigHoldMask sigNum && !sigCanHoldMask sigNum then
      { p with
        sigHoldMask := update p.sigHoldMask sigNum false
        sigActions := update p.sigActions sigNum (sigDefActions sigNum) }
    else p

inductive SigError where
  | invalidSignal
  | invalidAction
  | argNoAccess
  deriving DecidableEq

/-- The new mask is taken where the old one can be copied out. -/
def setHoldMask (newMask : Mask) (copyOut : Bool) (p : Proc) : Except SigError Proc :=
  if !copyOut then .error .argNoAccess
  else .ok { p with sigHoldMask := fun s => newMask s && sigCanHoldMask s }

/-- The `Sig_Action` a process passes. -/
inductive SigAction where
  | invalid
  | handle (handler : Action) (sigHoldMask : Mask)
  | plain (action : Action)

/-- `Sig_SetAction`, where the copies to and from the process and the look at the handler work or do not. -/
def setAction (sigNum : Option Signal) (new : SigAction) (copies handlerOk : Bool) (p : Proc) : Except SigError Proc :=
  match sigNum with
  | none | some .kill | some .suspend => .error .invalidSignal
  | some sigNum =>
    if !copies then .error .argNoAccess
    else
      match new with
      | .invalid | .plain (.handler _) => .error .invalidAction
      | .handle handler mask =>
        if !handlerOk then .error .argNoAccess
        else
          .ok { p with
            sigMasks := update p.sigMasks sigNum fun s => (decide (s = sigNum) || mask s) && sigCanHoldMask s
            sigActions := update p.sigActions sigNum handler }
      | .plain action =>
        let action := if action = .default then sigDefActions sigNum else action
        if action = .ignore ∧ sigCanHoldMask sigNum = false then .error .invalidSignal
        else
          .ok { p with
            sigActions := update p.sigActions sigNum action
            sigPendingMask := if action = .ignore then update p.sigPendingMask sigNum false else p.sigPendingMask
            sigMasks := update p.sigMasks sigNum fun _ => false }

/-- `Sig_Pause`, up to the wait. -/
def sigPause (sigHoldMask : Mask) (p : Proc) : Proc :=
  { p with
    oldSigHoldMask := p.sigHoldMask
    pauseInProgress := true
    sigHoldMask := fun s => sigHoldMask s && sigCanHoldMask s }

/-- The pending signals that are not held. -/
def sigs (p : Proc) : Mask := fun s => p.sigPendingMask s && !p.sigHoldMask s

/-- What `Sig_Handle` finds elsewhere. -/
structure HandleEnv where
  debugged : Bool := false
  canMigrate : Bool := true
  send : SendEnv := {}

/-- The `oldHoldMask` that goes into the signal context. -/
def contextMask (p : Proc) : Mask := if p.pauseInProgress then p.oldSigHoldMask else p.sigHoldMask

/-- The process is made to run its handler. -/
def deliver (sigNum : Signal) (p : Proc) : Proc :=
  { p with
    pauseInProgress := false
    sigHoldMask := fun s => p.sigHoldMask s || p.sigMasks sigNum s || (decide (s = sigNum) && !sigCanHoldMask sigNum)
    running := sigNum :: p.running }

/-- `Sig_Handle`, where `sigNum` is the first signal it finds. -/
def sigHandle (sigNum : Signal) (env : HandleEnv) (p : Proc) : Proc :=
  if sigs p .kill then { p with exited := true }
  else
    let p := { p with sigPendingMask := update p.sigPendingMask sigNum false }
    match p.sigActions sigNum with
    | .ignore | .suspend | .debug => p
    | .kill => if sigNum = .kill ∨ !env.debugged then { p with exited := true } else p
    | .migrate =>
      if env.canMigrate then p
      else
        let p := localSend sigNum (p.sigCodes sigNum) p.sigAddr env.send p
        { p with sigHoldMask := update p.sigHoldMask .migrateTrap true }
    | .default => { p with exited := true }
    | .handler _ => deliver sigNum p

/-- `Sig_Return`, with the mask it finds on the user's stack. -/
def sigReturn (oldHoldMask : Mask) (p : Proc) : Proc := { p with sigHoldMask := oldHoldMask, running := p.running.tail }

/-- `Sig_Fork`: the child, whose stack is a copy of its parent's. -/
def sigFork (p : Proc) : Proc :=
  { p with
    sigHoldMask := update p.sigHoldMask .migrateTrap true
    sigPendingMask := fun _ => false
    sigCodes := fun _ => 0
    pauseInProgress := false
    killSent := false }

inductive Label where
  | fork
  | send (sigNum : Signal) (code addr : Int) (env : SendEnv)
  | setHoldMask (newMask : Mask) (copyOut : Bool)
  | setAction (sigNum : Option Signal) (new : SigAction) (copies handlerOk : Bool)
  | pause (sigHoldMask : Mask)
  | handle (sigNum : Signal) (env : HandleEnv)
  | ret (oldHoldMask : Mask)

/-- An operation of a process that has not exited, or a signal to it. After a fork the child is looked at. -/
def step (p : Proc) (l : Label) : Option Proc :=
  if p.exited then none
  else
    match l with
    | .fork => some (sigFork p)
    | .send sigNum code addr env => some { localSend sigNum code addr env p with killSent := p.killSent || decide (sigNum = .kill) }
    | .setHoldMask newMask copyOut => some ((setHoldMask newMask copyOut p).toOption.getD p)
    | .setAction sigNum new copies handlerOk => some ((setAction sigNum new copies handlerOk p).toOption.getD p)
    | .pause mask => some (sigPause mask p)
    | .handle sigNum env => if sigs p sigNum then some (sigHandle sigNum env p) else none
    | .ret oldHoldMask => some (sigReturn oldHoldMask p)

/-! ## What is held -/

/-- What must not be held is not, but while its handler runs; and nothing keeps a process from being killed. -/
structure Lawful (p : Proc) : Prop where
  held : ∀ s, p.sigHoldMask s = true → sigCanHoldMask s = true ∨ s ∈ p.running
  kill : p.sigHoldMask .kill = false
  action : p.sigActions .kill = .kill
  sent : p.killSent = true → p.exited = true ∨
    p.sigPendingMask .kill = true ∧ ∀ sigNum env, (sigHandle sigNum env p).exited = true

/-- The mask that is returned with holds, of what must not be held, only signals whose handlers still run. -/
def Returns (p : Proc) : Label → Prop
  | .ret oldHoldMask => ∀ s, oldHoldMask s = true → sigCanHoldMask s = true ∨ s ∈ p.running.tail
  | _ => True

/-- What every operation keeps. -/
structure Inv (p : Proc) : Prop where
  held : ∀ s, p.sigHoldMask s = true → sigCanHoldMask s = true ∨ s ∈ p.running
  notRun : Signal.kill ∉ p.running
  action : p.sigActions .kill = .kill
  masks : ∀ s t, p.sigMasks s t = true → sigCanHoldMask t = true
  sent : p.killSent = true → p.exited = true ∨ p.sigPendingMask .kill = true

variable {p q : Proc} {sigNum : Signal}

theorem Inv.kill (h : Inv p) : p.sigHoldMask .kill = false := by
  rw [Bool.eq_false_iff]
  intro hheld
  obtain hcan | hrun := h.held .kill hheld
  · cases hcan
  · exact h.notRun hrun

theorem Inv.lawful (h : Inv p) : Lawful p := by
  refine ⟨h.held, h.kill, h.action, fun hsent => (h.sent hsent).imp id fun hpending => ⟨hpending, fun sigNum env => ?_⟩⟩
  have hsigs : sigs p .kill = true := by
    simp [sigs, hpending, h.kill]
  rw [sigHandle, if_pos hsigs]

/-- A signal becomes pending, and where it is held but must not be, it is not held any more. -/
theorem Inv.localSend (h : Inv p) (sigNum : Signal) (code addr : Int) (env : SendEnv) : Inv (localSend sigNum code addr env p) := by
  unfold Sig.localSend
  dsimp only
  generalize (if p.sigActions sigNum = .debug ∧ env.killMigratedDebugs then Signal.kill else sigNum) = sigNum
  split
  · exact h
  split
  · exact h
  split
  · exact h
  have hsent : p.killSent = true → p.exited = true ∨ update p.sigPendingMask sigNum true .kill = true := by
    intro hsent
    refine (h.sent hsent).imp id fun hpending => ?_
    by_cases hk : Signal.kill = sigNum
    · rw [hk, update_self]
    · rw [update_of_ne hk, hpending]
  split
  · refine ⟨fun s hs => h.held s ?_, h.notRun, ?_, h.masks, hsent⟩
    · by_cases heq : s = sigNum
      · simp [heq] at hs
      · simpa [heq] using hs
    · by_cases hk : Signal.kill = sigNum
      · subst hk
        simp [sigDefActions]
      · exact (update_of_ne hk _ _).trans h.action
  · exact ⟨h.held, h.notRun, h.action, h.masks, hsent⟩

theorem pending_kill_localSend (h : p.sigActions .kill = .kill) (code addr : Int) (env : SendEnv) :
    (localSend .kill code addr env p).sigPendingMask .kill = true := by
  simp only [localSend, h, reduceCtorEq, false_and, if_false, or_self]
  split <;> simp

section
variable (h : Inv p)
include h

theorem Inv.setAction {sigNum : Option Signal} {new : SigAction} {copies handlerOk : Bool}
    (hq : setAction sigNum new copies handlerOk p = .ok q) : Inv q := by
  unfold Sig.setAction at hq
  split at hq
  · cases hq
  · cases hq
  · cases hq
  next sigNum hkill _ =>
  have hne : Signal.kill ≠ sigNum := fun heq => hkill (by rw [heq])
  split at hq
  · cases hq
  split at hq
  · cases hq
  · cases hq
  · split at hq
    · cases hq
    cases hq
    refine ⟨h.held, h.notRun, (update_of_ne hne _ _).trans h.action, fun s t ht => ?_, h.sent⟩
    by_cases hs : s = sigNum
    · subst hs
      simp only [update_self, Bool.and_eq_true] at ht
      exact ht.2
    · exact h.masks s t (by simpa [hs] using ht)
  next action _ =>
    generalize (if action = Action.default then sigDefActions sigNum else action) = action at hq
    dsimp only at hq
    split at hq
    · cases hq
    cases hq
    refine ⟨h.held, h.notRun, (update_of_ne hne _ _).trans h.action, fun s t ht => ?_, fun hsent => ?_⟩
    · by_cases hs : s = sigNum
      · simp [hs] at ht
      · exact h.masks s t (by simpa [hs] using ht)
    · refine (h.sent hsent).imp id fun hpending => ?_
      split
      · exact (update_of_ne hne _ _).trans hpending
      · exact hpending

theorem Inv.deliver (hne : Signal.kill ≠ sigNum) : Inv (deliver sigNum p) := by
  refine ⟨fun s hs => ?_, ?_, h.action, h.masks, h.sent⟩
  · simp only [Sig.deliver, Bool.or_eq_true, Bool.and_eq_true, decide_eq_true_eq] at hs
    obtain (hheld | hmask) | hself := hs
    · exact (h.held s hheld).imp id (mem_cons_of_mem _)
    · exact .inl (h.masks _ _ hmask)
    · exact .inr (mem_cons.2 (.inl hself.1))
  · exact fun hmem => (mem_cons.1 hmem).elim hne h.notRun

theorem Inv.holdTrap : Inv { p with sigHoldMask := update p.sigHoldMask .migrateTrap true } := by
  refine ⟨fun s hs => ?_, h.notRun, h.action, h.masks, h.sent⟩
  by_cases htrap : s = .migrateTrap
  · subst htrap
    exact .inl rfl
  · exact h.held s (by simpa [htrap] using hs)

theorem Inv.sigHandle {env : HandleEnv} (hsig : sigs p sigNum = true) : Inv (sigHandle sigNum env p) := by
  unfold Sig.sigHandle
  split
  · exact ⟨h.held, h.notRun, h.action, h.masks, fun _ => .inl rfl⟩
  next hnokill =>
  have hne : Signal.kill ≠ sigNum := fun heq => hnokill (heq ▸ hsig)
  have hclear : Inv { p with sigPendingMask := update p.sigPendingMask sigNum false } := by
    refine ⟨h.held, h.notRun, h.action, h.masks, fun hsent => (h.sent hsent).imp id fun hpending => ?_⟩
    exact (update_of_ne hne _ _).trans hpending
  have hgone : Inv { p with sigPendingMask := update p.sigPendingMask sigNum false, exited := true } :=
    ⟨h.held, h.notRun, h.action, h.masks, fun _ => .inl rfl⟩
  dsimp only
  split
  · exact hclear
  · exact hclear
  · exact hclear
  · split
    · exact hgone
    · exact hclear
  · split
    · exact hclear
    · exact (hclear.localSend sigNum (p.sigCodes sigNum) p.sigAddr env.send).holdTrap
  · exact hgone
  · exact hclear.deliver hne

theorem Inv.step {l : Label} (hret : Returns p l) (hs : step p l = some q) : Inv q := by
  unfold Sig.step at hs
  split at hs
  · cases hs
  cases l with
  | fork =>
    cases hs
    exact ⟨(h.holdTrap).held, h.notRun, h.action, h.masks, nofun⟩
  | send sigNum code addr env =>
    cases hs
    have hsent := h.localSend sigNum code addr env
    refine ⟨hsent.held, hsent.notRun, hsent.action, hsent.masks, fun hkill => ?_⟩
    rw [Bool.or_eq_true, decide_eq_true_eq] at hkill
    obtain hbefore | rfl := hkill
    · refine hsent.sent ?_
      unfold Sig.localSend
      dsimp only
      repeat' split
      all_goals exact hbefore
    · exact .inr (pending_kill_localSend h.action code addr env)
  | setHoldMask newMask copyOut =>
    cases hs
    unfold Sig.setHoldMask
    split
    · exact h
    · refine ⟨fun s hs => .inl ?_, h.notRun, h.action, h.masks, h.sent⟩
      exact (Bool.and_eq_true_iff.1 hs).2
  | setAction sigNum new copies handlerOk =>
    cases hs
    cases hq : Sig.setAction sigNum new copies handlerOk p with
    | error => exact h
    | ok q => exact h.setAction hq
  | pause mask =>
    cases hs
    refine ⟨fun s hs => .inl ?_, h.notRun, h.action, h.masks, h.sent⟩
    exact (Bool.and_eq_true_iff.1 hs).2
  | handle sigNum env =>
    obtain ⟨hsig, hs⟩ := Option.ite_none_right_eq_some.1 hs
    cases hs
    exact h.sigHandle hsig
  | ret oldHoldMask =>
    cases hs
    exact ⟨hret, fun hrun => h.notRun (mem_of_mem_tail hrun), h.action, h.masks, h.sent⟩

end

/-- **What is held** in every run in which no signal context brings back a signal that must not be held. -/
theorem lawful_of_run (h : Run step Returns {} p) : Lawful p := by
  have hinv : Inv p := by
    refine h.invariant (fun _ _ _ hi hret hs => hi.step hret hs) ⟨?_, ?_, rfl, ?_, ?_⟩
    · exact fun _ hs => nomatch hs
    · exact not_mem_nil
    · exact fun _ _ hs => nomatch hs
    · exact fun hs => nomatch hs
  exact hinv.lawful

/-- A handler for an address fault is called and returns. -/
theorem lawful_of_run_returned : ∃ p, Run step Returns {} p ∧ p.running = [] ∧ Lawful p := by
  have hstart : Run step Returns {} {} := Run.refl _ _
  have hset := hstart.snoc (l := .setAction (some .addrFault) (.handle (.handler 8192) fun _ => true) true true) (by trivial) rfl
  have hcalled := (hset.snoc (l := .send .addrFault 0 0 {}) (by trivial) rfl).snoc (l := .handle .addrFault {}) (by trivial) rfl
  have hmask : ∀ s, decide (s = Signal.child) = true → sigCanHoldMask s = true ∨ s ∈ ([] : List Signal) := by
    intro s hs
    rw [of_decide_eq_true hs]
    exact .inl rfl
  have hrun := hcalled.snoc (l := .ret fun s => decide (s = .child)) (by exact hmask) rfl
  exact ⟨_, hrun, rfl, lawful_of_run hrun⟩

/-- While it returns from a handler, with all signals held, a process is sent `SIG_KILL`; it goes on. -/
theorem lawful_of_run_fails : ∃ p, Run step (fun _ _ => True) {} p ∧ p.sigHoldMask .kill = true ∧ p.killSent = true ∧
    p.exited = false ∧ sigs p .kill = false := by
  refine ⟨_, run_of_exec [.send .kill 0 0 {}, .ret fun _ => true] _ _ (fun _ _ => trivial) rfl, ?_, ?_, ?_, ?_⟩
  · rfl
  · rfl
  · rfl
  · rfl

end SpriteKernel.Sig
