import SpriteKernel.Fsconsist.Cache
import SpriteKernel.Lib.Transition
import Mathlib.Logic.Function.Basic

/- The server of one file: any number of processes in the routines of `fsconsistCache.c`, with replies, kills and
   timeouts in between. A step is one stretch inside the monitor, or what `ClientCommand` does between two. A waiter
   may look at its condition at any time. A stretch that panics leaves the state, with the panic recorded. -/
namespace SpriteKernel.Fsconsist

open SpriteKernel Transition

/-- A call of one of the routines that wait. -/
inductive Request where
  | fileConsistency (clientID : HostId) (useFlags : UseFlags)
  | reopenConsistency (clientID : HostId) (use : UseCounts) (swap cacheable : Bool)
  | migrateConsistency (srcClientID dstClientID : HostId) (useFlags : UseFlags) (closeSrc : Bool)
  | getClientAttrs (clientID : HostId)
  | clientRemoveCallback (clientID : HostId)
  | fetchDirtyBlocks (invalidate : Bool)
  deriving DecidableEq, Repr

/-- The first stretch of a call. -/
def Request.enter (env : Env) (p : Pid) (r : Request) (s : Info) : Stretch :=
  match r with
  | .fileConsistency clientID useFlags =>
    beginOrWait env p (.scan (.fileConsistency clientID useFlags)) s
  | .reopenConsistency clientID use swap cacheable =>
    Fsconsist.reopenConsistency env p clientID use swap cacheable s
  | .migrateConsistency src dst useFlags closeSrc =>
    Fsconsist.migrateConsistency env p src dst useFlags closeSrc s
  | .getClientAttrs clientID => beginOrWait env p (.scan (.getClientAttrs clientID)) s
  | .clientRemoveCallback clientID => beginOrWait env p (.clientRemoveCallback clientID) s
  | .fetchDirtyBlocks invalidate => beginOrWait env p (.fetchDirtyBlocks invalidate) s

/-- Delivered; the client is down (`RPC_TIMEOUT`, `FS_STALE_HANDLE`); any other error. -/
inductive RpcStatus where
  | success
  | down
  | other
  deriving DecidableEq, Repr

structure Server where
  info : Info := {}
  pc : Pid → Pc := fun _ => .idle
  /-- The calls of `ConsistTimeout` that `ConsistTimeoutIntr` has queued. -/
  timeouts : Nat := 0
  panic : Option Panic := none

/-- What happens next. -/
inductive Label where
  | call (p : Pid) (r : Request)
  | wake (p : Pid)
  | rpcReturn (p : Pid) (status : RpcStatus)
  | relock (p : Pid)
  | repliesIn (p : Pid)
  | close (clientID : HostId) (flags : UseFlags)
  | numClients
  | deleteLastWriter (clientID : HostId)
  | kill (clientID : HostId)
  | ioClientKill (clientID : HostId)
  | consistReply (clientID : HostId) (success : Bool)
  | timeoutIntr
  | consistTimeout
  | reopenClient (clientID : HostId) (use : UseCounts) (haveDirtyBlocks : Bool)
  deriving DecidableEq, Repr

def fileServer : Env := ⟨1, true, true, true⟩

/-- The process whose step it is. -/
def Label.process? : Label → Option Pid
  | .call p _ | .wake p | .rpcReturn p _ | .relock p | .repliesIn p => some p
  | _ => none

namespace Server

/-- Process `p` goes on at `c`, with the state `i`. -/
def put (s : Server) (p : Pid) (i : Info) (c : Pc) : Server :=
  { s with info := i, pc := Function.update s.pc p c }

def stop (s : Server) (e : Panic) : Server := { s with panic := some e }

/-- The state after a stretch of process `p`. -/
def settle (s : Server) (p : Pid) : Stretch → Server
  | .error e => s.stop e
  | .ok (i, c) => s.put p i c

/-- `msgPtr` taken off `msgList` by its address. -/
def dropMsg (ptr : Nat) (i : Info) : Info :=
  { i with msgList := i.msgList.eraseP (fun m => m.ptr == ptr) }

/-- `ClientCommand` after the RPC, up to `LOCK_MONITOR`. -/
def rpcReturn (s : Server) (p : Pid) (f : CallFrame) (msg : ConsistMsgInfo) : RpcStatus → Server
  | .success => s.put p s.info (.relock f)
  | .down => s.put p (kill msg.clientID s.info).2 (.relock f)
  | .other =>
    -- the message is freed whether or not it is still on the list
    if s.info.msgList.any (fun m => m.ptr == msg.ptr) then s.put p (dropMsg msg.ptr s.info) (.relock f)
    else s.stop .danglingPointer

/-- One step; `none` where it cannot be taken. -/
def step (env : Env) (s : Server) (l : Label) : Option Server :=
  if s.panic.isSome then none
  else
    match l with
    | .call p r => if (s.pc p).free then some (s.settle p (r.enter env p s.info)) else none
    | .wake p =>
      match s.pc p with
      | .waitDone a => if s.info.flags.inProgress then none else some (s.settle p (start env p a s.info))
      | _ => none
    | .rpcReturn p status =>
      match s.pc p with
      | .inRpc f msg => some (s.rpcReturn p f msg status)
      | _ => none
    | .relock p =>
      match s.pc p with
      | .relock f => some (s.settle p (resume env p f s.info))
      | _ => none
    | .repliesIn p =>
      match s.pc p with
      | .waitReplies f =>
        if s.info.msgList.isEmpty then some (s.settle p (endWait env p f s.info)) else none
      | _ => none
    | .close clientID flags =>
      match Fsconsist.close clientID flags s.info with
      | .error e => some (s.stop e)
      | .ok (_, _, i) => some { s with info := i }
    | .numClients => some { s with info := (Fsconsist.numClients env s.info).2 }
    | .deleteLastWriter clientID => some { s with info := Fsconsist.deleteLastWriter clientID s.info }
    | .kill clientID => some { s with info := (Fsconsist.kill clientID s.info).2 }
    | .ioClientKill clientID => some { s with info := Fsconsist.ioClientKill clientID s.info }
    | .consistReply clientID success =>
      some { s with info := processConsistReply clientID success s.info }
    | .timeoutIntr =>
      if s.info.flags.timeout then
        some
          { s with
            info := { s.info with flags := { s.info.flags with timeout := false } }
            timeouts := s.timeouts + 1 }
      else none
    | .consistTimeout =>
      if s.timeouts = 0 then none
      else some { s with info := Fsconsist.consistTimeout s.info, timeouts := s.timeouts - 1 }
    | .reopenClient clientID use haveDirtyBlocks =>
      match Fsconsist.reopenClient clientID use haveDirtyBlocks s.info with
      | .error e => some (s.stop e)
      | .ok i => some { s with info := i }

@[simp] theorem put_info (s : Server) (p : Pid) (i : Info) (c : Pc) : (s.put p i c).info = i := rfl

@[simp] theorem put_panic (s : Server) (p : Pid) (i : Info) (c : Pc) : (s.put p i c).panic = s.panic :=
  rfl

@[simp] theorem put_pc_self (s : Server) (p : Pid) (i : Info) (c : Pc) : (s.put p i c).pc p = c := by
  simp [put]

theorem put_pc_of_ne (s : Server) {p q : Pid} (h : q ≠ p) (i : Info) (c : Pc) : (s.put p i c).pc q = s.pc q := by
  simp [put, h]

/-! ## What a step can do -/

/-- A stretch of `p` without a panic: the first of a call, or after one of its waits. -/
inductive Runs (env : Env) (s : Server) (p : Pid) : Label → Stretch → Prop
  | enter (r : Request) (hfree : (s.pc p).free = true) :
    Runs env s p (.call p r) (r.enter env p s.info)
  | wake (a : Action) (hpc : s.pc p = .waitDone a) (hclear : s.info.flags.inProgress = false) :
    Runs env s p (.wake p) (start env p a s.info)
  | relock (f : CallFrame) (hpc : s.pc p = .relock f) :
    Runs env s p (.relock p) (resume env p f s.info)
  | repliesIn (f : EndFrame) (hpc : s.pc p = .waitReplies f) (hempty : s.info.msgList = []) :
    Runs env s p (.repliesIn p) (endWait env p f s.info)

theorem Runs.process {env : Env} {s : Server} {p : Pid} {l : Label} {st : Stretch} (h : Runs env s p l st) :
    l.process? = some p := by
  cases h <;> rfl

/-- What the routines that do not wait leave of the consistency state. -/
inductive Acts (env : Env) (s : Server) : Label → Info → Prop
  | close (clientID : HostId) (flags : UseFlags) (found wasCached : Bool) (i : Info)
    (h : Fsconsist.close clientID flags s.info = .ok (found, wasCached, i)) :
    Acts env s (.close clientID flags) i
  | numClients : Acts env s .numClients (Fsconsist.numClients env s.info).2
  | deleteLastWriter (clientID : HostId) :
    Acts env s (.deleteLastWriter clientID) (Fsconsist.deleteLastWriter clientID s.info)
  | kill (clientID : HostId) : Acts env s (.kill clientID) (Fsconsist.kill clientID s.info).2
  | ioClientKill (clientID : HostId) :
    Acts env s (.ioClientKill clientID) (Fsconsist.ioClientKill clientID s.info)
  | consistReply (clientID : HostId) (success : Bool) :
    Acts env s (.consistReply clientID success) (processConsistReply clientID success s.info)
  | timeoutIntr :
    Acts env s .timeoutIntr { s.info with flags := { s.info.flags with timeout := false } }
  | consistTimeout : Acts env s .consistTimeout (Fsconsist.consistTimeout s.info)
  | reopenClient (clientID : HostId) (use : UseCounts) (haveDirtyBlocks : Bool) (i : Info)
    (h : Fsconsist.reopenClient clientID use haveDirtyBlocks s.info = .ok i) :
    Acts env s (.reopenClient clientID use haveDirtyBlocks) i

/-- What the return of a call-back leaves of the consistency state. -/
inductive Returns (s : Server) (msg : ConsistMsgInfo) : RpcStatus → Info → Prop
  | success : Returns s msg .success s.info
  | down : Returns s msg .down (kill msg.clientID s.info).2
  | other : Returns s msg .other (dropMsg msg.ptr s.info)

theorem close_error {clientID : HostId} {flags : UseFlags} {i : Info} {e : Panic}
    (h : Fsconsist.close clientID flags i = .error e) : e = .badUseCounts := by
  unfold Fsconsist.close ClientList.ioClientClose at h
  grind

theorem reopenClient_error {clientID : HostId} {use : UseCounts} {haveDirtyBlocks : Bool} {i : Info}
    {e : Panic} (h : Fsconsist.reopenClient clientID use haveDirtyBlocks i = .error e) :
    e = .badUseCounts := by
  unfold Fsconsist.reopenClient at h
  grind

/-- The kernel stops: in a stretch, on bad counts in a routine that does not wait, or on a message freed twice. -/
def Stops (env : Env) (s : Server) (l : Label) (e : Panic) : Prop :=
  (∃ p, Runs env s p l (.error e)) ∨ e = .badUseCounts ∨ e = .danglingPointer

/-- A step stops the kernel, is a stretch of a process, the return of its call-back, or a routine that does not wait. -/
theorem step_cases {env : Env} {s t : Server} {l : Label} (h : step env s l = some t) :
    s.panic = none ∧
      ((∃ e, Stops env s l e ∧ t = s.stop e) ∨
        (∃ p i c, Runs env s p l (.ok (i, c)) ∧ t = s.put p i c) ∨
        (∃ p f msg status i, l = .rpcReturn p status ∧ s.pc p = .inRpc f msg ∧
          Returns s msg status i ∧ t = s.put p i (.relock f)) ∨
        ∃ i n, Acts env s l i ∧ t = { s with info := i, timeouts := n }) := by
  have hsettle : ∀ p st, Runs env s p l st → t = s.settle p st →
      (∃ e, Stops env s l e ∧ t = s.stop e) ∨
        (∃ p i c, Runs env s p l (.ok (i, c)) ∧ t = s.put p i c) := by
    intro p st hr ht
    rcases st with e | ⟨i, c⟩
    · exact .inl ⟨e, .inl ⟨p, hr⟩, ht⟩
    · exact .inr ⟨p, i, c, hr, ht⟩
  unfold step at h
  split at h
  · simp at h
  · next hp =>
    refine ⟨by simpa using hp, ?_⟩
    cases l with
    | call p r =>
      simp only [Option.ite_none_right_eq_some, Option.some.injEq] at h
      rcases hsettle p _ (.enter r h.1) h.2.symm with h | h
      · exact .inl h
      · exact .inr (.inl h)
    | wake p =>
      simp only at h
      split at h
      · next a ha =>
        simp only [Option.ite_none_left_eq_some, Option.some.injEq] at h
        rcases hsettle p _ (.wake a ha (by simpa using h.1)) h.2.symm with h | h
        · exact .inl h
        · exact .inr (.inl h)
      · simp at h
    | rpcReturn p status =>
      simp only at h
      split at h
      · next f msg hf =>
        have ht := (Option.some.inj h).symm
        cases status with
        | success => exact .inr (.inr (.inl ⟨p, f, msg, _, _, rfl, hf, .success, ht⟩))
        | down => exact .inr (.inr (.inl ⟨p, f, msg, _, _, rfl, hf, .down, ht⟩))
        | other =>
          simp only [rpcReturn] at ht
          split at ht
          · exact .inr (.inr (.inl ⟨p, f, msg, _, _, rfl, hf, .other, ht⟩))
          · exact .inl ⟨_, .inr (.inr rfl), ht⟩
      · simp at h
    | relock p =>
      simp only at h
      split at h
      · next f hf =>
        rcases hsettle p _ (.relock f hf) (Option.some.inj h).symm with h | h
        · exact .inl h
        · exact .inr (.inl h)
      · simp at h
    | repliesIn p =>
      simp only at h
      split at h
      · next f hf =>
        simp only [Option.ite_none_right_eq_some, Option.some.injEq] at h
        rcases hsettle p _ (.repliesIn f hf (by simpa using h.1)) h.2.symm with h | h
        · exact .inl h
        · exact .inr (.inl h)
      · simp at h
    | close clientID flags =>
      simp only at h
      split at h
      · next hc => exact .inl ⟨_, .inr (.inl (close_error hc)), (Option.some.inj h).symm⟩
      · next hc =>
        exact .inr (.inr (.inr ⟨_, s.timeouts, .close _ _ _ _ _ hc, (Option.some.inj h).symm⟩))
    | numClients =>
      exact .inr (.inr (.inr ⟨_, s.timeouts, .numClients, (Option.some.inj h).symm⟩))
    | deleteLastWriter clientID =>
      exact .inr (.inr (.inr ⟨_, s.timeouts, .deleteLastWriter _, (Option.some.inj h).symm⟩))
    | kill clientID =>
      exact .inr (.inr (.inr ⟨_, s.timeouts, .kill _, (Option.some.inj h).symm⟩))
    | ioClientKill clientID =>
      exact .inr (.inr (.inr ⟨_, s.timeouts, .ioClientKill _, (Option.some.inj h).symm⟩))
    | consistReply clientID success =>
      exact .inr (.inr (.inr ⟨_, s.timeouts, .consistReply _ _, (Option.some.inj h).symm⟩))
    | timeoutIntr =>
      simp only [Option.ite_none_right_eq_some, Option.some.injEq] at h
      exact .inr (.inr (.inr ⟨_, _, .timeoutIntr, h.2.symm⟩))
    | consistTimeout =>
      simp only [Option.ite_none_left_eq_some, Option.some.injEq] at h
      exact .inr (.inr (.inr ⟨_, _, .consistTimeout, h.2.symm⟩))
    | reopenClient clientID use haveDirtyBlocks =>
      simp only at h
      split at h
      · next hc => exact .inl ⟨_, .inr (.inl (reopenClient_error hc)), (Option.some.inj h).symm⟩
      · next hc =>
        exact .inr (.inr (.inr ⟨_, s.timeouts, .reopenClient _ _ _ _ hc, (Option.some.inj h).symm⟩))

end Server

end SpriteKernel.Fsconsist
