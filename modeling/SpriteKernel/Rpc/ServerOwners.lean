import SpriteKernel.Lib.Transition
import SpriteKernel.Lib.Update
import SpriteKernel.Rpc.ServerStep
import SpriteKernel.Rpc.ServerTable

/- Who owns a server's table entry, and for whom it works. `RpcServerAlloc` and `RpcServerInstall` run under
   `serverMutex`, the rest under the server's own mutex; a step is one such section, and in between a packet is in
   flight. While `daemonState` is dead a packet is dropped, which is no step. -/
namespace SpriteKernel.Rpc

open Function List
open Transition

/-- About to be installed, at the top of `Rpc_Server`'s loop, waiting for input, on the way to the service procedure,
    or called. -/
inductive Stage where
  | unborn
  | starting
  | installed (i : Nat)
  | waiting (i : Nat)
  | handed (i : Nat)
  | serving (i : Nat)
  | exited
  deriving DecidableEq

/-- The table entry the process has. -/
def Stage.entry : Stage → Option Nat
  | .installed i => some i
  | .waiting i => some i
  | .handed i => some i
  | .serving i => some i
  | _ => none

/-- What does not change. -/
structure ServerConfig where
  host : Host
  spriteID : Int
  maxServers : Nat
  maxServerAge : Nat
  lastCommand : Int

/-- The processes are numbered as created. `calls` lists the client and the request of each call. -/
structure OwnerSystem where
  table : ServerTable
  procs : Nat → Stage
  numProcs : Nat
  inFlight : List (Nat × Packet)
  shuttingDown : Bool
  calls : List (Int × RpcHdr)

inductive OwnerLabel where
  | create (memory : RpcServerState) (created : Bool)
  | install (pid : Nat)
  | alloc (p : Packet)
  | dispatch (i : Nat) (p : Packet)
  | crash (clientID : Int)
  | reclaim (i : Nat) (serversMaxed : Bool)
  | loopTop (pid : Nat) (noReply : Bool)
  | wake (pid : Nat)
  | call (pid : Nat) (serviceEnabled : Bool)
  | shutDown

def OwnerSystem.initial (memory : Nat → RpcServerState) : OwnerSystem where
  table := ⟨memory, 0⟩
  procs := fun _ => .unborn
  numProcs := 0
  inFlight := []
  shuttingDown := false
  calls := []

/-- The process goes on, with its entry as given. -/
def OwnerSystem.goOn (s : OwnerSystem) (pid i : Nat) (srv : RpcServerState) (stage : Stage) : OwnerSystem :=
  { s with table := s.table.set i srv, procs := update s.procs pid stage }

def OwnerSystem.step (cfg : ServerConfig) (s : OwnerSystem) : OwnerLabel → Option OwnerSystem
  | .create memory created =>
    if s.table.rpcNumServers ≥ cfg.maxServers then none
    else
      some { s with
        table := s.table.create cfg.host cfg.spriteID memory
        procs := if created then update s.procs s.numProcs .starting else s.procs
        numProcs := if created then s.numProcs + 1 else s.numProcs }
  | .install pid =>
    if s.procs pid = .starting then
      match rpcServerInstall s.table with
      | some (i, table) => some { s with table := table, procs := update s.procs pid (.installed i) }
      | none => some { s with procs := update s.procs pid .exited }
    else none
  | .alloc p =>
    match rpcServerAlloc s.table p.hdr with
    | some (i, table) => some { s with table := table, inFlight := (i, p) :: s.inFlight }
    | none => some s
  | .dispatch i p =>
    if (i, p) ∈ s.inFlight then
      some { s with
        table := s.table.set i (rpcServerDispatch (s.table.servers i) p).1
        inFlight := s.inFlight.erase (i, p) }
    else none
  | .crash clientID => some { s with table := rpcCrashCallBack s.table clientID }
  | .reclaim i serversMaxed =>
    if i < s.table.rpcNumServers then
      some { s with table := s.table.set i ((s.table.servers i).reclaim cfg.maxServerAge serversMaxed).1 }
    else none
  | .loopTop pid noReply =>
    match s.procs pid with
    | .installed i => some (s.goOn pid i ((s.table.servers i).loopTop false) (.waiting i))
    | .serving i => some (s.goOn pid i ((s.table.servers i).loopTop noReply) (.waiting i))
    | _ => none
  | .wake pid =>
    match s.procs pid with
    | .waiting i =>
      if s.shuttingDown then some (s.goOn pid i { s.table.servers i with state := srvNotReady } .exited)
      else if (s.table.servers i).state.busy then some (s.goOn pid i (s.table.servers i).handOff (.handed i))
      else some s
    | _ => none
  | .call pid serviceEnabled =>
    match s.procs pid with
    | .handed i =>
      let srv := s.table.servers i
      let command := srv.requestRpcHdr.command
      some { s with
        procs := update s.procs pid (.serving i)
        calls :=
          if serviceEnabled ∧ 0 < command ∧ command ≤ cfg.lastCommand then
            (srv.clientID, srv.requestRpcHdr) :: s.calls
          else s.calls }
    | _ => none
  | .shutDown => some { s with shuttingDown := true }

/-- No owned entry is installed while a packet is in flight to it, nor reassigned while another client's is in flight
    or handed over; one just taken from the free ones is not left so by an acknowledgment. -/
def Careful (s : OwnerSystem) : OwnerLabel → Prop
  | .install _ => ∀ i, s.table.notReady = some i → (∃ pid, (s.procs pid).entry = some i) → ∀ p, (i, p) ∉ s.inFlight
  | .alloc p => ∀ i, s.table.search p.hdr = .reassigned i →
      (∀ q, (i, q) ∈ s.inFlight → q.hdr.clientID = p.hdr.clientID) ∧
      ∀ pid, s.procs pid = .handed i → (s.table.servers i).requestRpcHdr.clientID = p.hdr.clientID
  | .dispatch i p => (s.table.servers i).state.reset = srvNotReady → p.hdr.ID = (s.table.servers i).ID →
      p.hdr.has Flag.ack = true → p.hdr.has Flag.close = true
  | _ => True

/-- What is asked of the table. -/
structure SlotsSound (s : OwnerSystem) : Prop where
  oneOwner : ∀ pid pid' i, (s.procs pid).entry = some i → (s.procs pid').entry = some i → pid = pid'
  oneClient : ∀ c ∈ s.calls, c.1 = c.2.clientID

/-- What holds of a table entry on its own. -/
structure RpcServerState.Ok (srv : RpcServerState) : Prop where
  free : srv.state.free = true → srv.state.busy = false
  noReply : srv.state.noReply = true → srv.state.busy = false
  aging : srv.state.aging = true → srv.state.waiting = true
  client : srv.state.busy = true → srv.requestRpcHdr.clientID = srv.clientID

structure OwnerInv (s : OwnerSystem) : Prop where
  oneOwner : ∀ pid pid' i, (s.procs pid).entry = some i → (s.procs pid').entry = some i → pid = pid'
  made : ∀ pid i, (s.procs pid).entry = some i → i < s.table.rpcNumServers
  taken : ∀ pid i, (s.procs pid).entry = some i → (s.table.servers i).state = srvNotReady →
    ∃ p, (i, p) ∈ s.inFlight
  inFlight : ∀ i p, (i, p) ∈ s.inFlight →
    i < s.table.rpcNumServers ∧ p.hdr.clientID = (s.table.servers i).clientID
  ok : ∀ i < s.table.rpcNumServers, (s.table.servers i).Ok
  handed : ∀ pid i, s.procs pid = .handed i →
    (s.table.servers i).requestRpcHdr.clientID = (s.table.servers i).clientID
  unborn : ∀ pid, s.numProcs ≤ pid → s.procs pid = .unborn
  calls : ∀ c ∈ s.calls, c.1 = c.2.clientID

section table
variable {t : ServerTable} {i j : Nat} {srv : RpcServerState}

@[simp]
theorem servers_set_self : (t.set i srv).servers i = srv := update_self ..

theorem servers_set_of_ne (h : j ≠ i) : (t.set i srv).servers j = t.servers j := update_of_ne h ..

@[simp]
theorem rpcNumServers_set : (t.set i srv).rpcNumServers = t.rpcNumServers := rfl

end table

section invariant
variable {cfg : ServerConfig} {s t : OwnerSystem} {i pid : Nat} {srv : RpcServerState} {p : Packet}

theorem initial_inv_owner (memory : Nat → RpcServerState) : OwnerInv (OwnerSystem.initial memory) where
  oneOwner := fun _ _ _ h => nomatch h
  made := fun _ _ h => nomatch h
  taken := fun _ _ h => nomatch h
  inFlight := fun _ _ h => absurd h not_mem_nil
  ok := fun _ h => absurd h (Nat.not_lt_zero _)
  handed := fun _ _ h => nomatch h
  unborn := fun _ _ => rfl
  calls := fun _ h => absurd h not_mem_nil

/-- One entry changes; what must be known of it, of what is in flight to it and of the
    processes. -/
structure EntryStep (s t : OwnerSystem) (i : Nat) (srv : RpcServerState) : Prop where
  table : t.table = s.table.set i srv
  numProcs : t.numProcs = s.numProcs
  calls : t.calls = s.calls
  ok : srv.Ok
  entry : ∀ pid j, (t.procs pid).entry = some j → (s.procs pid).entry = some j
  unborn : ∀ pid, s.procs pid = .unborn → t.procs pid = .unborn
  inFlight : ∀ q, (i, q) ∈ t.inFlight → i < s.table.rpcNumServers ∧ q.hdr.clientID = srv.clientID
  inFlight_of_ne : ∀ j q, j ≠ i → ((j, q) ∈ t.inFlight ↔ (j, q) ∈ s.inFlight)
  taken : ∀ pid, (t.procs pid).entry = some i → srv.state = srvNotReady → ∃ q, (i, q) ∈ t.inFlight
  handed : ∀ pid, t.procs pid = .handed i → srv.requestRpcHdr.clientID = srv.clientID
  handed_of_ne : ∀ pid j, j ≠ i → t.procs pid = .handed j → s.procs pid = .handed j

theorem inv_of_entryStep (h : OwnerInv s) (hs : EntryStep s t i srv) : OwnerInv t := by
  have hnum : t.table.rpcNumServers = s.table.rpcNumServers := by rw [hs.table, rpcNumServers_set]
  have hself : t.table.servers i = srv := by rw [hs.table, servers_set_self]
  have hother (j : Nat) (hj : j ≠ i) : t.table.servers j = s.table.servers j := by
    rw [hs.table, servers_set_of_ne hj]
  constructor
  case oneOwner => exact fun a b j ha hb => h.oneOwner a b j (hs.entry a j ha) (hs.entry b j hb)
  case made => exact fun a j ha => hnum ▸ h.made a j (hs.entry a j ha)
  case taken =>
    intro a j ha hzero
    by_cases hj : j = i
    · subst hj
      exact hs.taken a ha (hself ▸ hzero)
    · rw [hother j hj] at hzero
      obtain ⟨q, hq⟩ := h.taken a j (hs.entry a j ha) hzero
      exact ⟨q, (hs.inFlight_of_ne j q hj).mpr hq⟩
  case inFlight =>
    intro j q hq
    by_cases hj : j = i
    · subst hj
      rw [hnum, hself]
      exact hs.inFlight q hq
    · rw [hnum, hother j hj]
      exact h.inFlight j q ((hs.inFlight_of_ne j q hj).mp hq)
  case ok =>
    intro j hlt
    by_cases hj : j = i
    · rw [hj, hself]
      exact hs.ok
    · rw [hother j hj]
      exact h.ok j (hnum ▸ hlt)
  case handed =>
    intro a j ha
    by_cases hj : j = i
    · subst hj
      rw [hself]
      exact hs.handed a ha
    · rw [hother j hj]
      exact h.handed a j (hs.handed_of_ne a j hj ha)
  case unborn => exact fun a ha => hs.unborn a (h.unborn a (hs.numProcs ▸ ha))
  case calls => exact hs.calls ▸ h.calls

/-! A packet is dispatched. -/

variable {srv' : RpcServerState}

section
variable (h : Dispatched srv p srv')
include h

theorem requestRpcHdr_of_dispatched :
    srv'.requestRpcHdr = srv.requestRpcHdr ∨ srv'.requestRpcHdr = p.hdr := by
  have hkeeps (h : srv.Keeps srv') : srv'.requestRpcHdr = srv.requestRpcHdr := congrArg Buffers.rpcHdr h.request
  have htakes {a b : Int} (h : srv.Takes p a b srv') : srv'.requestRpcHdr = p.hdr := congrArg Buffers.rpcHdr h.request
  cases h with
  | stuck _ _ _ h => exact .inl (hkeeps h)
  | whole _ _ _ _ _ _ h => exact .inr (htakes h)
  | first _ _ _ _ _ _ h => exact .inr (htakes h)
  | discard _ _ _ h => exact .inl (hkeeps h)
  | closed _ _ _ _ _ h => exact .inl (hkeeps h)
  | acked _ _ _ _ _ h => exact .inl (hkeeps h)
  | again _ _ _ _ _ h => exact .inl (hkeeps h)
  | more _ _ _ _ _ _ _ _ _ h => exact .inr (htakes h)
  | reset _ _ _ _ h => exact .inl (hkeeps h)

/-- A server that works for the packet's client still does. -/
theorem client_of_dispatched (hp : p.hdr.clientID = srv.clientID)
    (hclient : srv.requestRpcHdr.clientID = srv.clientID) : srv'.requestRpcHdr.clientID = srv'.clientID := by
  rw [h.client.1]
  obtain heq | heq := requestRpcHdr_of_dispatched h
  · rw [heq, hclient]
  · rw [heq, hp]

theorem ready_of_dispatched
    (hcareful : srv.state.reset = srvNotReady → p.hdr.ID = srv.ID → p.hdr.has Flag.ack = true →
      p.hdr.has Flag.close = true) : srv'.state ≠ srvNotReady := by
  intro hzero
  cases h with
  | stuck _ _ hstate =>
    rw [hstate] at hzero
    have hstuck : true = false := congrArg SrvState.stuck hzero
    cases hstuck
  | whole _ _ _ hstate =>
    rw [hstate] at hzero
    exact absurd hzero (by decide)
  | first _ _ _ hstate =>
    rw [hstate] at hzero
    exact absurd hzero (by decide)
  | discard _ _ hstate =>
    rw [hstate] at hzero
    have hfree : true = false := congrArg SrvState.free hzero
    cases hfree
  | closed _ _ _ _ hstate =>
    rw [hstate] at hzero
    exact absurd hzero (by decide)
  | acked hID _ hack hclose hstate =>
    rw [hstate] at hzero
    rw [hcareful hzero hID hack] at hclose
    exact absurd hclose (by decide)
  | again _ _ _ hknown hstate =>
    rw [← hstate, hzero] at hknown
    exact absurd hknown (by decide)
  | more _ _ _ _ _ _ _ _ hstate =>
    rw [hstate] at hzero
    split at hzero
    · exact absurd hzero (by decide)
    · exact absurd hzero (by decide)
  | reset _ _ _ hstate =>
    rw [hstate] at hzero
    exact absurd hzero (by decide)

end

theorem flags_of_known : ∀ x ∈ [srvFree, srvFragment, srvBusy, srvWaiting],
    (x.free = true → x.busy = false) ∧ (x.noReply = true → x.busy = false) ∧ (x.aging = true → x.waiting = true) ∧
      (x.busy = true → x = srvBusy) := by decide

theorem ok_of_state (h : srv'.state ∈ [srvFree, srvFragment, srvBusy, srvWaiting])
    (hclient : srv'.state = srvBusy → srv'.requestRpcHdr.clientID = srv'.clientID) : srv'.Ok := by
  obtain ⟨hfree, hno, haging, hbusy⟩ := flags_of_known srv'.state h
  exact ⟨hfree, hno, haging, fun hb => hclient (hbusy hb)⟩

theorem ok_of_dispatched (h : Dispatched srv p srv') (hok : srv.Ok) (hp : p.hdr.clientID = srv.clientID) : srv'.Ok := by
  have hkeeps (h : srv.Keeps srv') (hb : srv.state.busy = true) : srv'.requestRpcHdr.clientID = srv'.clientID := by
    have hreq : srv'.requestRpcHdr = srv.requestRpcHdr := congrArg Buffers.rpcHdr h.request
    rw [hreq, h.clientID]
    exact hok.client hb
  have htakes {a b : Int} (h : srv.Takes p a b srv') : srv'.requestRpcHdr.clientID = srv'.clientID := by
    have hreq : srv'.requestRpcHdr = p.hdr := congrArg Buffers.rpcHdr h.request
    rw [hreq, h.clientID, hp]
  cases h with
  | stuck _ hbusy hstate h =>
    refine ⟨fun hf => ?_, fun hn => ?_, fun ha => ?_, fun _ => hkeeps h hbusy⟩
    · rw [hstate] at hf
      exact absurd hbusy (by simp [hok.free hf])
    · rw [hstate] at hn
      exact absurd hbusy (by simp [hok.noReply hn])
    · rw [hstate] at ha
      cases ha
  | whole _ _ _ hstate _ _ h => exact ok_of_state (by simp [hstate]) (fun _ => htakes h)
  | first _ _ _ hstate _ _ h => exact ok_of_state (by simp [hstate]) (fun _ => htakes h)
  | discard _ hno hstate h =>
    have hidle := hok.noReply hno
    refine ⟨fun _ => ?_, fun _ => ?_, fun ha => ?_, fun hb => ?_⟩
    · rw [hstate]
      exact hidle
    · rw [hstate]
      exact hidle
    · rw [hstate] at ha
      cases ha
    · rw [hstate] at hb
      exact absurd hb (by simp [SrvState.reset, hidle])
  | closed _ _ _ _ hstate h =>
    exact ok_of_state (by simp [hstate]) (fun hb => absurd hb (by rw [hstate]; decide))
  | acked _ _ _ _ hstate h =>
    refine ⟨fun hf => ?_, fun hn => ?_, fun ha => ?_, fun hb => ?_⟩
    · rw [hstate] at hf ⊢
      exact hok.free hf
    · rw [hstate] at hn ⊢
      exact hok.noReply hn
    · rw [hstate] at ha
      cases ha
    · rw [hstate] at hb
      exact hkeeps h hb
  | again _ _ _ hknown hstate h =>
    refine ok_of_state (hstate ▸ hknown) (fun hb => hkeeps h ?_)
    have hbusy : srv.state.reset.busy = true := by rw [← hstate, hb]; rfl
    exact hbusy
  | more _ _ _ _ _ _ _ _ hstate h =>
    refine ok_of_state ?_ (fun _ => htakes h)
    rw [hstate]
    split
    · simp
    · simp
  | reset _ _ _ hstate h =>
    exact ok_of_state (by simp [hstate]) (fun hb => absurd hb (by rw [hstate]; decide))

theorem mem_erase_of_entry_ne {l : List (Nat × Packet)} {j : Nat} {q : Packet} (hj : j ≠ i) :
    (j, q) ∈ l.erase (i, p) ↔ (j, q) ∈ l :=
  mem_erase_of_ne (fun heq => hj (congrArg Prod.fst heq))

theorem inv_of_owner_dispatch (h : OwnerInv s) (hcareful : Careful s (.dispatch i p))
    (hs : s.step cfg (.dispatch i p) = some t) : OwnerInv t := by
  obtain ⟨hmem, he⟩ := Option.ite_none_right_eq_some.1 hs
  obtain ⟨hlt, hp⟩ := h.inFlight i p hmem
  have hd := dispatched (s.table.servers i) p
  cases he
  refine inv_of_entryStep (i := i) h ⟨rfl, rfl, rfl, ok_of_dispatched hd (h.ok i hlt) hp, fun _ _ ha => ha, fun _ ha => ha,
    fun q hq => ⟨hlt, ?_⟩, fun j q hj => mem_erase_of_entry_ne hj,
    fun _ _ hzero => absurd hzero (ready_of_dispatched hd hcareful),
    fun a ha => client_of_dispatched hd hp (h.handed a i ha), fun _ _ _ ha => ha⟩
  rw [hd.client.1]
  exact (h.inFlight i q (mem_of_mem_erase hq)).2

/-! A packet is allocated to a server. -/

theorem ok_clearFree (h : srv.Ok) : srv.clearFree.Ok :=
  ⟨nofun, h.noReply, h.aging, h.client⟩

theorem inv_of_bound (h : OwnerInv s) (hlt : i < s.table.rpcNumServers)
    (hclient : (s.table.servers i).clientID = p.hdr.clientID) :
    OwnerInv { s with table := s.table.set i (s.table.servers i).clearFree, inFlight := (i, p) :: s.inFlight } := by
  refine inv_of_entryStep (i := i) h ⟨rfl, rfl, rfl, ok_clearFree (h.ok i hlt), fun _ _ ha => ha, fun _ ha => ha,
    fun q hq => ⟨hlt, ?_⟩, fun j q hj => ?_, fun _ _ _ => ⟨p, mem_cons_self⟩, fun a ha => h.handed a i ha,
    fun _ _ _ ha => ha⟩
  · obtain heq | hq := mem_cons.mp hq
    · cases heq
      exact hclient.symm
    · exact (h.inFlight i q hq).2
  · refine mem_cons.trans (or_iff_right ?_)
    exact fun heq => hj (congrArg Prod.fst heq)

theorem inv_of_reassigned (h : OwnerInv s) (hlt : i < s.table.rpcNumServers) (hfree : (s.table.servers i).Available)
    (hflight : ∀ q, (i, q) ∈ s.inFlight → q.hdr.clientID = p.hdr.clientID)
    (hhanded : ∀ pid, s.procs pid = .handed i → (s.table.servers i).requestRpcHdr.clientID = p.hdr.clientID) :
    OwnerInv { s with table := s.table.set i ((s.table.servers i).reassign p.hdr), inFlight := (i, p) :: s.inFlight } := by
  have hok := h.ok i hlt
  have hidle := hok.free hfree.2
  have hok' : ((s.table.servers i).reassign p.hdr).Ok :=
    ⟨nofun, hok.noReply, hok.aging, fun hb => absurd (hidle.symm.trans hb) Bool.false_ne_true⟩
  refine inv_of_entryStep (i := i) h ⟨rfl, rfl, rfl, hok', fun _ _ ha => ha, fun _ ha => ha,
    fun q hq => ⟨hlt, ?_⟩, fun j q hj => ?_, fun _ _ _ => ⟨p, mem_cons_self⟩, hhanded, fun _ _ _ ha => ha⟩
  · obtain heq | hq := mem_cons.mp hq
    · cases heq
      rfl
    · exact hflight q hq
  · refine mem_cons.trans (or_iff_right ?_)
    exact fun heq => hj (congrArg Prod.fst heq)

theorem inv_of_alloc (h : OwnerInv s) (hcareful : Careful s (.alloc p)) (hs : s.step cfg (.alloc p) = some t) :
    OwnerInv t := by
  rw [OwnerSystem.step, rpcServerAlloc] at hs
  obtain ⟨i, hi, hlt, hmatch⟩ | ⟨i, hi, hlt, hfree⟩ | hnone := search_cases s.table p.hdr
  · rw [hi] at hs
    cases hs
    exact inv_of_bound h hlt hmatch.2.1
  · rw [hi] at hs
    cases hs
    exact inv_of_reassigned h hlt hfree (hcareful i hi).1 (hcareful i hi).2
  · rw [hnone] at hs
    cases hs
    exact h

/-! The processes. -/

theorem inv_of_goOn {stage stage' : Stage} (h : OwnerInv s) (hstage : s.procs pid = stage)
    (hentry : stage.entry = some i) (hentry' : stage'.entry = some i ∨ stage'.entry = none) (hok : srv.Ok)
    (hclient : srv.clientID = (s.table.servers i).clientID)
    (hreq : srv.requestRpcHdr = (s.table.servers i).requestRpcHdr)
    (hzero : stage'.entry = some i → srv.state ≠ srvNotReady)
    (hhanded : stage' = .handed i → srv.requestRpcHdr.clientID = srv.clientID) :
    OwnerInv (s.goOn pid i srv stage') := by
  have hpid : (s.procs pid).entry = some i := by rw [hstage, hentry]
  have hkept (a j : Nat) (ha : (update s.procs pid stage' a).entry = some j) :
      (s.procs a).entry = some j := by
    obtain ⟨rfl, hnew⟩ | ⟨-, hold⟩ := update_cases (P := (Stage.entry · = some j)) ha
    · obtain he | he := hentry'
      · rw [hpid, ← he, hnew]
      · cases he.symm.trans hnew
    · exact hold
  refine inv_of_entryStep (i := i) h ⟨rfl, rfl, rfl, hok, hkept, fun a ha => ?_, fun q hq => ?_, fun _ _ _ => Iff.rfl,
    fun a ha hz => ?_, fun a ha => ?_, fun a j hj ha => ?_⟩
  · have hap : a ≠ pid := by
      rintro rfl
      rw [ha] at hpid
      cases hpid
    show update s.procs pid stage' a = .unborn
    rw [update_of_ne hap, ha]
  · rw [hclient]
    exact h.inFlight i q hq
  · have hap : a = pid := h.oneOwner a pid i (hkept a i ha) hpid
    subst hap
    have hself : (update s.procs a stage' a).entry = some i := ha
    rw [update_self] at hself
    exact absurd hz (hzero hself)
  · obtain ⟨-, hself⟩ | ⟨-, hold⟩ := of_update ha
    · exact hhanded hself
    · rw [hreq, hclient]
      exact h.handed a i hold
  · refine (of_update_ne ha ?_).2
    rintro rfl
    exact hentry'.elim (fun he => hj (Option.some.inj he)) nofun

theorem ok_loopTop (noReply : Bool) : (srv.loopTop noReply).Ok :=
  ⟨fun _ => rfl, fun _ => rfl, fun _ => rfl, nofun⟩

theorem loopTop_ne (noReply : Bool) : (srv.loopTop noReply).state ≠ srvNotReady := by
  intro hz
  have hwaiting : true = false := congrArg SrvState.waiting hz
  cases hwaiting

theorem inv_of_loopTop {noReply : Bool} (h : OwnerInv s) (hs : s.step cfg (.loopTop pid noReply) = some t) :
    OwnerInv t := by
  rw [OwnerSystem.step] at hs
  cases hstage : s.procs pid with
  | installed i =>
    rw [hstage] at hs
    cases hs
    exact inv_of_goOn h hstage rfl (.inl rfl) (ok_loopTop false) rfl rfl
      (fun _ => loopTop_ne false) nofun
  | serving i =>
    rw [hstage] at hs
    cases hs
    exact inv_of_goOn h hstage rfl (.inl rfl) (ok_loopTop noReply) rfl rfl
      (fun _ => loopTop_ne noReply) nofun
  | unborn => rw [hstage] at hs; cases hs
  | starting => rw [hstage] at hs; cases hs
  | waiting i => rw [hstage] at hs; cases hs
  | handed i => rw [hstage] at hs; cases hs
  | exited => rw [hstage] at hs; cases hs

theorem ok_notReady (srv : RpcServerState) : { srv with state := srvNotReady }.Ok :=
  ⟨nofun, nofun, nofun, nofun⟩

theorem ok_handOff (h : srv.Ok) : srv.handOff.Ok :=
  ⟨h.free, nofun, h.aging, h.client⟩

theorem inv_of_wake (h : OwnerInv s) (hs : s.step cfg (.wake pid) = some t) : OwnerInv t := by
  rw [OwnerSystem.step] at hs
  cases hstage : s.procs pid with
  | waiting i =>
    have hok := h.ok i (h.made pid i (by rw [hstage]; rfl))
    rw [hstage] at hs
    dsimp only at hs
    split at hs
    · cases hs
      exact inv_of_goOn h hstage rfl (.inr rfl) (ok_notReady _) rfl rfl nofun nofun
    · split at hs
      · rename_i hbusy
        cases hs
        refine inv_of_goOn h hstage rfl (.inl rfl) (ok_handOff hok) rfl rfl (fun _ hz => ?_) (fun _ => hok.client hbusy)
        have hidle : (s.table.servers i).state.busy = false := congrArg SrvState.busy hz
        rw [hidle] at hbusy
        cases hbusy
      · cases hs
        exact h
  | unborn => rw [hstage] at hs; cases hs
  | starting => rw [hstage] at hs; cases hs
  | installed i => rw [hstage] at hs; cases hs
  | handed i => rw [hstage] at hs; cases hs
  | serving i => rw [hstage] at hs; cases hs
  | exited => rw [hstage] at hs; cases hs

theorem ok_reclaim (h : srv.Ok) (age : Nat) (serversMaxed : Bool) : (srv.reclaim age serversMaxed).1.Ok := by
  rw [RpcServerState.reclaim]
  split
  · rename_i hwait
    split
    · exact ⟨fun _ => rfl, fun _ => rfl, nofun, nofun⟩
    split
    · exact ⟨h.free, h.noReply, fun _ => hwait.2, h.client⟩
    split
    · exact ⟨fun _ => rfl, fun _ => rfl, nofun, nofun⟩
    · exact ⟨h.free, h.noReply, h.aging, h.client⟩
  · exact h

theorem reclaim_keeps (srv : RpcServerState) (age : Nat) (serversMaxed : Bool) :
    (srv.reclaim age serversMaxed).1.clientID = srv.clientID ∧
      (srv.reclaim age serversMaxed).1.requestRpcHdr = srv.requestRpcHdr ∧
      ((srv.reclaim age serversMaxed).1.state = srvNotReady → srv.state = srvNotReady) := by
  rw [RpcServerState.reclaim]
  split
  · split
    · exact ⟨rfl, rfl, nofun⟩
    split
    · exact ⟨rfl, rfl, fun hz => nomatch congrArg SrvState.aging hz⟩
    split
    · exact ⟨rfl, rfl, nofun⟩
    · exact ⟨rfl, rfl, id⟩
  · exact ⟨rfl, rfl, id⟩

section
variable (h : OwnerInv s)
include h

theorem inv_of_reclaim {serversMaxed : Bool} (hs : s.step cfg (.reclaim i serversMaxed) = some t) : OwnerInv t := by
  obtain ⟨hlt, he⟩ := Option.ite_none_right_eq_some.1 hs
  obtain ⟨hclient, hreq, hzero⟩ := reclaim_keeps (s.table.servers i) cfg.maxServerAge serversMaxed
  cases he
  refine inv_of_entryStep (i := i) h ⟨rfl, rfl, rfl, ok_reclaim (h.ok i hlt) _ _, fun _ _ ha => ha, fun _ ha => ha,
    fun q hq => ?_, fun _ _ _ => Iff.rfl, fun a ha hz => h.taken a i ha (hzero hz), fun a ha => ?_, fun _ _ _ ha => ha⟩
  · rw [hclient]
    exact h.inFlight i q hq
  · rw [hreq, hclient]
    exact h.handed a i ha

theorem inv_of_install (hcareful : Careful s (.install pid))
    (hs : s.step cfg (.install pid) = some t) : OwnerInv t := by
  obtain ⟨hstart, he⟩ := Option.ite_none_right_eq_some.1 hs
  rw [rpcServerInstall] at he
  cases hfound : s.table.notReady with
  | none =>
    rw [hfound] at he
    cases he
    have hkept (a j : Nat) (ha : (update s.procs pid .exited a).entry = some j) : (s.procs a).entry = some j :=
      (update_cases (P := (Stage.entry · = some j)) ha).elim nofun And.right
    refine ⟨fun a b j ha hb => h.oneOwner a b j (hkept a j ha) (hkept b j hb), fun a j ha => h.made a j (hkept a j ha),
      fun a j ha => h.taken a j (hkept a j ha), h.inFlight, h.ok, fun a j ha => ?_, fun a ha => ?_, h.calls⟩
    · exact h.handed a j (of_update_ne ha nofun).2
    · have hap : a ≠ pid := by
        rintro rfl
        rw [h.unborn a ha] at hstart
        cases hstart
      show update s.procs pid .exited a = .unborn
      rw [update_of_ne hap]
      exact h.unborn a ha
  | some i =>
    rw [hfound] at he
    cases he
    obtain ⟨hlt, hzero⟩ := notReady_some hfound
    -- no process has the entry: a packet would be in flight to it
    have hnobody (a : Nat) : (s.procs a).entry ≠ some i := by
      intro ha
      obtain ⟨q, hq⟩ := h.taken a i ha hzero
      exact hcareful i hfound ⟨a, ha⟩ q hq
    have hother (a j : Nat) (ha : (update s.procs pid (.installed i) a).entry = some j) :
        a = pid ∧ j = i ∨ a ≠ pid ∧ j ≠ i ∧ (s.procs a).entry = some j := by
      obtain ⟨hap, hnew⟩ | ⟨hap, hold⟩ := update_cases (P := (Stage.entry · = some j)) ha
      · exact .inl ⟨hap, (Option.some.inj hnew).symm⟩
      · refine .inr ⟨hap, ?_, hold⟩
        rintro rfl
        exact hnobody a hold
    have hok : { s.table.servers i with state := srvFree }.Ok := ⟨fun _ => rfl, nofun, nofun, nofun⟩
    have hserver (j : Nat) (hj : j ≠ i) :
        (s.table.set i { s.table.servers i with state := srvFree }).servers j = s.table.servers j :=
      servers_set_of_ne hj
    refine ⟨fun a b j ha hb => ?_, fun a j ha => ?_, fun a j ha hz => ?_, fun j q hq => ?_, fun j hj => ?_,
      fun a j ha => ?_, fun a ha => ?_, h.calls⟩
    · obtain ⟨rfl, hj⟩ | ⟨hap, hj, ha⟩ := hother a j ha
      · obtain ⟨rfl, -⟩ | ⟨-, hj', -⟩ := hother b j hb
        · rfl
        · exact absurd hj hj'
      · obtain ⟨-, hj'⟩ | ⟨-, -, hb⟩ := hother b j hb
        · exact absurd hj' hj
        · exact h.oneOwner a b j ha hb
    · obtain ⟨-, rfl⟩ | ⟨-, -, ha⟩ := hother a j ha
      · exact hlt
      · exact h.made a j ha
    · obtain ⟨-, rfl⟩ | ⟨-, hj, ha⟩ := hother a j ha
      · rw [servers_set_self] at hz
        nomatch hz
      · rw [hserver j hj] at hz
        exact h.taken a j ha hz
    · obtain ⟨hjlt, hclient⟩ := h.inFlight j q hq
      refine ⟨hjlt, ?_⟩
      by_cases hj : j = i
      · subst hj
        rw [servers_set_self]
        exact hclient
      · rw [hserver j hj]
        exact hclient
    · by_cases hji : j = i
      · subst hji
        rw [servers_set_self]
        exact hok
      · rw [hserver j hji]
        exact h.ok j hj
    · have hold : update s.procs pid (.installed i) a = .handed j := ha
      obtain ⟨rfl, -⟩ | ⟨-, hj, -⟩ := hother a j (congrArg Stage.entry hold)
      · exact absurd rfl (of_update_ne hold nofun).1
      · rw [hserver j hj]
        exact h.handed a j (of_update_ne hold nofun).2
    · have hap : a ≠ pid := by
        rintro rfl
        rw [h.unborn a ha] at hstart
        cases hstart
      show update s.procs pid (.installed i) a = .unborn
      rw [update_of_ne hap]
      exact h.unborn a ha

theorem inv_of_create {memory : RpcServerState} {created : Bool}
    (hs : s.step cfg (.create memory created) = some t) : OwnerInv t := by
  obtain ⟨-, he⟩ := Option.ite_none_left_eq_some.1 hs
  cases he
  have hfresh : (rpcInitServerState cfg.host cfg.spriteID memory s.table.rpcNumServers).Ok := ⟨nofun, nofun, nofun, nofun⟩
  have hold (j : Nat) (hj : j < s.table.rpcNumServers) :
      (s.table.create cfg.host cfg.spriteID memory).servers j = s.table.servers j :=
    update_of_ne (Nat.ne_of_lt hj) ..
  have hprocs (a : Nat) (x : Stage) (hx : x ≠ .starting)
      (ha : (if created = true then update s.procs s.numProcs .starting else s.procs) a = x) :
      s.procs a = x := by
    split at ha
    · exact (of_update_ne ha hx.symm).2
    · exact ha
  have hentry (a j : Nat) (ha : ((if created = true then update s.procs s.numProcs .starting else s.procs) a).entry =
      some j) : (s.procs a).entry = some j := by
    rw [hprocs a _ _ rfl]
    · exact ha
    · intro hstart
      rw [hstart] at ha
      cases ha
  refine ⟨fun a b j ha hb => h.oneOwner a b j (hentry a j ha) (hentry b j hb),
    fun a j ha => Nat.lt_succ_of_lt (h.made a j (hentry a j ha)), fun a j ha hz => ?_, fun j q hq => ?_, fun j hj => ?_,
    fun a j ha => ?_, fun a ha => ?_, h.calls⟩
  · rw [hold j (h.made a j (hentry a j ha))] at hz
    exact h.taken a j (hentry a j ha) hz
  · obtain ⟨hlt, hclient⟩ := h.inFlight j q hq
    refine ⟨Nat.lt_succ_of_lt hlt, ?_⟩
    rw [hold j hlt]
    exact hclient
  · obtain hlt | rfl := Nat.lt_succ_iff_lt_or_eq.mp hj
    · rw [hold j hlt]
      exact h.ok j hlt
    · have hself : (s.table.create cfg.host cfg.spriteID memory).servers s.table.rpcNumServers =
          rpcInitServerState cfg.host cfg.spriteID memory s.table.rpcNumServers := update_self ..
      rw [hself]
      exact hfresh
  · have ha' := hprocs a (.handed j) nofun ha
    rw [hold j (h.made a j (by rw [ha']; rfl))]
    exact h.handed a j ha'
  · show (if created = true then update s.procs s.numProcs .starting else s.procs) a = .unborn
    have hle : (if created = true then s.numProcs + 1 else s.numProcs) ≤ a := ha
    split
    · rename_i hc
      rw [if_pos hc] at hle
      rw [update_of_ne (by omega)]
      exact h.unborn a (by omega)
    · rename_i hc
      rw [if_neg hc] at hle
      exact h.unborn a hle

theorem inv_of_crash {clientID : Int} (hs : s.step cfg (.crash clientID) = some t) : OwnerInv t := by
  cases hs
  have hcases (j : Nat) : (rpcCrashCallBack s.table clientID).servers j = s.table.servers j ∨
      (s.table.servers j).state.busy = true ∧ (rpcCrashCallBack s.table clientID).servers j =
        { s.table.servers j with state := { (s.table.servers j).state with stuck := true } } := by
    rw [rpcCrashCallBack]
    dsimp only
    split
    · rename_i hb
      exact .inr ⟨hb.2.1, rfl⟩
    · exact .inl rfl
  have hclient (j : Nat) : ((rpcCrashCallBack s.table clientID).servers j).clientID = (s.table.servers j).clientID ∧
      ((rpcCrashCallBack s.table clientID).servers j).requestRpcHdr = (s.table.servers j).requestRpcHdr := by
    obtain heq | ⟨-, heq⟩ := hcases j
    · rw [heq]
      exact ⟨rfl, rfl⟩
    · rw [heq]
      exact ⟨rfl, rfl⟩
  refine ⟨h.oneOwner, h.made, fun a j ha hz => ?_, fun j q hq => ?_, fun j hj => ?_, fun a j ha => ?_, h.unborn, h.calls⟩
  · obtain heq | ⟨-, heq⟩ := hcases j
    · rw [heq] at hz
      exact h.taken a j ha hz
    · rw [heq] at hz
      have hstuck : true = false := congrArg SrvState.stuck hz
      cases hstuck
  · rw [(hclient j).1]
    exact h.inFlight j q hq
  · have hok := h.ok j hj
    obtain heq | ⟨-, heq⟩ := hcases j
    · rw [heq]
      exact hok
    · rw [heq]
      exact ⟨hok.free, hok.noReply, hok.aging, hok.client⟩
  · rw [(hclient j).1, (hclient j).2]
    exact h.handed a j ha

/-- The service procedure is called for the client that the request is from. -/
theorem inv_of_call {serviceEnabled : Bool} (hs : s.step cfg (.call pid serviceEnabled) = some t) : OwnerInv t := by
  rw [OwnerSystem.step] at hs
  cases hstage : s.procs pid with
  | handed i =>
    rw [hstage] at hs
    cases hs
    have hkept (a : Nat) : (update s.procs pid (.serving i) a).entry = (s.procs a).entry :=
      update_same (g := Stage.entry) (by rw [hstage]; rfl) a
    refine ⟨fun a b j ha hb => h.oneOwner a b j (hkept a ▸ ha) (hkept b ▸ hb), fun a j ha => h.made a j (hkept a ▸ ha),
      fun a j ha => h.taken a j (hkept a ▸ ha), h.inFlight, h.ok, fun a j ha => ?_, fun a ha => ?_, fun c hc => ?_⟩
    · exact h.handed a j (of_update_ne ha nofun).2
    · have hap : a ≠ pid := by
        rintro rfl
        rw [h.unborn a ha] at hstage
        cases hstage
      show update s.procs pid (.serving i) a = .unborn
      rw [update_of_ne hap]
      exact h.unborn a ha
    · split at hc
      · obtain rfl | hc := mem_cons.mp hc
        · exact (h.handed pid i hstage).symm
        · exact h.calls c hc
      · exact h.calls c hc
  | unborn => rw [hstage] at hs; cases hs
  | starting => rw [hstage] at hs; cases hs
  | installed i => rw [hstage] at hs; cases hs
  | waiting i => rw [hstage] at hs; cases hs
  | serving i => rw [hstage] at hs; cases hs
  | exited => rw [hstage] at hs; cases hs

theorem inv_of_owner_step {l : OwnerLabel} (hcareful : Careful s l) (hs : s.step cfg l = some t) : OwnerInv t := by
  cases l with
  | create memory created => exact inv_of_create h hs
  | install pid => exact inv_of_install h hcareful hs
  | alloc p => exact inv_of_alloc h hcareful hs
  | dispatch i p => exact inv_of_owner_dispatch h hcareful hs
  | crash clientID => exact inv_of_crash h hs
  | reclaim i serversMaxed => exact inv_of_reclaim h hs
  | loopTop pid noReply => exact inv_of_loopTop h hs
  | wake pid => exact inv_of_wake h hs
  | call pid serviceEnabled => exact inv_of_call h hs
  | shutDown =>
    cases hs
    exact ⟨h.oneOwner, h.made, h.taken, h.inFlight, h.ok, h.handed, h.unborn, h.calls⟩

end

end invariant

/-- **One owner and one client an entry**, in every run of careful steps. -/
theorem slots_sound (cfg : ServerConfig) (memory : Nat → RpcServerState) {s : OwnerSystem}
    (hrun : Run (OwnerSystem.step cfg) Careful (OwnerSystem.initial memory) s) : SlotsSound s :=
  have h : OwnerInv s := hrun.invariant (fun _ _ _ h hc hs => inv_of_owner_step h hc hs) (initial_inv_owner memory)
  ⟨h.oneOwner, h.calls⟩

/-- A request that fits one packet and has nothing in it. -/
def plainRequest (clientID : Int) (ID : Nat) : Packet where
  hdr :=
    { version := 0x0f0e0003
      flags := Flag.request ||| Flag.server
      clientID := clientID
      serverID := 1
      channel := 0
      serverHint := 0
      bootID := 100
      ID := ID
      delay := 0
      numFrags := 0
      fragMask := 0
      command := 9
      paramSize := 0
      dataSize := 0
      paramOffset := 0
      dataOffset := 0 }
  body := []

/-- What memory holds before a server is made in it. -/
def blankServer : RpcServerState where
  index := 0
  ID := 0
  state := srvNotReady
  age := 0
  clientID := 0
  channel := 0
  fragsDelivered := 0
  fragsReceived := 0
  request := ⟨(plainRequest 0 0).hdr, 0, fun _ => 0, 0, fun _ => 0⟩
  replyRpcHdr := (plainRequest 0 0).hdr
  reply := ⟨fun _ => 0, 0, fun _ => 0, 0⟩
  actualDataSize := 0
  actualParamSize := 0

def smallConfig : ServerConfig where
  host := ⟨true, false, false, 0x0f0e0003, 0⟩
  spriteID := 1
  maxServers := 50
  maxServerAge := 10
  lastCommand := 100

/-- One request is served. -/
theorem one_request_sound :
    ∃ s, exec (OwnerSystem.step smallConfig) (OwnerSystem.initial (fun _ => blankServer))
      [.create blankServer true, .install 0, .loopTop 0 false, .alloc (plainRequest 5 1), .dispatch 0 (plainRequest 5 1),
        .wake 0, .call 0 true] = some s ∧ s.calls = [(5, (plainRequest 5 1).hdr)] ∧ SlotsSound s := by
  refine ⟨_, rfl, rfl, slots_sound smallConfig (fun _ => blankServer) ?_⟩
  have hstart : Run (OwnerSystem.step smallConfig) Careful _ _ :=
    Run.refl Careful (OwnerSystem.initial (fun _ => blankServer))
  have hcreate := hstart.snoc (l := OwnerLabel.create blankServer true) trivial rfl
  -- nobody has an entry yet
  have hinstall := hcreate.snoc (l := OwnerLabel.install 0)
    (fun i _ ⟨pid, hpid⟩ => by cases pid with | zero => nomatch hpid | succ n => nomatch hpid) rfl
  have htop := hinstall.snoc (l := OwnerLabel.loopTop 0 false) trivial rfl
  have halloc := htop.snoc (l := OwnerLabel.alloc (plainRequest 5 1))
    (fun i _ => ⟨fun q hq => absurd hq not_mem_nil, fun pid hpid => by
      cases pid with | zero => nomatch hpid | succ n => nomatch hpid⟩) rfl
  have hdispatch := halloc.snoc (l := OwnerLabel.dispatch 0 (plainRequest 5 1)) (fun _ hID => nomatch hID) rfl
  exact (hdispatch.snoc (l := OwnerLabel.wake 0) trivial rfl).snoc (l := OwnerLabel.call 0 true) trivial rfl

/-- An entry is given to two processes; and one that is reassigned serves a client as another one. -/
theorem slots_lost :
    (∃ s, Run (OwnerSystem.step smallConfig) (fun _ _ => True) (OwnerSystem.initial (fun _ => blankServer)) s ∧
      s.procs 0 = .installed 0 ∧ s.procs 1 = .installed 0) ∧
    ∃ s, Run (OwnerSystem.step smallConfig) (fun _ _ => True) (OwnerSystem.initial (fun _ => blankServer)) s ∧
      ∃ c ∈ s.calls, c.1 = 6 ∧ c.2.clientID = 5 :=
  ⟨⟨_, run_of_exec (A := fun _ => True)
      [.create blankServer true, .install 0, .alloc (plainRequest 5 1), .create blankServer true, .install 1]
      _ _ (fun _ _ => trivial) rfl, rfl, rfl⟩,
    ⟨_, run_of_exec (A := fun _ => True)
      [.create blankServer true, .install 0, .loopTop 0 false, .alloc (plainRequest 5 1), .dispatch 0 (plainRequest 5 1),
        .wake 0, .call 0 true, .loopTop 0 true, .alloc (plainRequest 5 2), .reclaim 0 false, .alloc (plainRequest 6 1),
        .dispatch 0 (plainRequest 5 2), .wake 0, .call 0 true]
      _ _ (fun _ _ => trivial) rfl, _, mem_cons_self, rfl, rfl⟩⟩

end SpriteKernel.Rpc
