import SpriteKernel.Lib.Remembered
import SpriteKernel.Rpc.Genuine

/- At most once: no request is handed to a service procedure twice. A server process remembers the last request it
   took by its ID, as long as it is bound to the client, and nothing of an earlier one comes after that of a later
   one. So the table is a memory as in `Remembered`, with a request live while a packet of it is on its way or the
   call is under way. Not careful: a STUCK server process is passed over although it has the request, and a freed one
   is given away although the request may still come. -/
namespace SpriteKernel.Rpc

open Function List NetSystem
open Machine Transition Remembered

/-- What a request is known by. -/
structure Key where
  clientID : Int
  channel : Int
  ID : Nat
  deriving DecidableEq

def RpcHdr.key (h : RpcHdr) : Key := ⟨h.clientID, h.channel, h.ID⟩

/-- The last request of a server process. -/
def RpcServerState.key (srv : RpcServerState) : Key := ⟨srv.clientID, srv.channel, srv.ID⟩

/-- The requests that were handed off, the last one first. -/
def NetSystem.handedKeys (s : NetSystem) : List Key := s.handed.map (fun srv => srv.requestRpcHdr.key)

/-- What is promised: no request is handed off twice. -/
def AtMostOnce (s : NetSystem) : Prop := s.handedKeys.Nodup

/-- The process may send its request. -/
def CallStage.active : CallStage → Bool
  | .ready => true
  | .sending _ _ _ => true
  | .asleep _ _ => true
  | .idle => false
  | .done _ => false

/-- The packets of a client's requests that are on their way. -/
def NetSystem.onTheWay (s : NetSystem) (c : Int) : List Packet :=
  (s.toServer c).filter (fun p => p.hdr.has Flag.ack = false)

/-- Something may still come of the request: a packet is on its way, or the call is under way. -/
def NetSystem.Live (s : NetSystem) (k : Key) : Prop :=
  (∃ p ∈ s.onTheWay k.clientID, p.hdr.key = k) ∨
    0 ≤ k.channel ∧ ((s.clients k.clientID).calls k.channel.toNat).stage.active = true ∧
      ((s.clients k.clientID).calls k.channel.toNat).chan.requestRpcHdr.ID = k.ID

instance (s : NetSystem) (k : Key) : Decidable (s.Live k) := inferInstanceAs (Decidable (_ ∨ _))

/-- A packet of a request that some server process has goes to one with its ID. -/
def NetSystem.RequestSteered (s : NetSystem) (c : Int) (held : Bool) : Prop :=
  ∀ p ∈ (s.toServer c).head?, held = false → p.hdr.has Flag.ack = false →
    ∀ f ∈ rpcServerAlloc s.server.table p.hdr,
      (∃ i ∈ List.range s.server.table.rpcNumServers, (s.server.table.servers i).key = p.hdr.key) →
        (s.server.table.servers f.1).ID = p.hdr.ID

instance (s : NetSystem) (c : Int) (held : Bool) : Decidable (s.RequestSteered c held) :=
  inferInstanceAs (Decidable (∀ p ∈ (s.toServer c).head?, _))

/-- A server process that is given to another client was not handed a request that may
    still come. -/
def NetSystem.NoneForgotten (s : NetSystem) (c : Int) (held : Bool) : Prop :=
  ∀ p ∈ (s.toServer c).head?, held = false → ∀ f ∈ rpcServerAlloc s.server.table p.hdr,
    s.server.table.search p.hdr = .reassigned f.1 → (s.server.table.servers f.1).key ∈ s.handedKeys →
      ¬ s.Live (s.server.table.servers f.1).key

instance (s : NetSystem) (c : Int) (held : Bool) : Decidable (s.NoneForgotten c held) :=
  inferInstanceAs (Decidable (∀ p ∈ (s.toServer c).head?, _))

/-- `RpcServerAlloc` finds the process that has the request, nothing is taken for an acknowledgment, and `rpcID` does
    not wrap. -/
def NetSystem.OnceCareful (s : NetSystem) : NetLabel → Prop
  | .setup c _ _ _ _ => (s.clients c).rpcID + 1 < 4294967296
  | .elsewhere c => (s.clients c).rpcID + 1 < 4294967296
  | .serverReceive c _ held _ => s.AckSteered c held ∧ s.RequestSteered c held ∧ s.NoneForgotten c held
  | _ => True

instance (s : NetSystem) (l : NetLabel) : Decidable (s.OnceCareful l) :=
  match l with
  | .setup c _ _ _ _ => inferInstanceAs (Decidable ((s.clients c).rpcID + 1 < 4294967296))
  | .elsewhere c => inferInstanceAs (Decidable ((s.clients c).rpcID + 1 < 4294967296))
  | .serverReceive c _ held _ =>
    inferInstanceAs (Decidable (s.AckSteered c held ∧ s.RequestSteered c held ∧ s.NoneForgotten c held))
  | .go _ _ => .isTrue trivial
  | .timeout _ _ => .isTrue trivial
  | .free _ _ => .isTrue trivial
  | .clientReceive _ _ => .isTrue trivial
  | .lose _ => .isTrue trivial
  | .host _ => .isTrue trivial
  | .reply _ _ _ => .isTrue trivial
  | .errorReply _ _ => .isTrue trivial

/-- The table as a memory: what each server process knows, and whether it puts it together yet. -/
def NetSystem.memory (s : NetSystem) : Memory Nat Key where
  known := fun i => if i < s.server.table.rpcNumServers then some (s.server.table.servers i).key else none
  pending := fun i => (s.server.table.servers i).Reassembling

/-- The clients' side: IDs are taken in order, and packets come in that order. -/
structure InOrder (s : NetSystem) : Prop where
  fresh : ∀ r ∈ s.requests, r.1.ID < (s.clients r.1.clientID).rpcID
  sorted : ∀ c, (s.onTheWay c).Pairwise (fun p q => p.hdr.channel = q.hdr.channel → p.hdr.ID ≤ q.hdr.ID)
  upTo : ∀ c ch, ((s.clients c).calls ch).stage.active = true → ∀ p ∈ s.onTheWay c, p.hdr.channel = ch →
    p.hdr.ID ≤ ((s.clients c).calls ch).chan.requestRpcHdr.ID

structure OnceInv (s : NetSystem) : Prop where
  order : InOrder s
  handedFresh : ∀ k ∈ s.handedKeys, k.ID < (s.clients k.clientID).rpcID
  handedLe : ∀ k ∈ s.handedKeys, ∀ k', s.Live k' → k'.clientID = k.clientID → k'.channel = k.channel → k.ID ≤ k'.ID
  slots : ∀ i < s.server.table.rpcNumServers, (s.server.table.servers i).Reassembling →
    (s.server.table.servers i).state.free = false ∧ 0 ≤ (s.server.table.servers i).channel
  guards : Guards s.memory s.Live s.handedKeys

/-- What a step hands off was live. -/
def HandsLive (s s' : NetSystem) : Prop :=
  s'.handedKeys = s.handedKeys ∨ ∃ k, s.Live k ∧ s'.handedKeys = k :: s.handedKeys

/-- What is promised of the order: on a channel, requests are handed off in the order of their IDs. -/
def InSequence (keys : List Key) : Prop :=
  keys.Pairwise (fun k k' => k.clientID = k'.clientID → k.channel = k'.channel → k'.ID < k.ID)

section clients
variable {cfg : NetConfig} {s s' : NetSystem}

variable {c : Int} {p : Packet}

theorem mem_onTheWay : p ∈ s.onTheWay c ↔ p ∈ s.toServer c ∧ p.hdr.has Flag.ack = false := by
  rw [NetSystem.onTheWay, mem_filter, decide_eq_true_iff]

theorem Recorded.onTheWay (h : Recorded cfg s) (hp : p ∈ s.onTheWay c) :
    ∃ r ∈ s.requests, p.hdr.key = r.1.key ∧ p.hdr.clientID = c ∧ ∃ ch : Nat, p.hdr.channel = ch := by
  obtain ⟨hin, hack⟩ := mem_onTheWay.1 hp
  rcases h.toServer c p hin with hyes | ⟨r, hr, hc, hsent⟩
  · rw [hack] at hyes
    cases hyes
  · obtain ⟨ch, hch⟩ := (h.requests r hr).channel
    have hkey : p.hdr.key = r.1.key := by
      rw [RpcHdr.key, RpcHdr.key, hsent.header.clientID, hsent.header.channel, hsent.header.ID]
    exact ⟨r, hr, hkey, hsent.header.clientID.trans hc, ch, hsent.header.channel.trans hch⟩

/-- Nothing new is on its way, and no other request is under way. -/
structure Quieter (s s' : NetSystem) : Prop where
  requests : s'.requests = s.requests
  rpcID : ∀ c, (s.clients c).rpcID ≤ (s'.clients c).rpcID
  onTheWay : ∀ c, (s'.onTheWay c).Sublist (s.onTheWay c)
  calls : ∀ c ch, ((s'.clients c).calls ch).stage.active = true → ((s.clients c).calls ch).stage.active = true ∧
    ((s'.clients c).calls ch).chan.requestRpcHdr.ID = ((s.clients c).calls ch).chan.requestRpcHdr.ID

theorem Quieter.inOrder (hq : Quieter s s') (h : InOrder s) : InOrder s' where
  fresh := by
    rw [hq.requests]
    intro r hr
    exact Nat.lt_of_lt_of_le (h.fresh r hr) (hq.rpcID _)
  sorted := fun c => (h.sorted c).sublist (hq.onTheWay c)
  upTo := by
    intro c ch hactive p hp hch
    obtain ⟨hactive', hID⟩ := hq.calls c ch hactive
    rw [hID]
    exact h.upTo c ch hactive' p ((hq.onTheWay c).subset hp) hch

theorem Quieter.live (hq : Quieter s s') {k : Key} (hl : s'.Live k) : s.Live k := by
  rcases hl with ⟨p, hp, hkey⟩ | ⟨hch, hactive, hID⟩
  · exact .inl ⟨p, (hq.onTheWay _).subset hp, hkey⟩
  · obtain ⟨hactive', hID'⟩ := hq.calls _ _ hactive
    exact .inr ⟨hch, hactive', hID'.symm.trans hID⟩

theorem quieter_server (s : NetSystem) (server : OwnerSystem) (toClient : Int → List Packet)
    (handed : List RpcServerState) :
    Quieter s { s with server := server, toClient := toClient, handed := handed } :=
  ⟨rfl, fun _ => Nat.le_refl _, fun _ => List.Sublist.refl _, fun _ _ h => ⟨h, rfl⟩⟩

theorem quieter_tail {rest : List Packet} (hq : s.toServer c = p :: rest) :
    Quieter s { s with toServer := update s.toServer c rest } where
  requests := rfl
  rpcID := fun _ => Nat.le_refl _
  onTheWay := by
    intro d
    apply List.Sublist.filter
    exact update_rel (R := List.Sublist) (hq ▸ sublist_cons_self p rest) Sublist.refl d
  calls := fun _ _ h => ⟨h, rfl⟩

/-- One call has changed, and is no more under way than before. -/
theorem quieter_setCall (c : Int) (ch : Nat) (call : ClientCall)
    (hcall : call.stage.active = true → ((s.clients c).calls ch).stage.active = true ∧
      call.chan.requestRpcHdr.ID = ((s.clients c).calls ch).chan.requestRpcHdr.ID) :
    Quieter s (s.setClient c ((s.clients c).setCall ch call)) where
  requests := rfl
  rpcID := by
    intro d
    by_cases hd : d = c
    · rw [hd, clients_self]
      exact Nat.le_refl _
    · rw [clients_other _ _ hd]
  onTheWay := fun _ => List.Sublist.refl _
  calls := by
    intro d i hactive
    by_cases hd : d = c
    · rw [hd, clients_self] at hactive ⊢
      by_cases hi : i = ch
      · rw [hi, calls_self] at hactive ⊢
        exact hcall hactive
      · rw [calls_other _ _ hi] at hactive ⊢
        exact ⟨hactive, rfl⟩
    · rw [clients_other _ _ hd] at hactive ⊢
      exact ⟨hactive, rfl⟩

theorem onTheWay_toHost (s : NetSystem) (c : Int) (packets : List Packet) (d : Int) :
    (s.toHost c packets).onTheWay d =
      s.onTheWay d ++ if d = c then packets.filter (fun p => p.hdr.has Flag.ack = false) else [] := by
  show (update s.toServer c (s.toServer c ++ packets) d).filter _ = _
  by_cases hd : d = c
  · rw [hd, update_self, filter_append, if_pos rfl]
    rfl
  · rw [update_of_ne hd, if_neg hd, append_nil]
    rfl

variable {packets : List Packet}

theorem quieter_acks (hacks : ∀ p ∈ packets, p.hdr.has Flag.ack = true) :
    Quieter s (s.toHost c packets) where
  requests := rfl
  rpcID := fun _ => Nat.le_refl _
  onTheWay := by
    intro d
    have hnone : packets.filter (fun p => p.hdr.has Flag.ack = false) = [] := by
      apply filter_eq_nil_iff.2
      intro p hp
      rw [hacks p hp]
      decide
    rw [onTheWay_toHost, hnone, ite_self, append_nil]
  calls := fun _ _ h => ⟨h, rfl⟩

theorem went_active {net : CallConfig} {call call' : ClientCall} (hw : Went net call call' packets) : call.stage.active = true := by
  have hrunning : ∀ {error locals}, call.stage.Running error locals → call.stage.active = true := by
    rintro error locals (⟨first, hs⟩ | hs) <;> rw [hs] <;> rfl
  cases hw with
  | began hstage => rw [hstage]; rfl
  | slept _ _ hstage => exact hrunning hstage
  | again _ _ _ hstage => exact hrunning hstage
  | returned _ _ _ hstage => exact hrunning hstage
  | failed _ _ _ hstage => exact hrunning hstage
  | resent _ _ hstage => exact hrunning (.inr hstage)
  | acked _ _ hstage => exact hrunning (.inr hstage)

/-- What a step does to the clients' side: what is live was live, or has an ID just taken. -/
structure Follows (s s' : NetSystem) : Prop where
  inOrder : InOrder s'
  rpcID : ∀ c, (s.clients c).rpcID ≤ (s'.clients c).rpcID
  live : ∀ k, s'.Live k → s.Live k ∨ k.ID = (s.clients k.clientID).rpcID

theorem Quieter.follows (hq : Quieter s s') (h : InOrder s) : Follows s s' :=
  ⟨hq.inOrder h, hq.rpcID, fun _ hl => .inl (hq.live hl)⟩

theorem follows_go (hrec : Recorded cfg s) (h : InOrder s) {ch : Nat} {call : ClientCall} (hw : Went (cfg.client c) ((s.clients c).calls ch) call packets) :
    Follows s ((s.setClient c ((s.clients c).setCall ch call)).toHost c packets) := by
  have hactive := went_active hw
  have hID := (went_leaves hw).ID
  have hq : Quieter s (s.setClient c ((s.clients c).setCall ch call)) := quieter_setCall c ch call (fun _ => ⟨hactive, hID⟩)
  -- what is sent is of the request under way
  have hkey : ∀ p ∈ packets.filter (fun p => p.hdr.has Flag.ack = false),
      p.hdr.key = ⟨c, ch, ((s.clients c).calls ch).chan.requestRpcHdr.ID⟩ := by
    intro p hp
    rw [mem_filter, decide_eq_true_iff] at hp
    rcases (CallRecorded.went hrec.requests (hrec.calls c ch) hw).2 p hp.1 with hyes | ⟨r, -, hc, hch, hrID, hsent⟩
    · rw [hp.2] at hyes
      cases hyes
    · rw [RpcHdr.key, hsent.header.clientID, hsent.header.channel, hsent.header.ID, hc, hch, hrID]
  have hu := hq.inOrder h
  refine ⟨⟨hu.fresh, ?_, ?_⟩, hq.rpcID, ?_⟩
  · intro d
    rw [onTheWay_toHost]
    by_cases hd : d = c
    · rw [if_pos hd, pairwise_append]
      refine ⟨hu.sorted d, ?_, ?_⟩
      · rw [pairwise_iff_forall_sublist]
        intro p q hpq _
        have hp := hkey p (hpq.subset mem_cons_self)
        have hq' := hkey q (hpq.subset (mem_cons_of_mem _ mem_cons_self))
        exact Nat.le_of_eq (congrArg Key.ID (hp.trans hq'.symm))
      · intro p hp q hq' hch
        have hk := hkey q hq'
        rw [hd] at hp
        have hle := h.upTo c ch hactive p hp (hch.trans (congrArg Key.channel hk))
        exact Nat.le_trans hle (Nat.le_of_eq (congrArg Key.ID hk).symm)
    · rw [if_neg hd, append_nil]
      exact hu.sorted d
  · intro d i hact p hp hch
    rw [onTheWay_toHost] at hp
    rcases mem_append.1 hp with hp | hp
    · exact hu.upTo d i hact p hp hch
    · split at hp
      · rename_i hd
        have hk := hkey p hp
        have hi : i = ch := Int.ofNat_inj.1 (hch.symm.trans (congrArg Key.channel hk))
        rw [hd, hi]
        show p.hdr.ID ≤ (((s.setClient c ((s.clients c).setCall ch call)).clients c).calls ch).chan.requestRpcHdr.ID
        rw [clients_self, calls_self, hID]
        exact Nat.le_of_eq (congrArg Key.ID hk)
      · exact absurd hp not_mem_nil
  · intro k hl
    left
    rcases hl with ⟨p, hp, hk⟩ | hcall
    · rw [onTheWay_toHost] at hp
      rcases mem_append.1 hp with hp | hp
      · exact hq.live (.inl ⟨p, hp, hk⟩)
      · split at hp
        · rw [← hk, hkey p hp]
          exact .inr ⟨Int.natCast_nonneg ch, by rw [Int.toNat_natCast]; exact hactive, by rw [Int.toNat_natCast]⟩
        · exact absurd hp not_mem_nil
    · exact hq.live (.inr hcall)

theorem rpcID_succ {ID : Nat} (h : ID + 1 < 4294967296) : uint32 (ID + 1) = ID + 1 := by
  have hcast : (ID : Int) + 1 = ((ID + 1 : Nat) : Int) := rfl
  rw [hcast, uint32_natCast h]

theorem follows_setup (hrec : Recorded cfg s) (h : InOrder s) {ch : Nat} {self : Self} {serverID command : Int}
    {storage : RpcStorage} (hself : self.spriteID = c) (hcare : (s.clients c).rpcID + 1 < 4294967296) :
    Follows s { s.setClient c ((s.clients c).setup self serverID command storage ch) with
      requests := ((((s.clients c).setup self serverID command storage ch).calls ch).chan.requestRpcHdr, storage.request) ::
        s.requests } := by
  have hnext : ((s.clients c).setup self serverID command storage ch).rpcID = (s.clients c).rpcID + 1 := rpcID_succ hcare
  have hcall : ((s.clients c).setup self serverID command storage ch).calls ch =
      ⟨rpcSetup self serverID command storage (s.clients c).rpcID
        { ((s.clients c).calls ch).chan with state := chanBusy }, .ready⟩ := calls_self _ _ _
  have hother : ∀ i ≠ ch, ((s.clients c).setup self serverID command storage ch).calls i = (s.clients c).calls i :=
    fun _ hi => calls_other _ _ hi
  generalize (s.clients c).setup self serverID command storage ch = client at hnext hcall hother ⊢
  have hrpc : ∀ d, (s.clients d).rpcID ≤ ((s.setClient c client).clients d).rpcID := by
    intro d
    by_cases hd : d = c
    · rw [hd, clients_self, hnext]
      exact Nat.le_succ _
    · rw [clients_other _ _ hd]
  have hpackets : ∀ d, ∀ p ∈ s.onTheWay d, p.hdr.ID < (s.clients d).rpcID := by
    intro d p hp
    obtain ⟨r, hr, hkey, hclient, -⟩ := hrec.onTheWay hp
    have hlt := h.fresh r hr
    have hc : r.1.clientID = d := (congrArg Key.clientID hkey).symm.trans hclient
    rw [hc] at hlt
    exact Nat.lt_of_le_of_lt (Nat.le_of_eq (congrArg Key.ID hkey)) hlt
  refine ⟨⟨?_, h.sorted, ?_⟩, hrpc, ?_⟩
  · intro r hr
    rcases mem_cons.1 hr with rfl | hr
    · rw [hcall]
      show (s.clients c).rpcID < ((s.setClient c client).clients self.spriteID).rpcID
      rw [hself, clients_self, hnext]
      exact Nat.lt_succ_self _
    · exact Nat.lt_of_lt_of_le (h.fresh r hr) (hrpc _)
  · intro d i hactive p hp hch
    show p.hdr.ID ≤ (((s.setClient c client).clients d).calls i).chan.requestRpcHdr.ID
    replace hactive : (((s.setClient c client).clients d).calls i).stage.active = true := hactive
    by_cases hd : d = c
    · rw [hd, clients_self] at hactive ⊢
      rw [hd] at hp
      by_cases hi : i = ch
      · rw [hi, hcall]
        exact Nat.le_of_lt (hpackets c p hp)
      · rw [hother i hi] at hactive ⊢
        exact h.upTo c i hactive p hp hch
    · rw [clients_other _ _ hd] at hactive ⊢
      exact h.upTo d i hactive p hp hch
  · intro k hl
    rcases hl with hp | ⟨hch, hactive, hID⟩
    · exact .inl (.inl hp)
    · replace hactive : (((s.setClient c client).clients k.clientID).calls k.channel.toNat).stage.active = true := hactive
      replace hID : (((s.setClient c client).clients k.clientID).calls k.channel.toNat).chan.requestRpcHdr.ID = k.ID := hID
      by_cases hd : k.clientID = c
      · rw [hd, clients_self] at hactive hID
        by_cases hi : k.channel.toNat = ch
        · rw [hi, hcall] at hID
          right
          rw [hd]
          exact hID.symm
        · rw [hother _ hi] at hactive hID
          left
          right
          rw [hd]
          exact ⟨hch, hactive, hID⟩
      · rw [clients_other _ _ hd] at hactive hID
        exact .inl (.inr ⟨hch, hactive, hID⟩)

theorem follows_elsewhere (h : InOrder s) (hcare : (s.clients c).rpcID + 1 < 4294967296) :
    Follows s (s.setClient c { s.clients c with rpcID := uint32 ((s.clients c).rpcID + 1) }) := by
  refine Quieter.follows ⟨rfl, ?_, fun _ => List.Sublist.refl _, ?_⟩ h
  · intro d
    by_cases hd : d = c
    · rw [hd, clients_self]
      rw [rpcID_succ hcare]
      exact Nat.le_succ _
    · rw [clients_other _ _ hd]
  · intro d i hactive
    by_cases hd : d = c
    · rw [hd, clients_self] at hactive ⊢
      exact ⟨hactive, rfl⟩
    · rw [clients_other _ _ hd] at hactive ⊢
      exact ⟨hactive, rfl⟩

end clients

section slot
variable {srv : RpcServerState} {p : Packet}

/-- A packet leaves a server process with the request it had, or gives it a new one. -/
theorem slot_cases (hclient : srv.clientID = p.hdr.clientID) (hchannel : srv.channel = p.hdr.channel) :
    ((rpcServerDispatch srv p).1.key = srv.key ∧
      ((rpcServerDispatch srv p).1.Reassembling → srv.Reassembling ∧
        (rpcServerDispatch srv p).1.state.free = srv.state.free) ∧
      (Action.wakeup ∈ (rpcServerDispatch srv p).2 → p.hdr.ID = srv.ID ∧ p.hdr.has Flag.ack = false ∧
        srv.Reassembling ∧ (rpcServerDispatch srv p).1.requestRpcHdr = p.hdr)) ∨
    (p.hdr.ID ≠ srv.ID ∧ srv.state.busy = false ∧ (rpcServerDispatch srv p).1.key = p.hdr.key ∧
      (rpcServerDispatch srv p).1.state.free = false ∧ (rpcServerDispatch srv p).1.requestRpcHdr = p.hdr) := by
  have hd := dispatched srv p
  have hquiet := not_woken srv p
  generalize rpcServerDispatch srv p = out at hd hquiet ⊢
  have hkeep : srv.Keeps out.1 → out.1.key = srv.key := fun hk => by
    rw [RpcServerState.key, RpcServerState.key, hk.clientID, hk.channel, hk.ID]
  have htake : ∀ {ps ds}, srv.Takes p ps ds out.1 → out.1.key = p.hdr.key ∧ out.1.requestRpcHdr = p.hdr := by
    intro ps ds ht
    refine ⟨?_, ?_⟩
    · rw [RpcServerState.key, RpcHdr.key, ht.clientID, ht.channel, ht.ID, hclient, hchannel]
    · rw [RpcServerState.requestRpcHdr, ht.request]
      rfl
  cases hd with
  | stuck hID hbusy hstate hkeeps =>
    exact .inl ⟨hkeep hkeeps, fun hre => absurd hre (not_reassembling_of_unfragmented (by rw [hstate])),
      fun hw => absurd hw (hquiet (.inl (by rw [hstate]; rfl)))⟩
  | whole hID hbusy hnum hstate hdelivered hfrags htakes =>
    right
    exact ⟨hID, hbusy, (htake htakes).1, by rw [hstate]; rfl, (htake htakes).2⟩
  | first hID hbusy hnum hstate hdelivered hfrags htakes =>
    right
    exact ⟨hID, hbusy, (htake htakes).1, by rw [hstate]; rfl, (htake htakes).2⟩
  | discard hID hno hstate hkeeps hfrags =>
    exact .inl ⟨hkeep hkeeps, fun hre => absurd hre (not_reassembling_of_noReply (by rw [hstate]; exact hno)),
      fun hw => absurd hw (hquiet (.inl (by rw [hstate]; rfl)))⟩
  | closed hID hno hack hclose hstate hkeeps hfrags =>
    exact .inl ⟨hkeep hkeeps, fun hre => absurd hre (not_reassembling_of_unfragmented (by rw [hstate]; rfl)),
      fun hw => absurd hw (hquiet (.inr (congrArg SrvState.busy hstate)))⟩
  | acked hID hno hack hclose hstate hkeeps hfrags =>
    exact .inl ⟨hkeep hkeeps, (rests_of_reset hkeeps hfrags hstate).reassembling,
      fun hw => absurd hw (hquiet (.inl (by rw [hstate]; rfl)))⟩
  | again hID hno hack hknown hstate hkeeps hfrags =>
    exact .inl ⟨hkeep hkeeps, (rests_of_reset hkeeps hfrags hstate).reassembling,
      fun hw => absurd hw (hquiet (.inl (by rw [hstate]; rfl)))⟩
  | more hID hno hack hfragment hmask hnum hnew hfrags hstate htakes =>
    left
    have hfree : srv.state.free = false := congrArg SrvState.free hfragment
    have hre : srv.Reassembling := by
      rw [RpcServerState.Reassembling, ← hfragment, SrvState.reset, hfree]
    refine ⟨?_, fun _ => ⟨hre, ?_⟩, fun _ => ⟨hID, hack, hre, (htake htakes).2⟩⟩
    · rw [(htake htakes).1, RpcHdr.key, RpcServerState.key, hclient, hchannel, hID]
    · rw [hstate, hfree]
      split <;> rfl
  | reset hID hno hack hstate hkeeps hfrags =>
    exact .inl ⟨hkeep hkeeps, fun hre => absurd hre (not_reassembling_of_unfragmented (by rw [hstate]; rfl)),
      fun hw => absurd hw (hquiet (.inr (congrArg SrvState.busy hstate)))⟩

end slot

section steps
variable {cfg : NetConfig} {s s' : NetSystem}

variable {c : Int} {p : Packet} {rest : List Packet}

theorem head_onTheWay (hq : s.toServer c = p :: rest) (hack : p.hdr.has Flag.ack = false) : p ∈ s.onTheWay c :=
  mem_onTheWay.2 ⟨by rw [hq]; exact mem_cons_self, hack⟩

theorem head_live (hrec : Recorded cfg s) (hq : s.toServer c = p :: rest) (hack : p.hdr.has Flag.ack = false) :
    s.Live p.hdr.key := by
  have hpway := head_onTheWay hq hack
  obtain ⟨-, -, -, hclient, -⟩ := hrec.onTheWay hpway
  exact .inl ⟨p, by rw [RpcHdr.key, hclient]; exact hpway, rfl⟩

/-- The first packet of a link comes before all that is live of its channel. -/
theorem head_le (h : InOrder s) (hq : s.toServer c = p :: rest) (hack : p.hdr.has Flag.ack = false) {k : Key} (hl : s.Live k)
    (hclient : k.clientID = c) (hchannel : k.channel = p.hdr.channel) : p.hdr.ID ≤ k.ID := by
  have hway : s.onTheWay c = p :: rest.filter (fun p => p.hdr.has Flag.ack = false) := by
    rw [NetSystem.onTheWay, hq, filter_cons_of_pos (by rw [hack]; rfl)]
  rcases hl with ⟨q, hin, hkey⟩ | ⟨hch, hactive, hID⟩
  · rw [hclient, hway] at hin
    have hkID : q.hdr.ID = k.ID := congrArg Key.ID hkey
    have hkch : q.hdr.channel = k.channel := congrArg Key.channel hkey
    rw [← hkID]
    rcases mem_cons.1 hin with rfl | hin
    · exact Nat.le_refl _
    · have hsorted := h.sorted c
      rw [hway] at hsorted
      exact rel_of_pairwise_cons hsorted hin (by rw [hkch, hchannel])
  · rw [hclient] at hactive hID
    rw [← hID]
    exact h.upTo c k.channel.toNat hactive p (head_onTheWay hq hack) (by rw [← hchannel, Int.toNat_of_nonneg hch])

theorem OnceInv.follows (h : OnceInv s) (hf : Follows s s') (htable : s'.server.table = s.server.table)
    (hhanded : s'.handed = s.handed) : OnceInv s' := by
  have hkeys : s'.handedKeys = s.handedKeys := by rw [handedKeys, hhanded]; rfl
  have hlive : ∀ k ∈ s.handedKeys, s'.Live k → s.Live k := by
    intro k hk hl
    rcases hf.live k hl with hl | hID
    · exact hl
    · exact absurd hID (Nat.ne_of_lt (h.handedFresh k hk))
  constructor
  case order => exact hf.inOrder
  case handedFresh =>
    rw [hkeys]
    exact fun k hk => Nat.lt_of_lt_of_le (h.handedFresh k hk) (hf.rpcID _)
  case handedLe =>
    rw [hkeys]
    intro k hk k' hl hc hch
    rcases hf.live k' hl with hl | hID
    · exact h.handedLe k hk k' hl hc hch
    · rw [hID, hc]
      exact Nat.le_of_lt (h.handedFresh k hk)
  case slots =>
    rw [htable]
    exact h.slots
  case guards =>
    rw [hkeys]
    refine h.guards.keep (fun i => ?_) (fun i hp => ?_) hlive
    · show (if i < s'.server.table.rpcNumServers then some (s'.server.table.servers i).key else none) = _
      rw [htable]
      rfl
    · have hp' : (s'.server.table.servers i).Reassembling := hp
      rw [htable] at hp'
      exact hp'

variable {srv srv' : RpcServerState}

theorem key_rests (h : Rests srv srv') : srv'.key = srv.key := by
  rw [RpcServerState.key, RpcServerState.key, h.keeps.clientID, h.keeps.channel, h.keeps.ID]

theorem known_iff {j : Nat} {k : Key} :
    s.memory.known j = some k ↔ j < s.server.table.rpcNumServers ∧ (s.server.table.servers j).key = k := by
  show (if j < s.server.table.rpcNumServers then some (s.server.table.servers j).key else none) = some k ↔ _
  rw [Option.ite_none_right_eq_some, Option.some.injEq]

theorem OnceInv.quieter (h : OnceInv s) (hq : Quieter s s') (hhanded : s'.handed = s.handed)
    (hslots : ∀ i < s'.server.table.rpcNumServers, (s'.server.table.servers i).Reassembling →
      (s'.server.table.servers i).state.free = false ∧ 0 ≤ (s'.server.table.servers i).channel)
    (hguards : Guards s'.memory s'.Live s.handedKeys) : OnceInv s' := by
  have hkeys : s'.handedKeys = s.handedKeys := by rw [handedKeys, hhanded]; rfl
  refine ⟨hq.inOrder h.order, ?_, ?_, hslots, hkeys ▸ hguards⟩ <;> rw [hkeys]
  · exact fun k hk => Nat.lt_of_lt_of_le (h.handedFresh k hk) (hq.rpcID _)
  · exact fun k hk k' hl => h.handedLe k hk k' (hq.live hl)

theorem OnceInv.rests (h : OnceInv s) (hq : Quieter s s') (hhanded : s'.handed = s.handed)
    (hnum : s'.server.table.rpcNumServers = s.server.table.rpcNumServers)
    (hrests : ∀ i, Rests (s.server.table.servers i) (s'.server.table.servers i)) : OnceInv s' := by
  refine h.quieter hq hhanded (fun i hi hre => ?_) (h.guards.keep (fun i => ?_)
    (fun i hp => ((hrests i).reassembling hp).1) (fun k _ hl => hq.live hl))
  · obtain ⟨hre', hfree⟩ := (hrests i).reassembling hre
    rw [hfree, (hrests i).keeps.channel]
    exact h.slots i (hnum ▸ hi) hre'
  · refine Option.ext fun k => ?_
    rw [known_iff, known_iff, hnum, key_rests (hrests i)]

theorem OnceInv.create (h : OnceInv s) (cfg : NetConfig) {memory : RpcServerState} (hq : Quieter s s') (hhanded : s'.handed = s.handed)
    (htable : s'.server.table = s.server.table.create cfg.server.host cfg.server.spriteID memory) : OnceInv s' := by
  have hself : s'.server.table.servers s.server.table.rpcNumServers =
      rpcInitServerState cfg.server.host cfg.server.spriteID memory s.server.table.rpcNumServers := by
    rw [htable]
    exact update_self _ _ _
  have hother : ∀ i ≠ s.server.table.rpcNumServers, s'.server.table.servers i = s.server.table.servers i := by
    intro i hi
    rw [htable]
    exact update_of_ne hi _ _
  have hnum : s'.server.table.rpcNumServers = s.server.table.rpcNumServers + 1 := by rw [htable]; rfl
  have hidle : ¬ (s'.server.table.servers s.server.table.rpcNumServers).Reassembling := by
    rw [hself]
    exact not_reassembling_of_unfragmented rfl
  have hsame : SameBut s.server.table.rpcNumServers s.memory s'.memory := by
    refine ⟨fun j hj => Option.ext fun k => ?_, fun j hj hp => ?_⟩
    · rw [known_iff, known_iff, hnum, hother j hj]
      exact and_congr_left' (by omega)
    · have hp' : (s'.server.table.servers j).Reassembling := hp
      rw [hother j hj] at hp'
      exact hp'
  refine h.quieter hq hhanded (fun i hi hre => ?_) (h.guards.rebind hsame hidle
    (fun k hk => absurd (known_iff.1 hk).1 (Nat.lt_irrefl _)) (fun k j hk hj hp => ?_) (fun k _ hl => hq.live hl))
  · have hne : i ≠ s.server.table.rpcNumServers := fun heq => hidle (heq ▸ hre)
    rw [hother i hne] at hre ⊢
    exact h.slots i (by omega) hre
  · obtain ⟨-, hkey⟩ := known_iff.1 hk
    obtain ⟨hlt, rfl⟩ := known_iff.1 hj
    rw [hself] at hkey
    have hch : -1 = (s.server.table.servers j).channel := congrArg Key.channel hkey
    have hnonneg := (h.slots j hlt hp).2
    omega

theorem memory_set {i : Nat} (htable : s'.server.table = s.server.table.set i srv)
    (hi : i < s.server.table.rpcNumServers) : SameBut i s.memory s'.memory ∧ s'.memory.known i = some srv.key ∧
      (s'.memory.pending i ↔ srv.Reassembling) := by
  refine ⟨⟨fun j hj => ?_, fun j hj hp => ?_⟩, ?_, ?_⟩
  · refine Option.ext fun k => ?_
    rw [known_iff, known_iff, htable, servers_other _ _ hj]
    rfl
  · have hp' : (s'.server.table.servers j).Reassembling := hp
    rw [htable, servers_other _ _ hj] at hp'
    exact hp'
  · rw [known_iff, htable, servers_self]
    exact ⟨hi, rfl⟩
  · show (s'.server.table.servers i).Reassembling ↔ _
    rw [htable, servers_self]

/-- The rest of the invariant, where the guards are kept and what was handed off was the
    first packet of a link. -/
theorem OnceInv.received (h : OnceInv s) (hrec : Recorded cfg s) (hq : Quieter s s') {i : Nat} (htable : s'.server.table = s.server.table.set i srv) (hqueue : s.toServer c = p :: rest) {woken : Prop} [Decidable woken] (hwoken : woken → p.hdr.has Flag.ack = false)
    (hkeys : s'.handedKeys = if woken then p.hdr.key :: s.handedKeys else s.handedKeys)
    (hslot : srv.Reassembling → srv.state.free = false ∧ 0 ≤ srv.channel)
    (hguards : Guards s'.memory s'.Live s'.handedKeys) : OnceInv s' ∧ HandsLive s s' := by
  have hmem : ∀ k ∈ s'.handedKeys, k ∈ s.handedKeys ∨ k = p.hdr.key ∧ p.hdr.has Flag.ack = false := by
    intro k hk
    rw [hkeys] at hk
    split at hk
    · rename_i hw
      exact (mem_cons.1 hk).elim (fun heq => .inr ⟨heq, hwoken hw⟩) .inl
    · exact .inl hk
  refine ⟨⟨?order, ?handedFresh, ?handedLe, ?slots, hguards⟩, ?hands⟩
  case order => exact hq.inOrder h.order
  case handedFresh =>
    intro k hk
    apply Nat.lt_of_lt_of_le _ (hq.rpcID _)
    rcases hmem k hk with hold | ⟨rfl, hack⟩
    · exact h.handedFresh k hold
    · obtain ⟨r, hr, hkey, -⟩ := hrec.onTheWay (head_onTheWay hqueue hack)
      rw [hkey]
      exact h.order.fresh r hr
  case handedLe =>
    intro k hk k' hl hc hch
    rcases hmem k hk with hold | ⟨rfl, hack⟩
    · exact h.handedLe k hold k' (hq.live hl) hc hch
    · obtain ⟨-, -, -, hclient, -⟩ := hrec.onTheWay (head_onTheWay hqueue hack)
      exact head_le h.order hqueue hack (hq.live hl) (hc.trans hclient) hch
  case slots =>
    rw [htable]
    intro j hj hre
    by_cases hji : j = i
    · rw [hji, servers_self] at hre ⊢
      exact hslot hre
    · rw [servers_other _ _ hji] at hre ⊢
      exact h.slots j hj hre
  case hands =>
    rw [HandsLive, hkeys]
    split
    · rename_i hw
      exact .inr ⟨_, head_live hrec hqueue (hwoken hw), rfl⟩
    · exact .inl rfl

/-- What is known when a packet, the first of its link, is given to server process `i`. -/
structure GivenTo (s : NetSystem) (c : Int) (p : Packet) (i : Nat) (srv : RpcServerState) : Prop where
  lt : i < s.server.table.rpcNumServers
  cases : (s.server.table.servers i).Matches p.hdr ∧ srv = (s.server.table.servers i).clearFree ∨
    s.server.table.search p.hdr = .reassigned i ∧ (s.server.table.servers i).Available ∧
      srv = (s.server.table.servers i).reassign p.hdr
  ack : p.hdr.has Flag.ack = true →
    (s.server.table.servers i).ID = p.hdr.ID ∨ (s.server.table.servers i).state.busy = true
  request : p.hdr.has Flag.ack = false → (∃ j, s.memory.known j = some p.hdr.key) →
    (s.server.table.servers i).ID = p.hdr.ID
  forgotten : s.server.table.search p.hdr = .reassigned i → (s.server.table.servers i).key ∈ s.handedKeys →
    ¬ s.Live (s.server.table.servers i).key

section given
variable {c : Int} {p : Packet} {rest : List Packet} {i : Nat} {srv : RpcServerState}

theorem GivenTo.client (h : GivenTo s c p i srv) : srv.clientID = p.hdr.clientID ∧ srv.channel = p.hdr.channel ∧
    srv.ID = (s.server.table.servers i).ID ∧ srv.state.busy = (s.server.table.servers i).state.busy ∧
    srv.state.free = false := by
  rcases h.cases with ⟨hmatches, rfl⟩ | ⟨-, -, rfl⟩
  · exact ⟨hmatches.2.1, hmatches.2.2, rfl, rfl, rfl⟩
  · exact ⟨rfl, rfl, rfl, rfl, rfl⟩

theorem GivenTo.collects (hinv : OnceInv s) (h : GivenTo s c p i srv) (hre : srv.Reassembling) :
    (s.server.table.servers i).Reassembling ∧ (s.server.table.servers i).Matches p.hdr := by
  rcases h.cases with ⟨hmatches, rfl⟩ | ⟨-, havailable, rfl⟩
  · exact ⟨hre, hmatches⟩
  · have hno := (hinv.slots i h.lt hre).1
    cases hno.symm.trans havailable.2

theorem GivenTo.old_dead (hinv : OnceInv s) (hrec : Recorded cfg s) (h : GivenTo s c p i srv)
    (hqueue : s.toServer c = p :: rest) (hack : p.hdr.has Flag.ack = false) (hID : p.hdr.ID ≠ srv.ID) :
    ∀ k, s.memory.known i = some k → k ∈ s.handedKeys → ¬ s.Live k := by
  intro k hk hin hl
  obtain ⟨-, hkey⟩ := known_iff.1 hk
  rcases h.cases with ⟨hmatches, -⟩ | ⟨hreassigned, -, -⟩
  · obtain ⟨-, -, -, hclient, -⟩ := hrec.onTheWay (head_onTheWay hqueue hack)
    have hkc : k.clientID = c := by
      rw [← hkey]
      exact hmatches.2.1.trans hclient
    have hkch : k.channel = p.hdr.channel := by
      rw [← hkey]
      exact hmatches.2.2
    have hle := head_le hinv.order hqueue hack hl hkc hkch
    have hge := hinv.handedLe k hin p.hdr.key (head_live hrec hqueue hack) (hclient.trans hkc.symm) hkch.symm
    have hkID : k.ID = srv.ID := by
      rw [← hkey, h.client.2.2.1]
      rfl
    apply hID
    rw [← hkID]
    exact Nat.le_antisymm hle hge
  · rw [← hkey] at hin hl
    exact h.forgotten hreassigned hin hl

/-- **A packet is dispatched.** `srv'` is what the server process is when all is done. -/
theorem onceInv_dispatch (hinv : OnceInv s) (hrec : Recorded cfg s) (h : GivenTo s c p i srv)
    (hqueue : s.toServer c = p :: rest) (hq : Quieter s s')
    (hdone : Rests (rpcServerDispatch srv p).1 srv') (htable : s'.server.table = s.server.table.set i srv')
    (hhanded : s'.handed = if Action.wakeup ∈ (rpcServerDispatch srv p).2 then
      (rpcServerDispatch srv p).1 :: s.handed else s.handed) : OnceInv s' ∧ HandsLive s s' := by
  obtain ⟨hclient, hchannel, hsID, hsbusy, hsfree⟩ := h.client
  obtain ⟨hsame, hknown, hpending⟩ := memory_set htable h.lt
  have hlive : ∀ k ∈ s.handedKeys, s'.Live k → s.Live k := fun k _ hl => hq.live hl
  have hwoken : Action.wakeup ∈ (rpcServerDispatch srv p).2 → ¬ srv'.Reassembling := fun hw hre => by
    obtain ⟨hre', -⟩ := hdone.reassembling hre
    exact not_reassembling_of_busy (by rw [(woken hw).2]; rfl) hre'
  have hhdr : (Action.wakeup ∈ (rpcServerDispatch srv p).2 → (rpcServerDispatch srv p).1.requestRpcHdr = p.hdr) →
      s'.handedKeys = if Action.wakeup ∈ (rpcServerDispatch srv p).2 then p.hdr.key :: s.handedKeys
        else s.handedKeys := by
    intro heq
    rw [handedKeys, hhanded]
    split
    · rename_i hw
      rw [map_cons, heq hw]
      rfl
    · rfl
  rcases slot_cases hclient hchannel with ⟨hkey, hre, hcomplete⟩ | ⟨hID, hbusy, hkey, hfree, hrequest⟩
  · have hkeys := hhdr (fun hw => (hcomplete hw).2.2.2)
    have hcollects : srv'.Reassembling → srv.Reassembling := fun h' => (hre (hdone.reassembling h').1).1
    refine hinv.received hrec hq htable hqueue (fun hw => (hcomplete hw).2.1) hkeys (fun h' => ⟨?_, ?_⟩) ?_
    · obtain ⟨hmid, heq⟩ := hdone.reassembling h'
      rw [heq, (hre hmid).2, hsfree]
    · rw [hdone.keeps.channel]
      obtain ⟨hwas, hmatches⟩ := h.collects hinv (hcollects h')
      have hch : (rpcServerDispatch srv p).1.channel = srv.channel := congrArg Key.channel hkey
      rw [hch, hchannel, ← hmatches.2.2]
      exact (hinv.slots i h.lt hwas).2
    · rw [hkeys]
      rcases h.cases with ⟨hmatches, hsrv⟩ | ⟨hreassigned, havailable, hsrv⟩
      · have hsame' : ∀ j, s'.memory.known j = s.memory.known j := by
          intro j
          by_cases hj : j = i
          · rw [hj, hknown, key_rests hdone, hkey, hsrv]
            exact (known_iff.2 ⟨h.lt, rfl⟩).symm
          · exact hsame.known j hj
        have hpending' : ∀ j, s'.memory.pending j → s.memory.pending j := by
          intro j hj
          by_cases hji : j = i
          · rw [hji] at hj ⊢
            exact (h.collects hinv (hcollects (hpending.1 hj))).1
          · exact hsame.pending j hji hj
        split
        · rename_i hw
          obtain ⟨heq, hack, hwas, -⟩ := hcomplete hw
          refine hinv.guards.complete hsame' hpending' (known_iff.2 ⟨h.lt, ?_⟩) (h.collects hinv hwas).1
            (fun hno => hwoken hw (hpending.1 hno)) (head_live hrec hqueue hack) hlive
          rw [RpcServerState.key, RpcHdr.key, hmatches.2.1, hmatches.2.2, heq, hsID]
        · exact hinv.guards.keep hsame' hpending' hlive
      · have hidle : ¬ srv'.Reassembling := fun h' => by
          have hwas := (h.collects hinv (hcollects h')).1
          cases (hinv.slots i h.lt hwas).1.symm.trans havailable.2
        have hquiet : Action.wakeup ∉ (rpcServerDispatch srv p).2 := fun hw => by
          have hwas := (h.collects hinv (hcomplete hw).2.2.1).1
          cases (hinv.slots i h.lt hwas).1.symm.trans havailable.2
        rw [if_neg hquiet]
        refine hinv.guards.rebind hsame (fun hno => hidle (hpending.1 hno)) ?_ ?_ hlive
        · intro k hk hin
          obtain ⟨-, heq⟩ := known_iff.1 hk
          rw [← heq] at hin ⊢
          exact h.forgotten hreassigned hin
        · intro k j hk hj hcollecting
          obtain ⟨hlt, heq⟩ := known_iff.1 hj
          rw [hknown, Option.some.injEq, key_rests hdone, hkey] at hk
          have hstuck : (s.server.table.servers j).state.stuck = false := congrArg SrvState.stuck hcollecting
          apply not_matches_of_reassigned hreassigned hlt
          refine ⟨hstuck, ?_, ?_⟩
          · rw [← hclient]
            exact congrArg Key.clientID (heq.trans hk.symm)
          · rw [← hchannel]
            exact congrArg Key.channel (heq.trans hk.symm)
  · have hack : p.hdr.has Flag.ack = false := by
      by_contra hyes
      rcases h.ack (by simpa using hyes) with heq | hb
      · exact hID (by rw [hsID, heq])
      · rw [hsbusy, hb] at hbusy
        cases hbusy
    have hkeys := hhdr (fun _ => hrequest)
    have hold := h.old_dead hinv hrec hqueue hack hID
    have hnone : ∀ j, s.memory.known j ≠ some p.hdr.key := fun j hj => hID (by rw [hsID, h.request hack ⟨j, hj⟩])
    have hi : s'.memory.known i = some p.hdr.key := by rw [hknown, key_rests hdone, hkey]
    refine hinv.received hrec hq htable hqueue (fun _ => hack) hkeys (fun h' => ⟨?_, ?_⟩) ?_
    · rw [(hdone.reassembling h').2, hfree]
    · obtain ⟨-, -, -, -, ch, hch⟩ := hrec.onTheWay (head_onTheWay hqueue hack)
      have hch' : (rpcServerDispatch srv p).1.channel = p.hdr.channel := congrArg Key.channel hkey
      rw [hdone.keeps.channel, hch', hch]
      exact Int.natCast_nonneg ch
    · rw [hkeys]
      split
      · rename_i hw
        exact hinv.guards.take hsame hi (fun hno => hwoken hw (hpending.1 hno)) hnone (head_live hrec hqueue hack) hold hlive
      · exact hinv.guards.begin hsame hi hnone hold hlive

end given

theorem onceInv_receive (hrec : Recorded cfg s) (h : OnceInv s) {held : Bool} (nack : Bool) (hqueue : s.toServer c = p :: rest) (hacks : s.AckSteered c held)
    (hrequests : s.RequestSteered c held) (hforgotten : s.NoneForgotten c held) :
    OnceInv (s.serverReceive cfg p held nack) ∧ HandsLive s (s.serverReceive cfg p held nack) := by
  have hhead : p ∈ (s.toServer c).head? := by rw [hqueue]; exact rfl
  rw [NetSystem.serverReceive]
  split
  · rename_i i table hf
    by_cases hheld : held = true
    · rw [if_pos hheld] at hf
      cases hf
    rw [if_neg hheld] at hf
    replace hheld : held = false := by simpa using hheld
    obtain ⟨hlt, -, hcases⟩ := found hf
    have hgiven : GivenTo s c p i (table.servers i) := by
      refine ⟨hlt, ?_, fun hack => hacks p hhead hheld hack (i, table) hf, fun hack hknown => ?_,
        fun hreassigned => hforgotten p hhead hheld (i, table) hf hreassigned⟩
      · rcases hcases with ⟨-, hmatches, heq⟩ | hcase
        · exact .inl ⟨hmatches, heq⟩
        · exact .inr hcase
      · obtain ⟨j, hj⟩ := hknown
        obtain ⟨hjlt, hkey⟩ := known_iff.1 hj
        exact hrequests p hhead hheld hack (i, table) hf ⟨j, mem_range.2 hjlt, hkey⟩
    exact onceInv_dispatch h hrec hgiven hqueue (quieter_server s _ _ _) (perform_rests _ _ _) rfl rfl
  · split
    · exact ⟨h.rests (quieter_server s _ _ _) rfl rfl (fun _ => Rests.refl _), .inl rfl⟩
    · exact ⟨h, .inl rfl⟩

theorem onceInv_step (hrec : Recorded cfg s) (h : OnceInv s) {l : NetLabel} (hcare : s.OnceCareful l)
    (hs : s.step cfg l = some s') : OnceInv s' ∧ HandsLive s s' := by
  cases l with
  | setup c ch serverID command storage =>
    rw [step] at hs
    split at hs
    · cases hs
      exact ⟨h.follows (follows_setup hrec h.order rfl hcare) rfl rfl, .inl rfl⟩
    · cases hs
  | elsewhere c =>
    cases hs
    exact ⟨h.follows (follows_elsewhere h.order hcare) rfl rfl, .inl rfl⟩
  | go c ch =>
    obtain ⟨r, hr, rfl⟩ := Option.map_eq_some_iff.1 hs
    exact ⟨h.follows (follows_go hrec h.order (went hr)) rfl rfl, .inl rfl⟩
  | timeout c ch =>
    cases hs
    refine ⟨h.follows (Quieter.follows (quieter_setCall c ch _ ?_) h.order) rfl rfl, .inl rfl⟩
    exact fun hactive => ⟨hactive, rfl⟩
  | free c ch =>
    rw [step] at hs
    split at hs
    · cases hs
      refine ⟨h.follows (Quieter.follows (quieter_setCall c ch _ ?_) h.order) rfl rfl, .inl rfl⟩
      exact fun hactive => absurd hactive Bool.false_ne_true
    · cases hs
  | clientReceive c k =>
    obtain ⟨p, -, rfl⟩ := Option.map_eq_some_iff.1 hs
    rw [NetSystem.clientReceive]
    dsimp only
    split
    · split
      · split
        · exact ⟨h, .inl rfl⟩
        · exact ⟨h.follows ((quieter_acks (fun q hq => closePackets_ack hq)).follows h.order) rfl rfl, .inl rfl⟩
      · obtain ⟨-, hhdr⟩ := dispatch_request ((s.clients c).calls p.hdr.channel.toNat).chan p
        refine ⟨h.follows (Quieter.follows (quieter_setCall c _ _ ?_) h.order) rfl rfl, .inl rfl⟩
        exact fun hactive => ⟨hactive, congrArg RpcHdr.ID hhdr⟩
    · exact ⟨h, .inl rfl⟩
  | serverReceive c again held nack =>
    rw [step] at hs
    split at hs
    · cases hs
    · rename_i p rest hq
      cases hs
      obtain ⟨hacks, hrequests, hforgotten⟩ := hcare
      have hinv := onceInv_receive hrec h nack hq hacks hrequests hforgotten
      split
      · exact hinv
      · obtain ⟨server, toClient, handed, heq⟩ := serverReceive_eq cfg s p held nack
        rw [heq] at hinv ⊢
        exact ⟨hinv.1.follows ((quieter_tail (s := { s with server := server, toClient := toClient, handed := handed })
          hq).follows hinv.1.order) rfl rfl, hinv.2⟩
  | lose c =>
    rw [step] at hs
    split at hs
    · cases hs
    · rename_i p rest hq
      cases hs
      exact ⟨h.follows ((quieter_tail hq).follows h.order) rfl rfl, .inl rfl⟩
  | host l =>
    rw [step] at hs
    split at hs
    · rename_i hown
      obtain ⟨server, hstep, rfl⟩ := Option.map_eq_some_iff.1 hs
      rcases own_step hown hstep with ⟨memory, htable⟩ | ⟨hnum, hrests⟩
      · exact ⟨h.create cfg (quieter_server s _ _ _) rfl htable, .inl rfl⟩
      · exact ⟨h.rests (quieter_server s _ _ _) rfl hnum hrests, .inl rfl⟩
    · cases hs
  | reply pid error storage =>
    rw [step] at hs
    split at hs
    · cases hs
      exact ⟨h.rests (quieter_server s _ _ _) rfl rfl (rests_set (reply_rests _ _ _)), .inl rfl⟩
    · cases hs
  | errorReply pid error =>
    rw [step] at hs
    split at hs
    · cases hs
      exact ⟨h.rests (quieter_server s _ _ _) rfl rfl (rests_set (reply_rests _ _ _)), .inl rfl⟩
    · cases hs

theorem onceInv_of_step (hrec : Recorded cfg s) (h : OnceInv s) {l : NetLabel} (hcare : s.OnceCareful l)
    (hs : s.step cfg l = some s') : OnceInv s' := (onceInv_step hrec h hcare hs).1

theorem initial_onceInv (cfg : NetConfig) (servers : Nat → RpcServerState) (channels : Int → Nat → RpcClientChannel) :
    OnceInv (NetSystem.initial cfg servers channels) where
  order :=
    { fresh := fun _ hr => absurd hr not_mem_nil
      sorted := fun _ => List.Pairwise.nil
      upTo := fun _ _ hactive => nomatch hactive }
  handedFresh := fun _ hk => absurd hk not_mem_nil
  handedLe := fun _ hk => absurd hk not_mem_nil
  slots := fun _ hi => absurd hi (Nat.not_lt_zero _)
  guards :=
    { nodup := nodup_nil
      remembered := fun _ hk => absurd hk not_mem_nil
      alone := fun i _ _ hi => absurd (known_iff.1 hi).1 (Nat.not_lt_zero i) }

/-- **No request is handed to a service procedure twice** where it is remembered while something may still come of
    it. -/
theorem at_most_once (cfg : NetConfig) (servers : Nat → RpcServerState) (channels : Int → Nat → RpcClientChannel)
    {s : NetSystem}
    (hrun : Run (step cfg) OnceCareful (NetSystem.initial cfg servers channels) s) : AtMostOnce s := by
  exact (hrun.invariant_on (fun _ => recorded_of_run) (fun _ _ _ hk hi hc hs => onceInv_of_step hk hi hc hs)
    (initial_onceInv cfg servers channels)).guards.nodup

theorem inSequence_step (h : OnceInv s) (h' : OnceInv s') (hhands : HandsLive s s')
    (hseq : InSequence s.handedKeys) : InSequence s'.handedKeys := by
  rcases hhands with heq | ⟨k, hlive, heq⟩
  · rwa [heq]
  · have hnew := h'.guards.nodup
    rw [heq] at hnew ⊢
    refine pairwise_cons.2 ⟨fun k' hk' hc hch => ?_, hseq⟩
    apply Nat.lt_of_le_of_ne (h.handedLe k' hk' k hlive hc hch)
    -- with one ID they are one request, which is handed off once
    intro hID
    cases k; cases k'
    cases hc; cases hch; cases hID
    exact (nodup_cons.1 hnew).1 hk'

/-- **A channel's requests are handed off in the order in which they were made.** -/
theorem executed_in_order (cfg : NetConfig) (servers : Nat → RpcServerState)
    (channels : Int → Nat → RpcClientChannel)
    (hrun : Run (step cfg) OnceCareful (NetSystem.initial cfg servers channels) s) : InSequence s.handedKeys := by
  refine (hrun.invariant_on (I := fun s => OnceInv s ∧ InSequence s.handedKeys) (fun _ => recorded_of_run) ?_
    ⟨initial_onceInv cfg servers channels, Pairwise.nil⟩).2
  intro s l s' hrec ⟨hinv, hseq⟩ hcare hs
  obtain ⟨hinv', hhands⟩ := onceInv_step hrec hinv hcare hs
  exact ⟨hinv', inSequence_step hinv hinv' hhands hseq⟩

end steps

/-- Client 5 sends an answered request again and abandons it; its next is sent twice, and answered once. -/
def sentAgain : List NetLabel :=
  startServers ++ [.setup 5 0 1 9 emptyStorage, .go 5 0, .go 5 0, .timeout 5 0, .go 5 0, .serverReceive 5 false false false,
    .host (.wake 0), .host (.call 0 true), .reply 0 0 emptyMessage, .host (.loopTop 0 false),
    .serverReceive 5 false false false, .clientReceive 5 0, .go 5 0, .free 5 0, .setup 5 0 1 9 emptyStorage, .go 5 0,
    .serverReceive 5 true false false, .serverReceive 5 false false false]

theorem sent_again_once :
    ∃ s, exec (guarded OnceCareful (step smallNet)) smallStart sentAgain = some s ∧
      s.handedKeys = [⟨5, 0, 2⟩, ⟨5, 0, 1⟩] ∧ AtMostOnce s :=
  ⟨_, rfl, rfl, at_most_once smallNet (fun _ => blankServer) (fun _ _ => plainChannel)
    (run_of_guarded sentAgain _ _ rfl)⟩

theorem executed_in_order_twice :
    ∃ s, exec (guarded OnceCareful (step smallNet)) smallStart sentAgain = some s ∧
      s.handedKeys = [⟨5, 0, 2⟩, ⟨5, 0, 1⟩] ∧ InSequence s.handedKeys :=
  ⟨_, rfl, rfl, executed_in_order smallNet (fun _ => blankServer) (fun _ _ => plainChannel)
    (run_of_guarded sentAgain _ _ rfl)⟩

/-- Client 5 sends a request twice. After the first it is taken to have crashed: the server process is STUCK, another
    gets the second. -/
def crashedClient : List NetLabel :=
  startServers ++ [.setup 5 0 1 9 emptyStorage, .go 5 0, .go 5 0, .timeout 5 0, .go 5 0, .serverReceive 5 false false false,
    .host (.crash 5), .serverReceive 5 false false false]

/-- Client 5 sends a request twice, the second late. The server process is reclaimed before, and given client 7. -/
def reclaimedServer : List NetLabel :=
  startServers ++ [.setup 5 0 1 9 emptyStorage, .go 5 0, .go 5 0, .timeout 5 0, .go 5 0, .serverReceive 5 false false false,
    .host (.wake 0), .host (.call 0 true), .reply 0 0 emptyMessage, .host (.loopTop 0 false)] ++
    List.replicate 10 (.host (.reclaim 0 false)) ++
    [.elsewhere 7, .setup 7 0 1 9 emptyStorage, .go 7 0, .serverReceive 7 false false false,
      .serverReceive 5 false false false]

theorem handed_twice :
    (∃ s, Run (step smallNet) (fun _ _ => True) smallStart s ∧ s.handedKeys = [⟨5, 0, 1⟩, ⟨5, 0, 1⟩]) ∧
      ∃ s, Run (step smallNet) (fun _ _ => True) smallStart s ∧
        s.handedKeys = [⟨5, 0, 1⟩, ⟨7, 0, 2⟩, ⟨5, 0, 1⟩] :=
  ⟨⟨_, run_of_exec (A := fun _ => True) crashedClient _ _ (fun _ _ => trivial) rfl, rfl⟩,
    ⟨_, run_of_exec (A := fun _ => True) reclaimedServer _ _ (fun _ _ => trivial) rfl, rfl⟩⟩

end SpriteKernel.Rpc
