import SpriteKernel.Rpc.Hosts

/- What the steps of the server host leave of a request, and what RpcServerAlloc and
   the dispatcher make of a packet. -/
namespace SpriteKernel.Rpc

open List
open Machine Bytes

/-- The server process has some fragments of a request, and takes more. -/
def RpcServerState.Reassembling (srv : RpcServerState) : Prop :=
  { srv.state with aging := false, free := false } = srvFragment

variable {srv : RpcServerState}

theorem not_reassembling_of_waiting (h : srv.state.waiting = true) : ¬ srv.Reassembling := by
  intro hr
  have hw : srv.state.waiting = false := congrArg SrvState.waiting hr
  rw [h] at hw
  nomatch hw

theorem not_reassembling_of_busy (h : srv.state.busy = true) : ¬ srv.Reassembling := by
  intro hr
  have hb : srv.state.busy = false := congrArg SrvState.busy hr
  rw [h] at hb
  nomatch hb

theorem not_reassembling_of_unfragmented (h : srv.state.fragment = false) : ¬ srv.Reassembling := by
  intro hr
  have hf : srv.state.fragment = true := congrArg SrvState.fragment hr
  rw [h] at hf
  cases hf

theorem not_reassembling_of_noReply (h : srv.state.noReply = true) : ¬ srv.Reassembling := by
  intro hr
  have hn : srv.state.noReply = false := congrArg SrvState.noReply hr
  rw [h] at hn
  cases hn

/-- The request is as it was. -/
structure Rests (srv srv' : RpcServerState) : Prop where
  keeps : srv.Keeps srv'
  fragsReceived : srv'.fragsReceived = srv.fragsReceived
  reassembling : srv'.Reassembling → srv.Reassembling ∧ srv'.state.free = srv.state.free

theorem Rests.refl (srv : RpcServerState) : Rests srv srv :=
  ⟨⟨rfl, rfl, rfl, rfl, rfl, rfl⟩, rfl, fun h => ⟨h, rfl⟩⟩

theorem Rests.trans {a b c : RpcServerState} (h : Rests a b) (h' : Rests b c) : Rests a c where
  keeps :=
    ⟨h'.keeps.clientID.trans h.keeps.clientID, h'.keeps.channel.trans h.keeps.channel, h'.keeps.ID.trans h.keeps.ID,
      h'.keeps.request.trans h.keeps.request, h'.keeps.actualParamSize.trans h.keeps.actualParamSize,
      h'.keeps.actualDataSize.trans h.keeps.actualDataSize⟩
  fragsReceived := h'.fragsReceived.trans h.fragsReceived
  reassembling := fun hr => by
    obtain ⟨hb, hfree'⟩ := h'.reassembling hr
    obtain ⟨ha, hfree⟩ := h.reassembling hb
    exact ⟨ha, hfree'.trans hfree⟩

/-- Only the state word and the age change, to a state that takes no fragments. -/
theorem rests_of_state (state : SrvState) (age : Nat)
    (h : ¬ RpcServerState.Reassembling { srv with state := state, age := age }) :
    Rests srv { srv with state := state, age := age } :=
  ⟨⟨rfl, rfl, rfl, rfl, rfl, rfl⟩, rfl, fun hr => absurd hr h⟩

theorem rests_of_reset {srv' : RpcServerState} (hkeeps : srv.Keeps srv') (hfrags : srv'.fragsReceived = srv.fragsReceived)
    (hstate : srv'.state = srv.state.reset) : Rests srv srv' := by
  refine ⟨hkeeps, hfrags, fun hre => ?_⟩
  rw [RpcServerState.Reassembling, hstate] at hre
  exact ⟨hre, by rw [hstate]; rfl⟩

section own
variable {srv : RpcServerState}

theorem rests_loopTop (noReply : Bool) : Rests srv (srv.loopTop noReply) :=
  rests_of_state _ srv.age (not_reassembling_of_waiting rfl)

theorem rests_handOff (hbusy : srv.state.busy = true) : Rests srv srv.handOff :=
  rests_of_state _ srv.age (not_reassembling_of_busy hbusy)

theorem rests_reclaim (maxServerAge : Nat) (serversMaxed : Bool) :
    Rests srv (srv.reclaim maxServerAge serversMaxed).1 := by
  rw [RpcServerState.reclaim]
  split
  · rename_i hidle
    split
    · exact rests_of_state _ srv.age (not_reassembling_of_unfragmented rfl)
    split
    · exact rests_of_state _ _ (not_reassembling_of_waiting hidle.2)
    split
    · exact rests_of_state _ _ (not_reassembling_of_unfragmented rfl)
    · exact rests_of_state srv.state _ (not_reassembling_of_waiting hidle.2)
  · exact Rests.refl srv

theorem rests_crash (clientID : Int) (t : ServerTable) (i : Nat) :
    Rests (t.servers i) ((rpcCrashCallBack t clientID).servers i) := by
  show Rests (t.servers i)
    (if i < t.rpcNumServers ∧ (t.servers i).state.busy ∧ (t.servers i).clientID = clientID then
      { t.servers i with state := { (t.servers i).state with stuck := true } } else t.servers i)
  split
  · rename_i hcrash
    exact rests_of_state _ (t.servers i).age (not_reassembling_of_busy hcrash.2.1)
  · exact Rests.refl _

theorem servers_self (t : ServerTable) (i : Nat) (srv : RpcServerState) : (t.set i srv).servers i = srv :=
  Function.update_self _ _ _

theorem servers_other (t : ServerTable) {i j : Nat} (srv : RpcServerState) (h : j ≠ i) :
    (t.set i srv).servers j = t.servers j :=
  Function.update_of_ne h _ _

theorem rests_set {t : ServerTable} {i : Nat} (h : Rests (t.servers i) srv) (j : Nat) :
    Rests (t.servers j) ((t.set i srv).servers j) := by
  by_cases hj : j = i
  · rw [hj, servers_self]
    exact h
  · rw [servers_other t srv hj]
    exact Rests.refl _

/-- **A step of the server host of its own.** It makes a server process, or leaves every
    request as it was. -/
theorem own_step {cfg : ServerConfig} {s s' : OwnerSystem} {l : OwnerLabel} (hown : l.own = true)
    (hs : s.step cfg l = some s') :
    (∃ memory, s'.table = s.table.create cfg.host cfg.spriteID memory) ∨
      s'.table.rpcNumServers = s.table.rpcNumServers ∧ ∀ i, Rests (s.table.servers i) (s'.table.servers i) := by
  have hsame : ∀ {t : ServerTable}, t = s.table →
      t.rpcNumServers = s.table.rpcNumServers ∧ ∀ i, Rests (s.table.servers i) (t.servers i) := by
    rintro t rfl
    exact ⟨rfl, fun i => Rests.refl _⟩
  cases l with
  | create memory created =>
    rw [OwnerSystem.step] at hs
    split at hs
    · cases hs
    · rw [← Option.some.inj hs]
      exact .inl ⟨memory, rfl⟩
  | install pid =>
    right
    rw [OwnerSystem.step] at hs
    split at hs
    · split at hs
      · rename_i i table hinstall
        rw [← Option.some.inj hs]
        rw [rpcServerInstall, Option.map_eq_some_iff] at hinstall
        obtain ⟨j, -, hj⟩ := hinstall
        obtain ⟨rfl, rfl⟩ := Prod.mk.inj hj
        exact ⟨rfl, rests_set (rests_of_state _ (s.table.servers j).age (not_reassembling_of_unfragmented rfl))⟩
      · rw [← Option.some.inj hs]
        exact hsame rfl
    · cases hs
  | alloc p => cases hown
  | dispatch i p => cases hown
  | crash clientID =>
    right
    rw [← Option.some.inj hs]
    exact ⟨rfl, fun i => rests_crash clientID s.table i⟩
  | reclaim i serversMaxed =>
    right
    rw [OwnerSystem.step] at hs
    split at hs
    · rw [← Option.some.inj hs]
      exact ⟨rfl, rests_set (rests_reclaim _ _)⟩
    · cases hs
  | loopTop pid noReply =>
    right
    rw [OwnerSystem.step] at hs
    split at hs
    · rw [← Option.some.inj hs]
      exact ⟨rfl, rests_set (rests_loopTop _)⟩
    · rw [← Option.some.inj hs]
      exact ⟨rfl, rests_set (rests_loopTop _)⟩
    · cases hs
  | wake pid =>
    right
    rw [OwnerSystem.step] at hs
    split at hs
    · split at hs
      · rw [← Option.some.inj hs]
        exact ⟨rfl, rests_set (rests_of_state _ _ (not_reassembling_of_unfragmented rfl))⟩
      split at hs
      · rename_i hbusy
        rw [← Option.some.inj hs]
        exact ⟨rfl, rests_set (rests_handOff hbusy)⟩
      · rw [← Option.some.inj hs]
        exact hsame rfl
    · cases hs
  | call pid serviceEnabled =>
    right
    rw [OwnerSystem.step] at hs
    split at hs
    · rw [← Option.some.inj hs]
      exact hsame rfl
    · cases hs
  | shutDown =>
    right
    rw [← Option.some.inj hs]
    exact hsame rfl

end own

section sent
variable {cfg : ReplyConfig}

theorem rests_output (srv : RpcServerState) (mask : BitVec 32) : Rests srv (srv.output cfg mask).1 := by
  rw [RpcServerState.output]
  split
  · exact ⟨⟨rfl, rfl, rfl, rfl, rfl, rfl⟩, rfl, fun h => ⟨h, rfl⟩⟩
  · exact ⟨⟨rfl, rfl, rfl, rfl, rfl, rfl⟩, rfl, fun h => ⟨h, rfl⟩⟩

theorem reply_rests (srv : RpcServerState) (error : Int) (storage : Message) :
    Rests srv (rpcReply cfg srv error storage).1 := by
  refine Rests.trans (b := { srv with
    replyRpcHdr := srv.replyHdr cfg error storage.paramLength storage.dataLength, reply := storage }) ?_ (rests_output _ 0)
  exact ⟨⟨rfl, rfl, rfl, rfl, rfl, rfl⟩, rfl, fun h => ⟨h, rfl⟩⟩

theorem perform_rests (cfg : ReplyConfig) : ∀ (actions : List Action) (srv : RpcServerState), Rests srv (srv.performAll cfg actions).1
  | [], srv => Rests.refl srv
  | a :: as, srv => by
    refine Rests.trans (b := (srv.perform cfg a).1) ?_ (perform_rests cfg as _)
    cases a with
    | ack flags => exact Rests.refl srv
    | wakeup => exact Rests.refl srv
    | resend =>
      show Rests srv (rpcResend cfg srv).1
      rw [rpcResend]
      split
      · exact Rests.refl srv
      · exact rests_output srv _

end sent

variable {t : ServerTable} {h : RpcHdr}

theorem mem_order_of_lt (h : RpcHdr) {j : Nat} (hj : j < t.rpcNumServers) : j ∈ t.order h := by
  rw [ServerTable.order]
  have hstart : (if h.serverHint < 0 ∨ h.serverHint ≥ t.rpcNumServers then 0 else h.serverHint.toNat) < t.rpcNumServers := by
    split
    · omega
    · omega
  generalize (if h.serverHint < 0 ∨ h.serverHint ≥ t.rpcNumServers then 0 else h.serverHint.toNat) = start at hstart
  rw [mem_map]
  rcases Nat.le_total start j with hle | hle
  · refine ⟨j - start, mem_range.2 (by omega), ?_⟩
    rw [Nat.add_sub_cancel' hle, Nat.mod_eq_of_lt hj]
  · rcases Nat.eq_or_lt_of_le hle with heq | hlt
    · refine ⟨0, mem_range.2 (by omega), ?_⟩
      rw [Nat.add_zero, ← heq, Nat.mod_eq_of_lt hj]
    · refine ⟨j + t.rpcNumServers - start, mem_range.2 (by omega), ?_⟩
      have hsum : start + (j + t.rpcNumServers - start) = j + t.rpcNumServers := by omega
      rw [hsum, Nat.add_mod_right, Nat.mod_eq_of_lt hj]

/-- A server process is reassigned only if none is bound to the packet's client. -/
theorem not_matches_of_reassigned {i : Nat} (hs : t.search h = .reassigned i) {j : Nat}
    (hj : j < t.rpcNumServers) : ¬ (t.servers j).Matches h := by
  intro hmatches
  rw [ServerTable.search] at hs
  cases hbound : (t.order h).find? (fun i => (t.servers i).Matches h) with
  | some k =>
    rw [hbound] at hs
    cases hs
  | none =>
    have hno := List.find?_eq_none.1 hbound j (mem_order_of_lt h hj)
    exact hno (decide_eq_true hmatches)

/-- **The server process that `RpcServerAlloc` finds**, with the bits it clears and sets. -/
theorem found {t' : ServerTable} {i : Nat} (hf : rpcServerAlloc t h = some (i, t')) :
    i < t.rpcNumServers ∧ t' = t.set i (t'.servers i) ∧
      ((t.search h = .bound i ∧ (t.servers i).Matches h ∧ t'.servers i = (t.servers i).clearFree) ∨
        t.search h = .reassigned i ∧ (t.servers i).Available ∧ t'.servers i = (t.servers i).reassign h) := by
  rw [rpcServerAlloc] at hf
  rcases search_cases t h with ⟨j, hj, hlt, hmatches⟩ | ⟨j, hj, hlt, havailable⟩ | hnone
  · rw [hj] at hf
    cases hf
    rw [servers_self]
    exact ⟨hlt, rfl, .inl ⟨hj, hmatches, rfl⟩⟩
  · rw [hj] at hf
    cases hf
    rw [servers_self]
    exact ⟨hlt, rfl, .inr ⟨hj, havailable, rfl⟩⟩
  · rw [hnone] at hf
    cases hf

/-- **A server process is woken up as it becomes busy.** -/
theorem woken {p : Packet} (h : Action.wakeup ∈ (rpcServerDispatch srv p).2) :
    srv.state.busy = false ∧ (rpcServerDispatch srv p).1.state = srvBusy := by
  rw [rpcServerDispatch] at h ⊢
  split at h
  · rename_i hID
    rw [if_pos hID]
    rw [RpcServerState.newRequest] at h ⊢
    dsimp only at h ⊢
    split at h
    · exact absurd h not_mem_nil
    · rename_i hbusy
      rw [if_neg hbusy]
      rw [RpcServerState.accept] at h ⊢
      split at h
      · rename_i hnum
        rw [if_pos hnum]
        exact ⟨by simpa using hbusy, rfl⟩
      · split at h <;> simp at h
  · rename_i hID
    rw [if_neg hID]
    rw [RpcServerState.currentRequest] at h ⊢
    dsimp only at h ⊢
    split at h
    · exact absurd h not_mem_nil
    rename_i hno
    rw [if_neg hno]
    split at h
    · split at h
      · exact absurd h not_mem_nil
      split at h
      · simp at h
      · exact absurd h not_mem_nil
    rename_i hack
    rw [if_neg hack]
    split at h
    · exact absurd h not_mem_nil
    rename_i hfree
    rw [if_neg hfree]
    split at h
    · rename_i hfragment
      rw [if_pos hfragment]
      rw [RpcServerState.addFragment] at h ⊢
      split at h
      · exact absurd h not_mem_nil
      rename_i hmask
      rw [if_neg hmask]
      split at h
      · simp at h
      rename_i hnew
      rw [if_neg hnew]
      dsimp only at h ⊢
      split at h
      · rename_i hfull
        rw [if_pos hfull]
        refine ⟨?_, rfl⟩
        have hb : ({ srv.state with aging := false } : SrvState).busy = false := by rw [hfragment]; rfl
        exact hb
      · split at h <;> simp at h
    split at h
    · simp at h
    split at h
    · simp at h
    · exact absurd h not_mem_nil

theorem not_woken (srv : RpcServerState) (p : Packet) (h : (rpcServerDispatch srv p).1.state.busy = srv.state.busy ∨
    (rpcServerDispatch srv p).1.state.busy = false) : Action.wakeup ∉ (rpcServerDispatch srv p).2 := by
  intro hw
  obtain ⟨hidle, hbusy⟩ := woken hw
  rw [hbusy, hidle] at h
  exact absurd h (by decide)

end SpriteKernel.Rpc
