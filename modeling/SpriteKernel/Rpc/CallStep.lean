import SpriteKernel.Rpc.Emitted

/- What a client's process can do next. `Went` lists the ways `ClientCall.go` can end;
   the protocol proofs go by its cases. -/
namespace SpriteKernel.Rpc

/-- The process is in the loop of `RpcDoCall`, with the status and counters given. -/
def CallStage.Running (s : CallStage) (error : RpcStatus) (locals : CallLocals) : Prop :=
  (∃ first, s = .sending first error locals) ∨ s = .asleep error locals

/-- What a call is after its process went on, and what was sent. -/
inductive Went (cfg : CallConfig) (call call' : ClientCall) (packets : List Packet) : Prop where
  | began (hstage : call.stage = .ready) (hchan : call'.chan = (call.chan.start.send cfg).1)
      (hstage' : ∃ error, call'.stage = .sending true error {}) (hpackets : packets = (call.chan.start.send cfg).2.1)
  | slept (error : RpcStatus) (locals : CallLocals) (hstage : call.stage.Running error locals)
      (hinput : call.chan.state.input = false) (hchan : call'.chan = call.chan.sleep)
      (hstage' : call'.stage = .asleep error locals) (hpackets : packets = [])
  | again (error : RpcStatus) (locals locals' : CallLocals) (hstage : call.stage.Running error locals)
      (hinput : call.chan.state.input = true) (hagain : call.chan.clearInput.processInput cfg locals = .again locals')
      (hchan : call'.chan = call.chan.clearInput.sleep) (hstage' : call'.stage = .asleep error locals')
      (hpackets : packets = [])
  | returned (error : RpcStatus) (locals : CallLocals) (status : RpcStatus) (hstage : call.stage.Running error locals)
      (hinput : call.chan.state.input = true) (hreturn : call.chan.clearInput.processInput cfg locals = .return status)
      (hchan : call'.chan = call.chan.clearInput.leave)
      (hstage' : call'.stage = .done (if status = .success then error else status)) (hpackets : packets = [])
  | failed (error : RpcStatus) (locals : CallLocals) (status : RpcStatus) (hstage : call.stage.Running error locals)
      (hstatus : status = .timeout ∨ status = error ∧ error ≠ .success)
      (hchan : call'.chan ∈ [call.chan.leave, call.chan.clearInput.leave, call.chan.takeHint.leave])
      (hstage' : call'.stage = .done status) (hpackets : packets = [])
  | resent (error : RpcStatus) (locals : CallLocals) (hstage : call.stage = .asleep error locals)
      (hinput : call.chan.state.input = false) (hidle : call.chan.state.fragmenting = false)
      (hchan : call'.chan = (call.chan.takeHint.resend.send cfg).1)
      (hstage' : ∃ error' locals', call'.stage = .sending false error' locals')
      (hpackets : packets = (call.chan.takeHint.resend.send cfg).2.1)
  | acked (error : RpcStatus) (locals : CallLocals) (hstage : call.stage = .asleep error locals)
      (hinput : call.chan.state.input = false) (hfragmenting : call.chan.state.fragmenting = true)
      (hchan : call'.chan = (call.chan.takeHint.partialAck.send cfg).1)
      (hstage' : ∃ error' locals', call'.stage = .sending false error' locals')
      (hpackets : packets = (call.chan.takeHint.partialAck.send cfg).2.1)

section went
variable {cfg : CallConfig} {call call' : ClientCall} {packets : List Packet} {error : RpcStatus} {locals : CallLocals}

theorem went_input (hstage : call.stage.Running error locals) (hinput : call.chan.state.input = true) :
    Went cfg call (ClientCall.turn cfg error locals call.chan).1 (ClientCall.turn cfg error locals call.chan).2 := by
  rw [ClientCall.turn, if_pos hinput]
  cases hturn : call.chan.clearInput.processInput cfg locals with
  | again locals' =>
    dsimp only
    rw [hturn]
    dsimp only
    split
    · exact .again error locals locals' hstage hinput hturn rfl rfl rfl
    · rename_i herror
      exact .failed error locals error hstage (.inr ⟨rfl, herror⟩) (by simp) rfl rfl
  | «return» status =>
    dsimp only
    rw [hturn]
    exact .returned error locals status hstage hinput hturn rfl rfl rfl

theorem processTimeout_cases (cfg : CallConfig) (locals : CallLocals) (chan : RpcClientChannel) :
    chan.processTimeout cfg locals = .giveUp ∨
    (chan.state.fragmenting = false ∧ ∃ locals', chan.processTimeout cfg locals = .send chan.resend locals') ∨
    (chan.state.fragmenting = true ∧ ∃ locals', chan.processTimeout cfg locals = .send chan.partialAck locals') := by
  rw [RpcClientChannel.processTimeout]
  dsimp only
  split
  · rename_i hidle
    split
    · exact .inr (.inl ⟨hidle, _, rfl⟩)
    · exact .inl rfl
  · rename_i hidle
    generalize (if locals.lastFragMask < chan.fragsReceived then
      { locals with lastFragMask := chan.fragsReceived, numTries := 0 }
      else { locals with numTries := locals.numTries + 1 } : CallLocals) = locals'
    split
    · exact .inl rfl
    · exact .inr (.inr ⟨by simpa using hidle, _, rfl⟩)

theorem went_timeout (hstage : call.stage = .asleep error locals) (hinput : call.chan.state.input = false) :
    Went cfg call (ClientCall.turn cfg error locals call.chan).1 (ClientCall.turn cfg error locals call.chan).2 := by
  have hno : ¬ call.chan.state.input = true := by rw [hinput]; exact Bool.false_ne_true
  rw [ClientCall.turn, if_neg hno]
  rcases processTimeout_cases cfg locals call.chan.takeHint with hgive | ⟨hidle, locals', hsend⟩ | ⟨hpart, locals', hsend⟩
  · rw [hgive]
    exact .failed error locals .timeout (.inr hstage) (.inl rfl) (by simp) rfl rfl
  · rw [hsend]
    exact .resent error locals hstage hinput hidle rfl ⟨_, _, rfl⟩ rfl
  · rw [hsend]
    exact .acked error locals hstage hinput hpart rfl ⟨_, _, rfl⟩ rfl

/-- **The cases of what a process does next.** -/
theorem went (h : call.go cfg = some (call', packets)) : Went cfg call call' packets := by
  rw [ClientCall.go] at h
  split at h
  · rename_i hstage
    cases h
    exact .began hstage rfl ⟨_, rfl⟩ rfl
  · rename_i first error locals hstage
    have hrun : call.stage.Running error locals := .inl ⟨first, hstage⟩
    rw [ClientCall.sent] at h
    split at h
    · rename_i hfail
      cases h
      exact .failed error locals error hrun (.inr ⟨rfl, hfail.2⟩) (by simp) rfl rfl
    split at h
    · rename_i hinput
      have hwent : Went cfg call _ _ := went_input hrun hinput
      rw [Option.some.inj h] at hwent
      exact hwent
    · rename_i hinput
      cases h
      exact .slept error locals hrun (by simpa using hinput) rfl rfl rfl
  · rename_i error locals hstage
    split at h
    · by_cases hinput : call.chan.state.input = true
      · have hwent : Went cfg call _ _ := went_input (.inr hstage) hinput
        rw [Option.some.inj h] at hwent
        exact hwent
      · have hwent : Went cfg call _ _ := went_timeout hstage (by simpa using hinput)
        rw [Option.some.inj h] at hwent
        exact hwent
    · nomatch h
  · nomatch h

end went

/-- What the process does leaves what was received alone. -/
structure Leaves (chan chan' : RpcClientChannel) : Prop where
  fragsReceived : chan'.fragsReceived = chan.fragsReceived
  fragsDelivered : chan'.fragsDelivered = chan.fragsDelivered
  reply : chan'.reply = chan.reply
  fragmenting : chan'.state.fragmenting = chan.state.fragmenting
  ID : chan'.requestRpcHdr.ID = chan.requestRpcHdr.ID

theorem leaves_send (cfg : CallConfig) (chan : RpcClientChannel) : Leaves chan (chan.send cfg).1 := by
  rw [RpcClientChannel.send]
  cases hout : rpcOutput cfg.host cfg.route chan.requestRpcHdr chan.request chan.fragsDelivered with
  | error e => exact ⟨rfl, rfl, rfl, rfl, rfl⟩
  | ok out => exact ⟨rfl, rfl, rfl, rfl, (emitted_same hout).1.ID⟩

theorem Leaves.trans {a b c : RpcClientChannel} (h : Leaves a b) (h' : Leaves b c) : Leaves a c where
  fragsReceived := h'.fragsReceived.trans h.fragsReceived
  fragsDelivered := h'.fragsDelivered.trans h.fragsDelivered
  reply := h'.reply.trans h.reply
  fragmenting := h'.fragmenting.trans h.fragmenting
  ID := h'.ID.trans h.ID

theorem went_leaves {cfg : CallConfig} {call call' : ClientCall} {packets : List Packet} (h : Went cfg call call' packets) :
    Leaves call.chan call'.chan := by
  cases h with
  | began _ hchan => rw [hchan]; exact Leaves.trans (b := call.chan.start) ⟨rfl, rfl, rfl, rfl, rfl⟩ (leaves_send cfg _)
  | slept _ _ _ _ hchan => rw [hchan]; exact ⟨rfl, rfl, rfl, rfl, rfl⟩
  | again _ _ _ _ _ _ hchan => rw [hchan]; exact ⟨rfl, rfl, rfl, rfl, rfl⟩
  | returned _ _ _ _ _ _ hchan => rw [hchan]; exact ⟨rfl, rfl, rfl, rfl, rfl⟩
  | failed _ _ _ _ _ hchan =>
    simp only [List.mem_cons, List.not_mem_nil, or_false] at hchan
    rcases hchan with hchan | hchan | hchan <;> rw [hchan] <;> exact ⟨rfl, rfl, rfl, rfl, rfl⟩
  | resent _ _ _ _ _ hchan =>
    rw [hchan]
    exact Leaves.trans (b := call.chan.takeHint.resend) ⟨rfl, rfl, rfl, rfl, rfl⟩ (leaves_send cfg _)
  | acked _ _ _ _ _ hchan =>
    rw [hchan]
    exact Leaves.trans (b := call.chan.takeHint.partialAck) ⟨rfl, rfl, rfl, rfl, rfl⟩ (leaves_send cfg _)

inductive Arrived (chan : RpcClientChannel) (p : Packet) (chan' : RpcClientChannel) : Prop where
  | ignored (hchan : chan' = chan)
  | partialAck (hID : p.hdr.ID = chan.requestRpcHdr.ID) (hmask : p.hdr.fragMask ≠ 0) (hack : p.hdr.has Flag.ack = true)
      (hchan : chan' = { chan with fragsDelivered := p.hdr.fragMask })
  | first (hID : p.hdr.ID = chan.requestRpcHdr.ID) (hwaiting : chan.state.waiting = true) (hnum : p.hdr.numFrags ≠ 0)
      (hidle : chan.state.fragmenting = false)
      (hchan : chan' = { chan.noteSizes p with
        reply := rpcScatter p chan.reply
        fragsReceived := p.hdr.fragMask
        state := { chan.state with fragmenting := true } })
  | repeated (hID : p.hdr.ID = chan.requestRpcHdr.ID) (hwaiting : chan.state.waiting = true) (hnum : p.hdr.numFrags ≠ 0)
      (hfragmenting : chan.state.fragmenting = true) (hold : chan.fragsReceived &&& p.hdr.fragMask ≠ 0)
      (hchan : chan' = chan.noteSizes p)
  | more (hID : p.hdr.ID = chan.requestRpcHdr.ID) (hwaiting : chan.state.waiting = true) (hnum : p.hdr.numFrags ≠ 0)
      (hfragmenting : chan.state.fragmenting = true) (hnew : chan.fragsReceived &&& p.hdr.fragMask = 0)
      (hpart : rpcCompleteMask[p.hdr.numFrags]? ≠ some (chan.fragsReceived ||| p.hdr.fragMask))
      (hchan : chan' = { chan.noteSizes p with
        reply := rpcScatter p chan.reply
        fragsReceived := chan.fragsReceived ||| p.hdr.fragMask })
  | last (hID : p.hdr.ID = chan.requestRpcHdr.ID) (hwaiting : chan.state.waiting = true) (hnum : p.hdr.numFrags ≠ 0)
      (hfragmenting : chan.state.fragmenting = true) (hnew : chan.fragsReceived &&& p.hdr.fragMask = 0)
      (hfull : rpcCompleteMask[p.hdr.numFrags]? = some (chan.fragsReceived ||| p.hdr.fragMask))
      (hchan : chan' = { chan.noteSizes p with
        reply := rpcScatter p chan.reply
        fragsReceived := chan.fragsReceived ||| p.hdr.fragMask
        state := { chan.state with fragmenting := false, waiting := false, input := true, timeout := false } })
  | whole (hID : p.hdr.ID = chan.requestRpcHdr.ID) (hwaiting : chan.state.waiting = true) (hnum : p.hdr.numFrags = 0)
      (hchan : chan' = { chan.noteSizes p with
        reply := rpcScatter p chan.reply
        state := { chan.state with waiting := false, input := true, timeout := false } })

/-- **The cases of `RpcClientDispatch`.** -/
theorem arrived (chan : RpcClientChannel) (p : Packet) : Arrived chan p (rpcClientDispatch chan p) := by
  rw [rpcClientDispatch]
  split
  · exact .ignored rfl
  split
  · exact .ignored rfl
  rename_i hne
  have hID : p.hdr.ID = chan.requestRpcHdr.ID := not_not.mp hne
  split
  · rename_i hack
    exact .partialAck hID hack.1 hack.2.1 rfl
  split
  · exact .ignored rfl
  rename_i hwait
  have hwaiting : chan.state.waiting = true := by simpa using hwait
  rw [RpcClientChannel.takeIn]
  dsimp only
  split
  · rename_i hnum
    split
    · rename_i hidle
      exact .first hID hwaiting hnum hidle rfl
    rename_i hidle
    have hfragmenting : chan.state.fragmenting = true := Bool.not_eq_false _ ▸ hidle
    split
    · rename_i hold
      exact .repeated hID hwaiting hnum hfragmenting hold rfl
    rename_i hold
    have hnew : chan.fragsReceived &&& p.hdr.fragMask = 0 := not_not.mp hold
    split
    · rename_i hfull
      exact .last hID hwaiting hnum hfragmenting hnew hfull rfl
    · rename_i hpart
      exact .more hID hwaiting hnum hfragmenting hnew hpart rfl
  · rename_i hnum
    exact .whole hID hwaiting (not_not.mp hnum) rfl

end SpriteKernel.Rpc
