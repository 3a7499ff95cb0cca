import SpriteKernel.Rpc.Server

/- What one packet can do to a server process. `Dispatched` lists the ways
   `RpcServerDispatch` can end, with what it left alone; the protocol proofs go by
   its cases. -/
namespace SpriteKernel.Rpc
open Machine Bytes

structure RpcServerState.Keeps (srv srv' : RpcServerState) : Prop where
  clientID : srv'.clientID = srv.clientID
  channel : srv'.channel = srv.channel
  ID : srv'.ID = srv.ID
  request : srv'.request = srv.request
  actualParamSize : srv'.actualParamSize = srv.actualParamSize
  actualDataSize : srv'.actualDataSize = srv.actualDataSize

/-- The packet has been copied in, on top of areas of the given sizes. -/
structure RpcServerState.Takes (srv : RpcServerState) (p : Packet) (paramSize dataSize : Int)
    (srv' : RpcServerState) : Prop where
  clientID : srv'.clientID = srv.clientID
  channel : srv'.channel = srv.channel
  ID : srv'.ID = p.hdr.ID
  request : srv'.request = rpcScatter p srv.request
  actualParamSize : srv'.actualParamSize = max paramSize (int32 (p.hdr.paramSize + p.hdr.paramOffset))
  actualDataSize : srv'.actualDataSize = max dataSize (int32 (p.hdr.dataSize + p.hdr.dataOffset))

def SrvState.reset (s : SrvState) : SrvState := { s with aging := false }

inductive Dispatched (srv : RpcServerState) (p : Packet) (srv' : RpcServerState) : Prop where
  | stuck (hID : p.hdr.ID ≠ srv.ID) (hbusy : srv.state.busy = true)
      (hstate : srv'.state = { srv.state.reset with waiting := false, fragment := false, stuck := true })
      (hkeeps : srv.Keeps srv')
  | whole (hID : p.hdr.ID ≠ srv.ID) (hbusy : srv.state.busy = false) (hnum : p.hdr.numFrags = 0)
      (hstate : srv'.state = srvBusy) (hdelivered : srv'.fragsDelivered = 0) (hfrags : srv'.fragsReceived = 0)
      (htakes : srv.Takes p 0 0 srv')
  | first (hID : p.hdr.ID ≠ srv.ID) (hbusy : srv.state.busy = false) (hnum : p.hdr.numFrags ≠ 0)
      (hstate : srv'.state = srvFragment) (hdelivered : srv'.fragsDelivered = 0)
      (hfrags : srv'.fragsReceived = p.hdr.fragMask) (htakes : srv.Takes p 0 0 srv')
  | discard (hID : p.hdr.ID = srv.ID) (hno : srv.state.noReply = true)
      (hstate : srv'.state = { srv.state.reset with free := true }) (hkeeps : srv.Keeps srv')
      (hfrags : srv'.fragsReceived = srv.fragsReceived)
  | closed (hID : p.hdr.ID = srv.ID) (hno : srv.state.noReply = false) (hack : p.hdr.has Flag.ack = true)
      (hclose : p.hdr.has Flag.close = true) (hstate : srv'.state = srvFree) (hkeeps : srv.Keeps srv')
      (hfrags : srv'.fragsReceived = srv.fragsReceived)
  | acked (hID : p.hdr.ID = srv.ID) (hno : srv.state.noReply = false) (hack : p.hdr.has Flag.ack = true)
      (hclose : p.hdr.has Flag.close = false) (hstate : srv'.state = srv.state.reset) (hkeeps : srv.Keeps srv')
      (hfrags : srv'.fragsReceived = srv.fragsReceived)
  | again (hID : p.hdr.ID = srv.ID) (hno : srv.state.noReply = false) (hack : p.hdr.has Flag.ack = false)
      (hknown : srv.state.reset ∈ [srvFree, srvFragment, srvBusy, srvWaiting])
      (hstate : srv'.state = srv.state.reset) (hkeeps : srv.Keeps srv')
      (hfrags : srv'.fragsReceived = srv.fragsReceived)
  | more (hID : p.hdr.ID = srv.ID) (hno : srv.state.noReply = false) (hack : p.hdr.has Flag.ack = false)
      (hfragment : srv.state.reset = srvFragment) (hmask : p.hdr.fragMask ≠ 0) (hnum : p.hdr.numFrags ≠ 0)
      (hnew : srv.fragsReceived &&& p.hdr.fragMask = 0)
      (hfrags : srv'.fragsReceived = srv.fragsReceived ||| p.hdr.fragMask)
      (hstate : srv'.state = if rpcCompleteMask[p.hdr.numFrags]? = some srv'.fragsReceived then srvBusy else srvFragment)
      (htakes : srv.Takes p srv.actualParamSize srv.actualDataSize srv')
  | reset (hID : p.hdr.ID = srv.ID) (hno : srv.state.noReply = false) (hack : p.hdr.has Flag.ack = false)
      (hstate : srv'.state = srvFree) (hkeeps : srv.Keeps srv') (hfrags : srv'.fragsReceived = srv.fragsReceived)

/-- The server that `newRequest` copies a packet to. -/
def RpcServerState.cleared (srv : RpcServerState) : RpcServerState :=
  { srv with
    state := { srv.state.reset with waiting := false, fragment := false }
    age := 0
    fragsReceived := if srv.state.fragment then 0 else srv.fragsReceived }

theorem dispatched_accept {srv : RpcServerState} {p : Packet} (hID : p.hdr.ID ≠ srv.ID)
    (hbusy : srv.state.busy = false) : Dispatched srv p (srv.cleared.accept p).1 := by
  rw [RpcServerState.accept]
  split
  · rename_i hnum
    exact .whole hID hbusy hnum rfl rfl rfl ⟨rfl, rfl, rfl, rfl, rfl, rfl⟩
  · rename_i hnum
    exact .first hID hbusy hnum rfl rfl rfl ⟨rfl, rfl, rfl, rfl, rfl, rfl⟩

/-- **The cases of `RpcServerDispatch`.** -/
theorem dispatched (srv : RpcServerState) (p : Packet) : Dispatched srv p (rpcServerDispatch srv p).1 := by
  rw [rpcServerDispatch]
  split
  · rename_i hID
    rw [RpcServerState.newRequest]
    dsimp only
    split
    · rename_i hbusy
      exact .stuck hID hbusy rfl ⟨rfl, rfl, rfl, rfl, rfl, rfl⟩
    · rename_i hbusy
      exact dispatched_accept hID (by simpa using hbusy)
  · rename_i hne
    have hID : p.hdr.ID = srv.ID := not_not.mp hne
    rw [RpcServerState.currentRequest]
    dsimp only
    split
    · rename_i hno
      exact .discard hID hno rfl ⟨rfl, rfl, rfl, rfl, rfl, rfl⟩ rfl
    rename_i hno
    replace hno : srv.state.noReply = false := by simpa using hno
    split
    · rename_i hack
      split
      · rename_i hclose
        exact .closed hID hno hack hclose rfl ⟨rfl, rfl, rfl, rfl, rfl, rfl⟩ rfl
      · rename_i hclose
        replace hclose : p.hdr.has Flag.close = false := by simpa using hclose
        split
        · exact .acked hID hno hack hclose rfl ⟨rfl, rfl, rfl, rfl, rfl, rfl⟩ rfl
        · exact .acked hID hno hack hclose rfl ⟨rfl, rfl, rfl, rfl, rfl, rfl⟩ rfl
    rename_i hack
    replace hack : p.hdr.has Flag.ack = false := by simpa using hack
    split
    · rename_i hfree
      exact .again hID hno hack (by rw [SrvState.reset, hfree]; simp) rfl ⟨rfl, rfl, rfl, rfl, rfl, rfl⟩ rfl
    split
    · rename_i hfragment
      have hknown : srv.state.reset ∈ [srvFree, srvFragment, srvBusy, srvWaiting] := by
        rw [SrvState.reset, hfragment]
        simp
      rw [RpcServerState.addFragment]
      split
      · exact .again hID hno hack hknown rfl ⟨rfl, rfl, rfl, rfl, rfl, rfl⟩ rfl
      · rename_i hmask
        split
        · exact .again hID hno hack hknown rfl ⟨rfl, rfl, rfl, rfl, rfl, rfl⟩ rfl
        · rename_i hnew
          have hmask' : p.hdr.fragMask ≠ 0 ∧ p.hdr.numFrags ≠ 0 := not_or.mp hmask
          dsimp only
          split
          · rename_i hfull
            exact .more hID hno hack hfragment hmask'.1 hmask'.2 (not_not.mp hnew) rfl (if_pos hfull).symm
              ⟨rfl, rfl, hID.symm, rfl, rfl, rfl⟩
          · rename_i hfull
            refine .more hID hno hack hfragment hmask'.1 hmask'.2 (not_not.mp hnew) rfl ?_ ⟨rfl, rfl, hID.symm, rfl, rfl, rfl⟩
            rw [if_neg hfull]
            exact hfragment
    split
    · rename_i hbusy
      exact .again hID hno hack (by rw [SrvState.reset, hbusy]; simp) rfl ⟨rfl, rfl, rfl, rfl, rfl, rfl⟩ rfl
    split
    · rename_i hwaiting
      exact .again hID hno hack (by rw [SrvState.reset, hwaiting]; simp) rfl ⟨rfl, rfl, rfl, rfl, rfl, rfl⟩ rfl
    · exact .reset hID hno hack rfl ⟨rfl, rfl, rfl, rfl, rfl, rfl⟩ rfl

/-- What a packet does to the reply, and to what is known of its delivery. -/
structure RpcServerState.Replies (srv : RpcServerState) (p : Packet) (srv' : RpcServerState) : Prop where
  reply : srv'.reply = srv.reply
  replyRpcHdr : srv'.replyRpcHdr = srv.replyRpcHdr ∨
    p.hdr.ID = srv.ID ∧ srv'.replyRpcHdr = { srv.replyRpcHdr with ID := 0 }
  delivered : srv'.fragsDelivered = srv.fragsDelivered ∨ p.hdr.ID ≠ srv.ID ∧ srv'.fragsDelivered = 0 ∨
    p.hdr.ID = srv.ID ∧ p.hdr.has Flag.ack = true ∧ srv'.fragsDelivered = p.hdr.fragMask

theorem dispatched_replies (srv : RpcServerState) (p : Packet) : srv.Replies p (rpcServerDispatch srv p).1 := by
  rw [rpcServerDispatch]
  split
  · rename_i hID
    rw [RpcServerState.newRequest]
    dsimp only
    split
    · exact ⟨rfl, .inl rfl, .inl rfl⟩
    · rw [RpcServerState.accept]
      split
      · exact ⟨rfl, .inl rfl, .inr (.inl ⟨hID, rfl⟩)⟩
      · exact ⟨rfl, .inl rfl, .inr (.inl ⟨hID, rfl⟩)⟩
  · rename_i hne
    have hID : p.hdr.ID = srv.ID := not_not.mp hne
    rw [RpcServerState.currentRequest]
    split
    · exact ⟨rfl, .inl rfl, .inl rfl⟩
    split
    · rename_i hack
      split
      · exact ⟨rfl, .inl rfl, .inl rfl⟩
      split
      · exact ⟨rfl, .inl rfl, .inr (.inr ⟨hID, hack, rfl⟩)⟩
      · exact ⟨rfl, .inl rfl, .inl rfl⟩
    split
    · exact ⟨rfl, .inl rfl, .inl rfl⟩
    split
    · rw [RpcServerState.addFragment]
      split
      · exact ⟨rfl, .inl rfl, .inl rfl⟩
      split
      · exact ⟨rfl, .inl rfl, .inl rfl⟩
      dsimp only
      split
      · exact ⟨rfl, .inl rfl, .inl rfl⟩
      · exact ⟨rfl, .inl rfl, .inl rfl⟩
    split
    · exact ⟨rfl, .inl rfl, .inl rfl⟩
    split
    · exact ⟨rfl, .inl rfl, .inl rfl⟩
    · exact ⟨rfl, .inr ⟨hID, rfl⟩, .inl rfl⟩

theorem Dispatched.client {srv srv' : RpcServerState} {p : Packet} (h : Dispatched srv p srv') :
    srv'.clientID = srv.clientID ∧ srv'.channel = srv.channel := by
  cases h with
  | stuck _ _ _ h => exact ⟨h.clientID, h.channel⟩
  | whole _ _ _ _ _ _ h => exact ⟨h.clientID, h.channel⟩
  | first _ _ _ _ _ _ h => exact ⟨h.clientID, h.channel⟩
  | discard _ _ _ h => exact ⟨h.clientID, h.channel⟩
  | closed _ _ _ _ _ h => exact ⟨h.clientID, h.channel⟩
  | acked _ _ _ _ _ h => exact ⟨h.clientID, h.channel⟩
  | again _ _ _ _ _ h => exact ⟨h.clientID, h.channel⟩
  | more _ _ _ _ _ _ _ _ _ h => exact ⟨h.clientID, h.channel⟩
  | reset _ _ _ _ h => exact ⟨h.clientID, h.channel⟩

end SpriteKernel.Rpc
