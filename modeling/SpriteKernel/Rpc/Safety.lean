import Mathlib.Tactic.Tauto
import SpriteKernel.Rpc.Dispatch

/- When the input path stays inside its buffers. The sizes and offsets of a packet are
   the sender's, and `Input.Fits` says which of them are harmless. -/
namespace SpriteKernel.Rpc

open List
open Machine Bytes

/-! What the dispatchers copy is what `Copies` says. -/

/-! Accesses inside their regions. -/

def Safe (accesses : List Access) : Prop := ∀ a ∈ accesses, a.Inside

@[simp]
theorem safe_nil : Safe [] := fun _ h => absurd h not_mem_nil

variable {l : List Access}

@[simp]
theorem safe_cons {a : Access} : Safe (a :: l) ↔ a.Inside ∧ Safe l := forall_mem_cons

@[simp]
theorem safe_append {l' : List Access} : Safe (l ++ l') ↔ Safe l ∧ Safe l' := forall_mem_append

/-- `size` bytes from `start` on in a packet go to `offset` in `destLength`: no overflow, and what fits is in the
    packet. -/
def AreaFits (packetLength start size offset destLength : Int) : Prop :=
  (0 < size → 0 ≤ offset ∧ size + offset < 2147483648 ∧
    (offset < destLength → 0 ≤ start ∧ start + min size (destLength - offset) ≤ packetLength)) ∧
  (size < 0 → ¬(size + offset < -2147483648 ∧ destLength < size + offset + 4294967296 ∧
    destLength - offset < 2147483648))

variable {packetLength : Int}

theorem safe_areaAccesses {start size offset : Int} {dst : Region} (hsize : IsInt32 size)
    (hoffset : IsInt32 offset) (hd0 : 0 ≤ dst.size) (hd1 : dst.size < 2147483648) :
    Safe (areaAccesses packetLength start size offset dst) ↔ AreaFits packetLength start size offset dst.size := by
  obtain ⟨hs0, hs1⟩ := hsize
  obtain ⟨ho0, ho1⟩ := hoffset
  obtain ⟨j, hj⟩ := int32_spec (size + offset)
  have hj0 := le_int32 (size + offset)
  have hj1 := int32_lt (size + offset)
  obtain ⟨k, hk⟩ := int32_spec (dst.size - offset)
  have hk0 := le_int32 (dst.size - offset)
  have hk1 := int32_lt (dst.size - offset)
  rw [areaAccesses, AreaFits]
  by_cases hzero : size = 0
  · simp [hzero]
  · rw [if_pos hzero]
    simp only [safe_cons, safe_nil, and_true, Access.Inside, scatterLength]
    have hpacket : (Region.packet packetLength).size = packetLength := rfl
    -- the sum and the room are off by one word at most
    split
    · split
      · omega
      · omega
    · omega

/-- The sizes and offsets are `int`s, as those read from a packet are. -/
structure RpcHdr.Wire (h : RpcHdr) : Prop where
  paramSize : IsInt32 h.paramSize
  dataSize : IsInt32 h.dataSize
  paramOffset : IsInt32 h.paramOffset
  dataOffset : IsInt32 h.dataOffset

/-- Both areas of a packet can be copied to a set of buffers. -/
def Buffers.Fits (b : Buffers) (packetLength : Int) (h : RpcHdr) : Prop :=
  AreaFits packetLength sizeofRpcHdr h.paramSize h.paramOffset b.paramLength ∧
    AreaFits packetLength (sizeofRpcHdr + h.paramSize) h.dataSize h.dataOffset b.dataLength

theorem isInt32_int (b : Buffer) (i : Int) : IsInt32 (Bytes.int b i) := isInt32_int32 _

theorem wire_read (b : Buffer) : (RpcHdr.read b).Wire := by
  rw [RpcHdr.read]
  constructor
  · dsimp only
    exact isInt32_int b 48
  · dsimp only
    exact isInt32_int b 52
  · dsimp only
    exact isInt32_int b 56
  · dsimp only
    exact isInt32_int b 60

variable {sys : Input} {h h' : RpcHdr} {b : Buffers}

theorem wire_validateClient (hw : h.Wire) (heq : sys.validateClient h = some h') : h'.Wire := by
  rw [Input.validateClient] at heq
  split at heq
  · cases heq
    exact hw
  · split at heq
    · split at heq
      · cases heq
      · cases heq
        exact { hw with }
    · cases heq

theorem safe_scatterAccesses (hlen : 64 ≤ packetLength) (hw : h.Wire)
    (hb : b.Sized) : Safe (scatterAccesses packetLength h b) ↔ b.Fits packetLength h := by
  have hhdr : (⟨.packet packetLength, 0, sizeofRpcHdr⟩ : Access).Inside := fun _ =>
    ⟨Int.le_refl 0, by show (0 : Int) + (64 : Nat) ≤ packetLength; omega⟩
  have hcopy : (⟨.rpcHdr, 0, sizeofRpcHdr⟩ : Access).Inside := by decide
  have hparam : Safe (areaAccesses packetLength sizeofRpcHdr h.paramSize h.paramOffset (.param b.paramLength)) ↔
      AreaFits packetLength sizeofRpcHdr h.paramSize h.paramOffset b.paramLength :=
    safe_areaAccesses hw.paramSize hw.paramOffset hb.param_nonneg hb.param_lt
  have hdata : Safe (areaAccesses packetLength (sizeofRpcHdr + h.paramSize) h.dataSize h.dataOffset
        (.data b.dataLength)) ↔
      AreaFits packetLength (sizeofRpcHdr + h.paramSize) h.dataSize h.dataOffset b.dataLength :=
    safe_areaAccesses hw.dataSize hw.dataOffset hb.data_nonneg hb.data_lt
  rw [scatterAccesses, Buffers.Fits]
  simp only [safe_append, safe_cons, safe_nil, hhdr, hcopy, true_and, hparam, hdata]

theorem inside_rpcCompleteMask (n : Nat) : (⟨.rpcCompleteMask, n, 1⟩ : Access).Inside ↔ n ≤ maxNumFrags := by
  show ((0 : Int) < 1 → 0 ≤ (n : Int) ∧ (n : Int) + 1 ≤ 17) ↔ n ≤ 16
  omega

/-- What a packet for a server process must be like, if it is copied in and if the
    table of masks is asked. -/
def RpcServerState.Fits (srv : RpcServerState) (packetLength : Int) (h : RpcHdr) : Prop :=
  (srv.Copies h → srv.request.Fits packetLength h) ∧ (srv.AddsFragment h → h.numFrags ≤ maxNumFrags)

def RpcClientChannel.Fits (chan : RpcClientChannel) (packetLength : Int) (h : RpcHdr) : Prop :=
  (chan.Copies h → chan.reply.Fits packetLength h) ∧ (chan.AddsFragment h → h.numFrags ≤ maxNumFrags)

theorem safe_if {p : Prop} [Decidable p] : Safe (if p then l else []) ↔ (p → Safe l) := by
  split
  · rename_i h
    exact ⟨fun hl _ => hl, fun hl => hl h⟩
  · rename_i h
    exact ⟨fun _ hp => absurd hp h, fun _ => safe_nil⟩

theorem safe_dispatcher {copies tests : Prop} [Decidable copies]
    [Decidable tests] (hlen : 64 ≤ packetLength) (hw : h.Wire) (hb : b.Sized) :
    Safe ((if copies then scatterAccesses packetLength h b else []) ++
      (if tests then [⟨.rpcCompleteMask, h.numFrags, 1⟩] else [])) ↔
      (copies → b.Fits packetLength h) ∧ (tests → h.numFrags ≤ maxNumFrags) := by
  rw [safe_append, safe_if, safe_if, safe_scatterAccesses hlen hw hb, safe_cons, inside_rpcCompleteMask]
  simp only [safe_nil, and_true]

/-- The server process that a message of header `h` is given to, as one of header `h'`. -/
structure Input.Serves (sys : Input) (h h' : RpcHdr) (srv : RpcServerState) : Prop where
  spriteID : sys.spriteID ≠ 0
  errorSync : sys.errorSync = false
  serverID : h.serverID = sys.broadcastServerID ∨ h.serverID = sys.spriteID
  client : sys.validateClient h = some h'
  recovered : sys.holdForRecovery h'.clientID h'.command = false
  found : sys.serverAlloc h' = some srv

/-- The channel that a message is given to. -/
def Input.Channels (sys : Input) (h : RpcHdr) (chan : RpcClientChannel) : Prop :=
  0 ≤ h.channel ∧ sys.channels[h.channel.toNat]? = some chan

theorem inside_rpcDelay {n : Int} (h0 : 0 ≤ n) (h1 : n < netNumSpriteHosts) : (⟨.rpcDelay, n, 1⟩ : Access).Inside :=
  fun _ => ⟨h0, h1⟩

theorem clientID_validateClient (heq : sys.validateClient h = some h') :
    0 ≤ h'.clientID ∧ h'.clientID < netNumSpriteHosts := by
  rw [Input.validateClient] at heq
  split at heq
  · rename_i hvalid
    cases heq
    exact ⟨Int.le_of_lt hvalid.1, hvalid.2⟩
  · split at heq
    · split at heq
      · cases heq
      · rename_i hneg
        cases heq
        exact ⟨Int.not_lt.mp hneg, sys.hdrToID_lt⟩
    · cases heq

theorem safe_toServer (hlen : 64 ≤ packetLength) (hw : h.Wire) :
    Safe (sys.toServer packetLength h) ↔ ∀ h' srv, sys.Serves h h' srv → srv.Fits packetLength h' := by
  rw [Input.toServer]
  by_cases hup : sys.spriteID = 0 ∨ sys.errorSync
  · rw [if_pos hup]
    refine ⟨fun _ h' srv hs => ?_, fun _ => safe_nil⟩
    obtain hzero | hsync := hup
    · exact absurd hzero hs.spriteID
    · exact absurd hsync (by simp [hs.errorSync])
  rw [if_neg hup]
  by_cases hid : h.serverID ≠ sys.broadcastServerID ∧ h.serverID ≠ sys.spriteID
  · rw [if_pos hid]
    refine ⟨fun _ h' srv hs => ?_, fun _ => safe_nil⟩
    obtain heq | heq := hs.serverID
    · exact absurd heq hid.1
    · exact absurd heq hid.2
  rw [if_neg hid]
  cases hclient : sys.validateClient h with
  | none =>
    refine ⟨fun _ h' srv hs => ?_, fun _ => safe_nil⟩
    rw [hs.client] at hclient
    cases hclient
  | some h₁ =>
    obtain ⟨hc0, hc1⟩ := clientID_validateClient hclient
    rw [safe_cons, and_iff_right (inside_rpcDelay hc0 hc1)]
    by_cases hhold : sys.holdForRecovery h₁.clientID h₁.command = true
    · rw [if_pos hhold]
      refine ⟨fun _ h' srv hs => ?_, fun _ => safe_nil⟩
      cases hclient.symm.trans hs.client
      exact absurd hhold (by simp [hs.recovered])
    rw [if_neg hhold]
    cases hfound : sys.serverAlloc h₁ with
    | none =>
      refine ⟨fun _ h' srv hs => ?_, fun _ => safe_nil⟩
      cases hclient.symm.trans hs.client
      cases hfound.symm.trans hs.found
    | some srv =>
      have hdispatch : Safe (srv.accesses packetLength h₁) ↔ srv.Fits packetLength h₁ :=
        safe_dispatcher hlen (wire_validateClient hw hclient) (sys.sized_request h₁ srv hfound)
      refine hdispatch.trans ⟨fun hfits h' srv' hs => ?_, fun hall => ?_⟩
      · cases hclient.symm.trans hs.client
        cases hfound.symm.trans hs.found
        exact hfits
      · refine hall h₁ srv ⟨fun hzero => hup (.inl hzero), ?_, ?_, hclient, by simpa using hhold, hfound⟩
        · simpa using fun hsync => hup (.inr hsync)
        · by_contra hnot
          exact hid ⟨fun heq => hnot (.inl heq), fun heq => hnot (.inr heq)⟩

theorem safe_toClient (hlen : 64 ≤ packetLength) (hw : h.Wire) :
    Safe (sys.toClient packetLength h) ↔ ∀ chan, sys.Channels h chan → chan.Fits packetLength h := by
  rw [Input.toClient]
  by_cases hrange : h.channel < 0 ∨ h.channel ≥ sys.channels.length
  · rw [if_pos hrange]
    refine ⟨fun _ chan hc => ?_, fun _ => safe_nil⟩
    obtain ⟨h0, hget⟩ := hc
    obtain ⟨hlt, -⟩ := List.getElem?_eq_some_iff.mp hget
    omega
  · rw [if_neg hrange, safe_append, safe_if, safe_cons, safe_cons]
    have hdelay : h.serverID < netNumSpriteHosts ∧ h.serverID > 0 →
        (⟨.rpcDelay, h.serverID, 1⟩ : Access).Inside ∧ Safe [] :=
      fun hid => ⟨inside_rpcDelay (Int.le_of_lt hid.2) hid.1, safe_nil⟩
    have hslot : (⟨.rpcChannelPtrPtr sys.channels.length, h.channel, 1⟩ : Access).Inside := fun _ => by
      show 0 ≤ h.channel ∧ h.channel + 1 ≤ sys.channels.length
      omega
    rw [and_iff_right hdelay, and_iff_right hslot]
    obtain ⟨chan, hget⟩ : ∃ chan, sys.channels[h.channel.toNat]? = some chan :=
      ⟨_, List.getElem?_eq_getElem (by omega)⟩
    rw [hget]
    have hdispatch : Safe (chan.accesses packetLength h) ↔ chan.Fits packetLength h :=
      safe_dispatcher hlen hw (sys.sized_reply chan (mem_of_getElem? hget))
    refine hdispatch.trans ⟨fun hfits chan' hc => ?_, fun hall => hall chan ⟨by omega, hget⟩⟩
    cases hget.symm.trans hc.2
    exact hfits

/-! Byte swapping. -/

theorem rpcByteSwapBuffer_of_lt {i k : Int} (h : k < i) (numInts : Nat) (b : Buffer) :
    rpcByteSwapBuffer i numInts b k = b k := by
  induction numInts generalizing i b with
  | zero => rfl
  | succ numInts ih =>
    rw [rpcByteSwapBuffer, ih (by omega)]
    exact setWord_of_outside (.inl h) _ b

variable {b : Buffer}

theorem read_congr {c : Buffer} (h : ∀ k, k < 64 → b k = c k) : RpcHdr.read b = RpcHdr.read c := by
  have hw (i : Int) (hi : i ≤ 60) : word b i = word c i := word_congr (fun k _ hk => h k (by omega))
  have hi (i : Int) (hi : i ≤ 60) : Bytes.int b i = Bytes.int c i := int_congr (fun k _ hk => h k (by omega))
  rw [RpcHdr.read, RpcHdr.read, hw 0 (by omega), hw 4 (by omega), hi 8 (by omega), hi 12 (by omega),
    hi 16 (by omega), hi 20 (by omega), hw 24 (by omega), hw 28 (by omega), hw 32 (by omega), hw 36 (by omega),
    hw 40 (by omega), hi 44 (by omega), hi 48 (by omega), hi 52 (by omega), hi 56 (by omega), hi 60 (by omega)]

/-- The header of a packet in the other order. -/
def swappedHdr (b : Buffer) : RpcHdr := RpcHdr.read (rpcByteSwapBuffer 0 (sizeofRpcHdr / 4) b)

/-- Parameters of a negative size that the unsigned tests let pass. -/
def NegativeParams (paramSize : Int) : Prop := -64 ≤ paramSize ∧ paramSize < 0 ∧ 4 ∣ paramSize

/-- Parameters that are in the packet and a whole number of words. -/
def WholeParams (packetLength paramSize : Int) : Prop :=
  0 ≤ paramSize ∧ 64 + paramSize ≤ packetLength ∧ 4 ∣ paramSize

theorem swap_passes_iff {paramSize : Int} (h0 : 64 ≤ packetLength) (h1 : packetLength < 2147483648)
    (hp : IsInt32 paramSize) :
    (¬uint32 packetLength < uint32 (sizeofRpcHdr + paramSize) ∧ uint32 paramSize % 4 = 0) ↔
      NegativeParams paramSize ∨ WholeParams packetLength paramSize := by
  obtain ⟨hp0, hp1⟩ := hp
  have hsize : (sizeofRpcHdr : Int) = 64 := rfl
  rw [NegativeParams, WholeParams, uint32, uint32, uint32, hsize]
  omega

theorem inside_header (h : 64 ≤ packetLength) :
    (⟨.packet packetLength, 0, sizeofRpcHdr⟩ : Access).Inside := fun _ =>
  ⟨Int.le_refl 0, by show (0 : Int) + (64 : Nat) ≤ packetLength; omega⟩

theorem swap_dropped (h0 : 64 ≤ packetLength) (h1 : packetLength < 2147483648)
    (hneg : ¬NegativeParams (swappedHdr b).paramSize) (hwhole : ¬WholeParams packetLength (swappedHdr b).paramSize) :
    rpcByteSwapInComing packetLength b = ([⟨.packet packetLength, 0, sizeofRpcHdr⟩], none) := by
  have hpass := (swap_passes_iff h0 h1 (wire_read (rpcByteSwapBuffer 0 (sizeofRpcHdr / 4) b)).paramSize).not.mpr
    (not_or.mpr ⟨hneg, hwhole⟩)
  rw [rpcByteSwapInComing]
  split
  · rfl
  · rename_i hlen
    rw [if_pos]
    exact fun hmod => hpass ⟨hlen, hmod⟩

theorem swap_done (h0 : 64 ≤ packetLength) (h1 : packetLength < 2147483648)
    (h : NegativeParams (swappedHdr b).paramSize ∨ WholeParams packetLength (swappedHdr b).paramSize) :
    rpcByteSwapInComing packetLength b =
      ([⟨.packet packetLength, 0, sizeofRpcHdr⟩,
        ⟨.packet packetLength, sizeofRpcHdr, 4 * ((uint32 (swappedHdr b).paramSize / 4 : Nat) : Int)⟩],
        some (rpcByteSwapBuffer sizeofRpcHdr (uint32 (swappedHdr b).paramSize / 4)
          (rpcByteSwapBuffer 0 (sizeofRpcHdr / 4) b))) := by
  obtain ⟨hlen, hmod⟩ := (swap_passes_iff h0 h1 (wire_read (rpcByteSwapBuffer 0 (sizeofRpcHdr / 4) b)).paramSize).mpr h
  rw [rpcByteSwapInComing]
  rw [if_neg hlen, if_neg (not_not.mpr hmod)]
  rfl

theorem read_swapped (numInts : Nat) (b : Buffer) :
    RpcHdr.read (rpcByteSwapBuffer sizeofRpcHdr numInts (rpcByteSwapBuffer 0 (sizeofRpcHdr / 4) b)) = swappedHdr b :=
  read_congr (fun _ hk => rpcByteSwapBuffer_of_lt hk numInts _)

/-- The packets that pass the tests on version and length, with the header as it is
    after swapping. -/
def Input.Admits (sys : Input) (packetLength : Int) (b : Buffer) (h : RpcHdr) : Prop :=
  64 ≤ packetLength ∧ sys.LengthOk packetLength h ∧
    (if (RpcHdr.read b).version = sys.swappedVersion then
      h = swappedHdr b ∧ WholeParams packetLength h.paramSize
    else (RpcHdr.read b).version = sys.nativeVersion ∧ h = RpcHdr.read b)

/-- The receiver of a packet has room for it. -/
def Input.Receives (sys : Input) (packetLength : Int) (h : RpcHdr) : Prop :=
  (h.has Flag.server = true → ∀ h' srv, sys.Serves h h' srv → srv.Fits packetLength h') ∧
    (h.has Flag.server = false → ∀ chan, sys.Channels h chan → chan.Fits packetLength h)

/-- The packets that do no harm. -/
structure Input.Fits (sys : Input) (packetLength : Int) (b : Buffer) : Prop where
  length : 0 ≤ packetLength
  params : 64 ≤ packetLength → (RpcHdr.read b).version = sys.swappedVersion →
    ¬NegativeParams (swappedHdr b).paramSize
  receiver : ∀ h, sys.Admits packetLength b h → sys.Receives packetLength h

section
variable (h0 : 64 ≤ packetLength)
include h0

theorem safe_dispatchNative :
    Safe (sys.dispatchNative packetLength b) ↔
      (sys.LengthOk packetLength (RpcHdr.read b) → sys.Receives packetLength (RpcHdr.read b)) := by
  rw [Input.dispatchNative, Input.Receives]
  by_cases hlen : sys.LengthOk packetLength (RpcHdr.read b)
  · rw [if_neg (not_not.mpr hlen), forall_prop_of_true hlen]
    by_cases hserver : (RpcHdr.read b).has Flag.server = true
    · rw [if_pos hserver, safe_toServer h0 (wire_read b)]
      exact ⟨fun h => ⟨fun _ => h, fun hc => absurd hserver (by simp [hc])⟩, fun h => h.1 hserver⟩
    · rw [if_neg hserver, safe_toClient h0 (wire_read b)]
      exact ⟨fun h => ⟨fun hs => absurd hs hserver, fun _ => h⟩, fun h => h.2 (by simpa using hserver)⟩
  · rw [if_pos hlen]
    exact ⟨fun _ h => absurd h hlen, fun _ => safe_nil⟩

theorem admits_of_swapped
    (hver : (RpcHdr.read b).version = sys.swappedVersion) (h : RpcHdr) :
    sys.Admits packetLength b h ↔
      h = swappedHdr b ∧ sys.LengthOk packetLength h ∧ WholeParams packetLength h.paramSize := by
  rw [Input.Admits, if_pos hver]
  tauto

theorem admits_of_native
    (hver : (RpcHdr.read b).version ≠ sys.swappedVersion) (h : RpcHdr) :
    sys.Admits packetLength b h ↔
      h = RpcHdr.read b ∧ sys.LengthOk packetLength h ∧ (RpcHdr.read b).version = sys.nativeVersion := by
  rw [Input.Admits, if_neg hver]
  tauto

end

theorem dispatchSwapped_of_none (h : rpcByteSwapInComing packetLength b = (l, none)) : sys.dispatchSwapped packetLength b = l := by
  rw [Input.dispatchSwapped, h]
  exact append_nil l

theorem dispatchSwapped_of_some {b' : Buffer} (h : rpcByteSwapInComing packetLength b = (l, some b')) :
    sys.dispatchSwapped packetLength b = l ++ sys.dispatchNative packetLength b' := by
  rw [Input.dispatchSwapped, h]
  rfl

theorem safe_swapped (h0 : 64 ≤ packetLength)
    (h1 : packetLength < 2147483648) :
    Safe (sys.dispatchSwapped packetLength b) ↔
      ¬NegativeParams (swappedHdr b).paramSize ∧ (WholeParams packetLength (swappedHdr b).paramSize →
        sys.LengthOk packetLength (swappedHdr b) → sys.Receives packetLength (swappedHdr b)) := by
  by_cases hnegative : NegativeParams (swappedHdr b).paramSize
  · refine ⟨fun h => ?_, fun h => absurd hnegative h.1⟩
    rw [dispatchSwapped_of_some (swap_done h0 h1 (.inl hnegative))] at h
    have hwords : 1073741808 ≤ uint32 (swappedHdr b).paramSize / 4 := by
      obtain ⟨hp0, hp1, -⟩ := hnegative
      rw [uint32]
      omega
    -- the words to swap go on past any packet
    have hinside := h ⟨.packet packetLength, sizeofRpcHdr, 4 * ((uint32 (swappedHdr b).paramSize / 4 : Nat) : Int)⟩
      (mem_append_left _ (mem_cons_of_mem _ mem_cons_self))
    obtain ⟨-, hend⟩ := hinside (by show (0 : Int) < 4 * _; omega)
    dsimp only [Region.size, sizeofRpcHdr] at hend
    omega
  rw [and_iff_right hnegative]
  by_cases hwhole : WholeParams packetLength (swappedHdr b).paramSize
  · rw [dispatchSwapped_of_some (swap_done h0 h1 (.inr hwhole)), forall_prop_of_true hwhole]
    have hparams : (⟨.packet packetLength, sizeofRpcHdr,
        4 * ((uint32 (swappedHdr b).paramSize / 4 : Nat) : Int)⟩ : Access).Inside := fun _ => by
      obtain ⟨hp0, hp1, -⟩ := hwhole
      dsimp only [Region.size, sizeofRpcHdr]
      rw [uint32]
      omega
    rw [safe_append, safe_cons, safe_cons, and_iff_right ⟨inside_header h0, hparams, safe_nil⟩,
      safe_dispatchNative h0, read_swapped]
  · rw [dispatchSwapped_of_none (swap_dropped h0 h1 hnegative hwhole)]
    exact ⟨fun _ hw => absurd hw hwhole, fun _ => safe_cons.mpr ⟨inside_header h0, safe_nil⟩⟩

/-- Every access stays inside its region exactly for the packets that fit. -/
theorem accesses_inside_iff (sys : Input) (packetLength : Int) (b : Buffer) (hlen : IsInt32 packetLength) :
    (∀ a ∈ sys.rpcDispatch packetLength b, a.Inside) ↔ sys.Fits packetLength b := by
  obtain ⟨hlen0, hlen1⟩ := hlen
  show Safe (sys.rpcDispatch packetLength b) ↔ _
  rw [Input.rpcDispatch]
  have hsize : sizeofRpcHdr = 64 := rfl
  by_cases hshort : uint32 packetLength < sizeofRpcHdr
  · rw [if_pos hshort]
    rw [uint32, hsize] at hshort
    exact ⟨fun _ => ⟨by omega, fun h => by omega, fun h hadm => absurd hadm.1 (by omega)⟩, fun _ => safe_nil⟩
  rw [if_neg hshort, safe_cons]
  rw [uint32, hsize] at hshort
  -- a negative length passes as a large one, and the header is not in the packet
  by_cases hneg : packetLength < 0
  · refine ⟨fun h => ?_, fun h => absurd h.length (by omega)⟩
    have hfit : (0 : Int) ≤ 0 ∧ (0 : Int) + (64 : Nat) ≤ packetLength := h.1 (Int.natCast_pos.mpr (by decide))
    omega
  have h0 : 64 ≤ packetLength := by omega
  rw [and_iff_right (inside_header h0)]
  by_cases hver : (RpcHdr.read b).version = sys.swappedVersion
  · rw [if_pos hver, safe_swapped h0 hlen1]
    constructor
    · rintro ⟨hnegative, hreceives⟩
      refine ⟨by omega, fun _ _ => hnegative, fun h hadm => ?_⟩
      obtain ⟨rfl, hok, hwhole⟩ := (admits_of_swapped h0 hver h).mp hadm
      exact hreceives hwhole hok
    · exact fun h => ⟨h.params h0 hver, fun hwhole hok =>
        h.receiver _ ((admits_of_swapped h0 hver _).mpr ⟨rfl, hok, hwhole⟩)⟩
  rw [if_neg hver]
  by_cases hnative : (RpcHdr.read b).version = sys.nativeVersion
  · rw [if_neg (not_not.mpr hnative), safe_dispatchNative h0]
    constructor
    · intro hreceives
      refine ⟨by omega, fun _ h => absurd h hver, fun h hadm => ?_⟩
      obtain ⟨rfl, hok, -⟩ := (admits_of_native h0 hver h).mp hadm
      exact hreceives hok
    · exact fun h hok => h.receiver _ ((admits_of_native h0 hver _).mpr ⟨rfl, hok, hnative⟩)
  · rw [if_pos hnative]
    refine ⟨fun _ => ⟨by omega, fun _ h => absurd h hver, fun h hadm => ?_⟩, fun _ => safe_nil⟩
    exact absurd ((admits_of_native h0 hver h).mp hadm).2.2 hnative

/-- A request whose parameters, four bytes, are for the four bytes before the buffer. -/
def beforeBuffer : Buffer :=
  setWord 56 0xfffffffc (setWord 48 4 (setWord 28 1 (setWord 12 1 (setWord 8 2 (setWord 4 0x110
    (setWord 0 0x0f0e0003 (fun _ => 0)))))))

def serverBuffers : Buffers :=
  ⟨RpcHdr.read (fun _ => 0), maxParamSize, fun _ => 0, maxDataSize, fun _ => 0⟩

theorem sized_serverBuffers : serverBuffers.Sized :=
  ⟨by decide, by decide, by decide, by decide⟩

/-- A server process that has done nothing yet. -/
def freshServer : RpcServerState where
  index := 0
  ID := 0
  state := srvWaiting
  age := 0
  clientID := 2
  channel := 0
  fragsDelivered := 0
  fragsReceived := 0
  request := serverBuffers
  replyRpcHdr := RpcHdr.read (fun _ => 0)
  reply := ⟨fun _ => 0, 0, fun _ => 0, 0⟩
  actualDataSize := 0
  actualParamSize := 0

/-- A host with one server process. -/
def oneServer : Input where
  nativeVersion := 0x0f0e0003
  swappedVersion := 0x03000e0f
  broadcastServerID := 0
  spriteID := 1
  errorSync := false
  minBytes := 60
  maxBytes := 1500
  hdrToID := -1
  hdrToID_lt := by decide
  holdForRecovery := fun _ _ => false
  serverAlloc := fun _ => some freshServer
  sized_request := fun _ _ h => by
    cases h
    exact sized_serverBuffers
  channels := []
  sized_reply := fun _ h => absurd h List.not_mem_nil

theorem writes_before_buffer :
    ¬∀ (sys : Input) (packetLength : Int) (b : Buffer), IsInt32 packetLength →
      ∀ a ∈ sys.rpcDispatch packetLength b, a.Inside := by
  intro h
  have hmem : (⟨.param 1024, -4, 4⟩ : Access) ∈ oneServer.rpcDispatch 68 beforeBuffer := by decide
  have hinside : (⟨.param 1024, -4, 4⟩ : Access).Inside := h oneServer 68 beforeBuffer ⟨by decide, by decide⟩ _ hmem
  exact absurd hinside (by decide)

/-- The same request for the first bytes of the buffer. -/
theorem fits_at_start : oneServer.Fits 68 (setWord 56 0 beforeBuffer) :=
  (accesses_inside_iff oneServer 68 (setWord 56 0 beforeBuffer) ⟨by decide, by decide⟩).mp (by decide)

end SpriteKernel.Rpc
