import SpriteKernel.Fsconsist.ClientUse
import SpriteKernel.Lib.Tally
import SpriteKernel.Lib.Transition
import Mathlib.Logic.Function.Basic

/- Streams that move between hosts (`fsioStream.c`, `fsioClientList.c`, `fsioMigrate.c`). A host has its own handle
   for a stream it uses; the I/O server has a shadow, which lists the hosts, and its I/O handle counts a stream once
   for each. A migration is the encapsulation on the source and `Fsio_DeencapStream` on the destination, with its
   call of the server and the server's call-back. The I/O handle's reference count, names, the recovery box, and what
   only a failed RPC leads to are not kept. -/
namespace SpriteKernel.Fsio

open Function List UseCounts

open SpriteKernel SpriteKernel.Fsconsist Transition

def migrateUseCounts (flags : UseFlags) (closeSrcClient : Bool) (use : UseCounts) : UseCounts :=
  if flags.newStream && !closeSrcClient then use + ofFlags flags
  else if !flags.newStream && closeSrcClient then use - ofFlags flags
  else use

def migrateClient (fresh : Nat) (srcClientID dstClientID : HostId) (flags : UseFlags)
    (closeSrcClient : Bool) (l : ClientList) : Except Panic ClientList :=
  let opened (l : ClientList) : ClientList :=
    if flags.newStream then l.ioClientOpen fresh dstClientID flags false else l
  if closeSrcClient then
    match l.ioClientClose srcClientID flags false with
    | .error e => .error e
    | .ok r => .ok (opened r.list)
  else .ok (opened l)

theorem migrateUseCounts_eq (flags : UseFlags) (closeSrcClient : Bool) (use : UseCounts) :
    migrateUseCounts flags closeSrcClient use =
      use + (if flags.newStream then ofFlags flags else 0) -
        if closeSrcClient then ofFlags flags else 0 := by
  unfold migrateUseCounts
  cases flags.newStream <;> cases closeSrcClient <;> simp

theorem migrateClient_spec {fresh : Nat} {src dst : HostId} {flags : UseFlags} {closeSrcClient : Bool}
    {l : ClientList} (hw : l.Wf fresh) (hsrc : closeSrcClient = true → l.Has src flags) :
    ∃ l', migrateClient fresh src dst flags closeSrcClient l = .ok l' ∧ l'.Wf (fresh + 1) ∧
      ∀ k, l'.useOf k = l.useOf k + (if k = dst ∧ flags.newStream = true then ofFlags flags else 0) -
        if k = src ∧ closeSrcClient = true then ofFlags flags else 0 := by
  -- the open at the destination, whatever the close at the source left
  have hopen : ∀ l : ClientList, l.Wf fresh →
      (if flags.newStream then l.ioClientOpen fresh dst flags false else l).Wf (fresh + 1) ∧
      ∀ k, (if flags.newStream then l.ioClientOpen fresh dst flags false else l).useOf k =
        l.useOf k + if k = dst ∧ flags.newStream = true then ofFlags flags else 0 := by
    intro l hl
    by_cases hn : flags.newStream = true
    · simp only [hn, if_true, and_true]
      exact ⟨hl.ioClientOpen dst flags false, ClientList.useOf_ioClientOpen fresh dst flags false l⟩
    · simp only [hn, Bool.false_eq_true, if_false, and_false, add_zero, implies_true, and_true]
      exact hl.mono (Nat.le_succ fresh)
  unfold migrateClient
  cases closeSrcClient with
  | true =>
    obtain ⟨r, hr, -, hwr, hclosed⟩ := (hsrc rfl).ioClientClose hw false
    obtain ⟨hw', huse⟩ := hopen r.list hwr
    simp only [if_true, hr, and_true]
    refine ⟨_, rfl, hw', fun k => ?_⟩
    rw [huse, hclosed]
    abel
  | false =>
    obtain ⟨hw', huse⟩ := hopen l hw
    simp only [Bool.false_eq_true, if_false, and_false, sub_zero]
    exact ⟨_, rfl, hw', huse⟩

namespace Migrate

/-- `Fs_Stream`, as one host has it. -/
structure Stream where
  refCount : Int
  flags : UseFlags
  offset : Int
  clientList : List HostId
  deriving DecidableEq, Repr

/-- `Fsio_MigInfo`: the stream as it is packaged up. -/
structure MigInfo where
  streamID : FileId
  srcClientID : HostId
  flags : UseFlags
  offset : Int
  deriving DecidableEq, Repr

/-- What the I/O handle keeps about its users. -/
structure IOHandle where
  use : UseCounts := 0
  clientList : ClientList := []
  fresh : Nat := 0

/-- The streams on one I/O handle, in the handle tables of all hosts. -/
structure Net where
  stream : FileId × HostId → Option Stream := fun _ => none
  handle : IOHandle := {}
  panic : Option Panic := none

/-- What `Fsio_StreamClientOpen` returns, stores in `*foundPtr` and leaves. -/
structure ClientOpen where
  shared : Bool
  found : Bool
  list : List HostId
  deriving DecidableEq, Repr

def streamClientOpen (clientID : HostId) (l : List HostId) : ClientOpen :=
  ⟨l.any (fun c => c != clientID), l.contains clientID,
    if l.contains clientID then l else clientID :: l⟩

/-- `Fsio_StreamClientClose`: whether the list is empty afterwards, and the list. -/
def streamClientClose (clientID : HostId) (l : List HostId) : Bool × List HostId :=
  ((l.erase clientID).isEmpty, l.erase clientID)

namespace Net

/-- Put a stream into a handle table, or take it out. -/
def put (n : Net) (k : FileId × HostId) (s : Option Stream) : Net :=
  { n with stream := update n.stream k s }

/-- `Fsio_StreamAddClient` on `host`, and what it stores in `*foundClientPtr`. -/
def streamAddClient (n : Net) (streamID : FileId) (host clientID : HostId) (useFlags : UseFlags) : Net × Bool :=
  let s : Stream :=
    match n.stream (streamID, host) with
    | some s => { s with refCount := s.refCount + 1 }
    | none => { refCount := 1, flags := useFlags, offset := 0, clientList := [] }
  let c := streamClientOpen clientID s.clientList
  (n.put (streamID, host) (some { s with clientList := c.list }), c.found)

/-- `Fsutil_HandleRelease` of a stream on `host`. -/
def handleRelease (n : Net) (streamID : FileId) (host : HostId) : Net :=
  n.put (streamID, host) ((n.stream (streamID, host)).map (fun s => { s with refCount := s.refCount - 1 }))

/-- Whether the stream is still in use on the source, and its offset; `none` for `FS_STALE_HANDLE`. -/
def streamMigCloseNew (n : Net) (streamID : FileId) (host : HostId) : Option (Bool × Int × Net) :=
  match n.stream (streamID, host) with
  | none => none
  | some s =>
    if !s.clientList.contains host then none
    else
      -- one reference for the service stub, and the migrated one gone
      let refCount := s.refCount + 1 - 1
      let c := streamClientClose host s.clientList
      if refCount ≤ 1 && c.1 then some (false, s.offset, n.put (streamID, host) none)
      else
        let clientList := if refCount ≤ 1 then c.2 else s.clientList
        some (true, s.offset, n.put (streamID, host)
          (some { s with refCount := refCount - 1, clientList := clientList,
                         flags := { s.flags with rmtShared := true } }))

/-- `Fsio_StreamMigClient` on the I/O server: `*closeSrcClientPtr`, and what it makes of
`*migInfoPtr`. -/
def streamMigClient (server : HostId) (n : Net) (mig : MigInfo) (dstClientID : HostId) :
    Option (Bool × MigInfo × Net) :=
  let s : Stream :=
    match n.stream (mig.streamID, server) with
    | some s => { s with refCount := s.refCount + 1 }
    | none =>
      { refCount := 1, flags := { mig.flags with newStream := false }, offset := mig.offset, clientList := [] }
  let released : Option (Bool × Stream × Net) :=
    if mig.srcClientID ≠ server then
      (n.streamMigCloseNew mig.streamID mig.srcClientID).map
        (fun (shared, offset, n) => (shared, if s.flags.rmtShared then s else { s with offset := offset }, n))
    else
      let s := { s with refCount := s.refCount - 1 }
      some (decide (s.refCount > 1), s, n)
  released.map (fun (shared, s, n) =>
    let clientList := if shared then s.clientList else (streamClientClose mig.srcClientID s.clientList).2
    let c := streamClientOpen dstClientID clientList
    let s := { s with clientList := c.list, flags := { s.flags with rmtShared := c.shared } }
    let flags := { s.flags with newStream := s.flags.newStream || mig.flags.newStream }
    (!shared, { mig with flags := flags, offset := s.offset },
      n.put (mig.streamID, server) (some { s with refCount := s.refCount - 1 })))

/-- The I/O handle's `migrate` routine on its server, as `Fsio_DeviceMigrate` and `Fsio_PipeMigrate` have it. -/
def migrate (server : HostId) (n : Net) (mig : MigInfo) (dstClientID : HostId) : Option (MigInfo × Net) :=
  (n.streamMigClient server mig dstClientID).map (fun (closeSrcClient, mig, n) =>
    let use := migrateUseCounts mig.flags closeSrcClient n.handle.use
    match migrateClient n.handle.fresh mig.srcClientID dstClientID mig.flags closeSrcClient n.handle.clientList with
    | .error e => (mig, { n with panic := some e })
    | .ok l => (mig, { n with handle := { use := use, clientList := l, fresh := n.handle.fresh + 1 } }))

/-- `Fsio_EncapStream` on the source. -/
def encapStream (streamID : FileId) (host : HostId) (s : Stream) : MigInfo :=
  { streamID := streamID, srcClientID := host, flags := s.flags, offset := s.offset }

/-- `Fsio_DeencapStream` on `host`; `none` where it does not return `SUCCESS`. -/
def deencapStream (server : HostId) (n : Net) (mig : MigInfo) (host : HostId) : Option Net :=
  if mig.srcClientID = host then
    (n.stream (mig.streamID, host)).map
      (fun s => n.put (mig.streamID, host) (some { s with refCount := s.refCount + 1 }))
  else
    let (n, foundClient) := n.streamAddClient mig.streamID host host { mig.flags with newStream := false }
    let n :=
      if foundClient then n
      else n.put (mig.streamID, host) ((n.stream (mig.streamID, host)).map (fun s => { s with offset := mig.offset }))
    (n.migrate server { mig with flags := { mig.flags with newStream := !foundClient } } host).map
      (fun (mig, n) => n.put (mig.streamID, host)
        ((n.stream (mig.streamID, host)).map
          (fun s => { s with flags := { mig.flags with newStream := false }, offset := mig.offset })))

/-- An open of a stream with a new ID, on the client and on the I/O server (`Fs_Open` and `Fsio_DeviceIoOpen`). -/
def ioOpen (server : HostId) (n : Net) (streamID : FileId) (clientID : HostId) (useFlags : UseFlags) : Net :=
  let n := (n.streamAddClient streamID clientID clientID useFlags).1
  let n := (n.streamAddClient streamID server clientID useFlags).1
  let n := n.handleRelease streamID server
  { n with
    handle :=
      { use := n.handle.use + ofFlags useFlags
        clientList := n.handle.clientList.ioClientOpen n.handle.fresh clientID useFlags false
        fresh := n.handle.fresh + 1 } }

def refs (n : Net) (k : FileId × HostId) : Int :=
  match n.stream k with
  | some s => s.refCount
  | none => 0

def holds (n : Net) (k : FileId × HostId) : Prop := 0 < n.refs k

instance (n : Net) : DecidablePred n.holds := fun k => inferInstanceAs (Decidable (0 < n.refs k))

end Net

inductive Label where
  | ioOpen (streamID : FileId) (clientID : HostId) (useFlags : UseFlags)
  | streamCopy (streamID : FileId) (host : HostId)
  | migrate (streamID : FileId) (srcClientID dstClientID : HostId)
  deriving DecidableEq, Repr

/-- A stream is opened under a new ID, without the kernel's own flags; only a reference that is held moves. -/
def step (server : HostId) (n : Net) (l : Label) : Option Net :=
  if n.panic.isSome then none
  else
    match l with
    | .ioOpen streamID clientID useFlags =>
      if (n.stream (streamID, server)).isSome || useFlags.newStream || useFlags.rmtShared then none
      else some (n.ioOpen server streamID clientID useFlags)
    | .streamCopy streamID host =>
      match n.stream (streamID, host) with
      | none => none
      | some s =>
        if 0 < s.refCount then some (n.put (streamID, host) (some { s with refCount := s.refCount + 1 })) else none
    | .migrate streamID srcClientID dstClientID =>
      match n.stream (streamID, srcClientID) with
      | none => none
      | some s =>
        if 0 < s.refCount then n.deencapStream server (Net.encapStream streamID srcClientID s) dstClientID else none

/-! ## The client list of a stream -/

variable {c : HostId} {l : List HostId}

theorem mem_streamClientOpen {h : HostId} : h ∈ (streamClientOpen c l).list ↔ h = c ∨ h ∈ l := by
  simp only [streamClientOpen, contains_eq_mem, decide_eq_true_eq]
  split
  · next hc =>
    refine ⟨.inr, fun hh => ?_⟩
    rcases hh with rfl | hh
    · exact hc
    · exact hh
  · exact mem_cons

theorem nodup_streamClientOpen (h : l.Nodup) : (streamClientOpen c l).list.Nodup := by
  simp only [streamClientOpen, contains_eq_mem, decide_eq_true_eq]
  split
  · exact h
  · next hc => exact nodup_cons.mpr ⟨hc, h⟩

theorem two_le_length_iff (h : l.Nodup) (hc : c ∈ l) : 2 ≤ l.length ↔ ∃ d ∈ l, d ≠ c := by
  constructor
  · intro hlen
    by_contra hno
    have hsub : l ⊆ [c] := by
      intro d hd
      rw [mem_singleton]
      by_contra hne
      exact hno ⟨d, hd, hne⟩
    have hle := (subperm_of_subset h hsub).length_le
    simp only [length_singleton] at hle
    omega
  · intro hd
    obtain ⟨d, hd, hne⟩ := hd
    have hpair : [d, c].Nodup := by simpa using hne
    exact (subperm_of_subset hpair (by simp [hd, hc])).length_le

theorem shared_streamClientOpen (h : l.Nodup) :
    (streamClientOpen c l).shared = true ↔ 2 ≤ (streamClientOpen c l).list.length := by
  rw [two_le_length_iff (nodup_streamClientOpen h) (mem_streamClientOpen.mpr (.inl rfl))]
  simp only [mem_streamClientOpen]
  constructor
  · intro hs
    obtain ⟨d, hd, hne⟩ := any_eq_true.mp hs
    exact ⟨d, .inr hd, by simpa using hne⟩
  · intro hd
    obtain ⟨d, hd | hd, hne⟩ := hd
    · exact absurd hd hne
    · exact any_eq_true.mpr ⟨d, hd, by simpa using hne⟩

/-- The shadow after a reference has moved, with or without the last one of its source. -/
def Stream.moved (t : Stream) (shared : Bool) (src dst : HostId) (refCount offset : Int) : Stream :=
  let c := streamClientOpen dst (if shared then t.clientList else t.clientList.erase src)
  { refCount := refCount, flags := { t.flags with rmtShared := c.shared }, offset := offset, clientList := c.list }

/-! ## The handle tables -/

namespace Net

@[simp] theorem put_stream_self (n : Net) (k : FileId × HostId) (s : Option Stream) : (n.put k s).stream k = s :=
  update_self ..

variable {k : FileId × HostId}

theorem put_stream_of_ne (n : Net) {j : FileId × HostId} (h : j ≠ k) (s : Option Stream) :
    (n.put k s).stream j = n.stream j :=
  update_of_ne h ..

variable {n : Net} {s : Stream}

theorem refs_of_stream (h : n.stream k = some s) : n.refs k = s.refCount := by
  unfold refs
  rw [h]

theorem refs_of_none (h : n.stream k = none) : n.refs k = 0 := by
  unfold refs
  rw [h]

variable {m : Net}

theorem refs_congr (h : m.stream k = n.stream k) : m.refs k = n.refs k := by
  unfold refs
  rw [h]

theorem stream_of_holds (h : n.holds k) : ∃ s, n.stream k = some s ∧ 0 < s.refCount := by
  unfold holds at h
  cases hs : n.stream k with
  | some s =>
    rw [refs_of_stream hs] at h
    exact ⟨s, rfl, h⟩
  | none =>
    rw [refs_of_none hs] at h
    exact absurd h (Int.lt_irrefl 0)

def counts (n : Net) (k : FileId × HostId) : UseCounts :=
  match n.stream k with
  | some s => if 0 < s.refCount then ofFlags s.flags else 0
  | none => 0

theorem counts_congr (h : m.stream k = n.stream k) : m.counts k = n.counts k := by
  unfold counts
  rw [h]

/-- A shadow lists the hosts that hold a reference, and is marked when there are two. -/
structure Lists (n : Net) (streamID : FileId) (t : Stream) : Prop where
  newStream : t.flags.newStream = false
  nodup : t.clientList.Nodup
  mem : ∀ h, h ∈ t.clientList ↔ n.holds (streamID, h)
  shared : t.flags.rmtShared = true ↔ 2 ≤ t.clientList.length
  nonneg : 0 ≤ t.refCount

/-- The tables agree with each other, and the I/O handle with the tables. -/
structure Agrees (server : HostId) (n : Net) : Prop where
  running : n.panic = none
  remote : ∀ id h s, h ≠ server → n.stream (id, h) = some s → 0 < s.refCount ∧ s.clientList = [h]
  shadow : ∀ id h s, n.stream (id, h) = some s →
    ∃ t, n.stream (id, server) = some t ∧ ofFlags s.flags = ofFlags t.flags
  lists : ∀ id t, n.stream (id, server) = some t → n.Lists id t
  use : Tally.Sums n.counts n.handle.use
  clients : ∀ h, Tally.Sums (fun id => n.counts (id, h)) (n.handle.clientList.useOf h)
  wf : n.handle.clientList.Wf n.handle.fresh

theorem agrees_init (server : HostId) : Agrees server {} where
  running := rfl
  remote := fun _ _ _ _ h => nomatch h
  shadow := fun _ _ _ h => nomatch h
  lists := fun _ _ h => nomatch h
  use := Tally.sums_zero
  clients := fun _ => Tally.sums_zero
  wf := ClientList.Wf.nil 0

variable {server : HostId} {id : FileId} {t : Stream}

theorem Agrees.counts_eq (h : Agrees server n) (ht : n.stream (id, server) = some t) (k : HostId) :
    n.counts (id, k) = if 0 < n.refs (id, k) then ofFlags t.flags else 0 := by
  unfold counts
  cases hs : n.stream (id, k) with
  | none => rw [refs_of_none hs, if_neg (Int.lt_irrefl 0)]
  | some s =>
    obtain ⟨t', ht', hmode⟩ := h.shadow id k s hs
    cases ht.symm.trans ht'
    rw [refs_of_stream hs]
    simp only [hmode]

theorem Agrees.refs_nonneg (h : Agrees server n) (k : FileId × HostId) : 0 ≤ n.refs k := by
  obtain ⟨id, host⟩ := k
  cases hs : n.stream (id, host) with
  | none => exact (refs_of_none hs).ge
  | some s =>
    rw [refs_of_stream hs]
    by_cases hserver : host = server
    · subst hserver
      exact (h.lists id s hs).nonneg
    · exact Int.le_of_lt (h.remote id host s hserver hs).1

/-! ## A migration, host by host -/

/-- The destination has one reference more, and finds its client there if it had one before. -/
structure Arrives (server : HostId) (n n' : Net) (id : FileId) (dst : HostId) (t : Stream) : Prop where
  other : ∀ k, k ≠ (id, dst) → n'.stream k = n.stream k
  handle : n'.handle = n.handle
  panic : n'.panic = n.panic
  here : ∃ d, n'.stream (id, dst) = some d ∧ d.refCount = n.refs (id, dst) + 1 ∧
    ofFlags d.flags = ofFlags t.flags ∧ (dst ≠ server → d.clientList = [dst]) ∧
    (dst = server → d.flags = t.flags ∧ d.clientList = (streamClientOpen server t.clientList).list)

theorem Agrees.arrives {server : HostId} {n : Net} (h : Agrees server n) {id : FileId} {dst : HostId} {t : Stream}
    {useFlags : UseFlags} (ht : n.stream (id, server) = some t)
    (hf : ofFlags useFlags = ofFlags t.flags) :
    Arrives server n (n.streamAddClient id dst dst useFlags).1 id dst t ∧
      ((n.streamAddClient id dst dst useFlags).2 = true ↔ n.holds (id, dst)) := by
  have hother : ∀ k, k ≠ (id, dst) → (n.streamAddClient id dst dst useFlags).1.stream k = n.stream k :=
    fun k hk => put_stream_of_ne n hk _
  cases hs : n.stream (id, dst) with
  | none =>
    have hne : dst ≠ server := by
      intro he
      rw [he, ht] at hs
      simp at hs
    refine ⟨⟨hother, rfl, rfl, ?_⟩, ?_⟩
    · refine ⟨_, put_stream_self n _ _, ?_, ?_, fun _ => ?_, fun he => absurd he hne⟩
      · simp only [hs, refs_of_none hs, zero_add]
      · simp only [hs, hf]
      · simp only [hs, streamClientOpen, contains_nil, Bool.false_eq_true, if_false]
    · simp only [streamAddClient, hs, streamClientOpen, contains_nil, Bool.false_eq_true, false_iff, holds,
        refs_of_none hs]
      exact Int.lt_irrefl 0
  | some s =>
    obtain ⟨t', ht', hmode⟩ := h.shadow id dst s hs
    cases ht.symm.trans ht'
    by_cases hserver : dst = server
    · subst hserver
      cases ht.symm.trans hs
      refine ⟨⟨hother, rfl, rfl, ?_⟩, ?_⟩
      · refine ⟨_, put_stream_self n _ _, ?_, ?_, fun hne => absurd rfl hne, fun _ => ⟨?_, ?_⟩⟩
        · simp only [hs, refs_of_stream hs]
        · simp only [hs]
        · simp only [hs]
        · simp only [hs]
      · simp only [streamAddClient, hs, streamClientOpen, contains_eq_mem, decide_eq_true_eq]
        exact (h.lists id t hs).mem dst
    · obtain ⟨hpos, hlist⟩ := h.remote id dst s hserver hs
      refine ⟨⟨hother, rfl, rfl, ?_⟩, ?_⟩
      · refine ⟨_, put_stream_self n _ _, ?_, ?_, fun _ => ?_, fun he => absurd he hserver⟩
        · simp only [hs, refs_of_stream hs]
        · simp only [hs, hmode]
        · simp only [hs, hlist, streamClientOpen, contains_cons, contains_nil, beq_self_eq_true,
            Bool.true_or, if_true]
      · simp only [streamAddClient, hs, hlist, streamClientOpen, contains_cons, contains_nil,
          beq_self_eq_true, Bool.true_or, true_iff, holds, refs_of_stream hs]
        exact hpos

variable {src : HostId}

theorem streamMigCloseNew_spec (hs : n.stream (id, src) = some s) (hlist : s.clientList = [src]) :
    n.streamMigCloseNew id src =
      some (decide (1 < s.refCount), s.offset, n.put (id, src)
        (if 1 < s.refCount then
          some { s with refCount := s.refCount - 1, flags := { s.flags with rmtShared := true } }
        else none)) := by
  unfold streamMigCloseNew
  simp only [hs, hlist, contains_cons, contains_nil, beq_self_eq_true, Bool.true_or, Bool.not_true,
    Bool.false_eq_true, if_false, add_sub_cancel_right, streamClientClose, erase_cons_head, isEmpty_nil,
    Bool.and_true, decide_eq_true_eq]
  by_cases hlast : s.refCount ≤ 1
  · rw [if_pos hlast, if_neg (by omega)]
    simp only [Int.not_lt.mpr hlast, decide_false]
  · have hmore : 1 < s.refCount := by omega
    rw [if_neg hlast, if_neg hlast, if_pos hmore]
    simp only [hmore, decide_true]

theorem streamMigClient_remote {server : HostId} {n : Net} {mig : MigInfo} {dst : HostId} {s t : Stream}
    (ht : n.stream (mig.streamID, server) = some t) (hne : mig.srcClientID ≠ server)
    (hs : n.stream (mig.streamID, mig.srcClientID) = some s) (hlist : s.clientList = [mig.srcClientID]) :
    ∃ offset o n', n.streamMigClient server mig dst = some (!decide (1 < s.refCount),
        { mig with flags := { (t.moved (decide (1 < s.refCount)) mig.srcClientID dst t.refCount offset).flags with
                               newStream := t.flags.newStream || mig.flags.newStream }, offset := offset }, n') ∧
      n' = (n.put (mig.streamID, mig.srcClientID) o).put (mig.streamID, server)
        (some (t.moved (decide (1 < s.refCount)) mig.srcClientID dst t.refCount offset)) ∧
      o = if 1 < s.refCount then
          some { s with refCount := s.refCount - 1, flags := { s.flags with rmtShared := true } }
        else none := by
  unfold streamMigClient
  simp only [ht, hne, ne_eq, not_false_eq_true, if_true, streamMigCloseNew_spec hs hlist, Option.map_some]
  by_cases hshared : t.flags.rmtShared = true
  · refine ⟨t.offset, _, _, ?_, rfl, rfl⟩
    simp only [hshared, if_true, Stream.moved, streamClientClose, add_sub_cancel_right]
  · refine ⟨s.offset, _, _, ?_, rfl, rfl⟩
    simp only [hshared, if_false, Stream.moved, streamClientClose, add_sub_cancel_right, Bool.false_eq_true]

variable {mig : MigInfo} {dst : HostId}

theorem streamMigClient_local (ht : n.stream (mig.streamID, server) = some t) (he : mig.srcClientID = server) :
    n.streamMigClient server mig dst = some (!decide (1 < t.refCount),
        { mig with flags := { (t.moved (decide (1 < t.refCount)) server dst (t.refCount - 1) t.offset).flags with
                               newStream := t.flags.newStream || mig.flags.newStream }, offset := t.offset },
        n.put (mig.streamID, server)
          (some (t.moved (decide (1 < t.refCount)) server dst (t.refCount - 1) t.offset))) := by
  unfold streamMigClient
  simp only [ht, he, ne_eq, not_true_eq_false, if_false, Option.map_some, add_sub_cancel_right, gt_iff_lt,
    Stream.moved, streamClientClose]

/-- One reference to the stream has gone from `src` to `dst`. -/
structure Moves (server : HostId) (n n' : Net) (id : FileId) (src dst : HostId) : Prop where
  other : ∀ j h, j ≠ id → n'.stream (j, h) = n.stream (j, h)
  refs : ∀ h, n'.refs (id, h) = n.refs (id, h) + (if h = dst then 1 else 0) - (if h = src then 1 else 0)
  remote : ∀ h s, h ≠ server → n'.stream (id, h) = some s → 0 < s.refCount ∧ s.clientList = [h]
  shadow : ∃ t', n'.stream (id, server) = some t' ∧ n'.Lists id t'
  mode : ∀ h s t, n'.stream (id, h) = some s → n.stream (id, server) = some t →
    ofFlags s.flags = ofFlags t.flags

variable {n' : Net} {t₁ : Stream}

/-- The shadow's list after a reference has moved, where the destination may have been
on it before. -/
theorem Agrees.lists_moved (h : Agrees server n) (ht : n.stream (id, server) = some t) (hne : src ≠ dst) (hsrc : n.holds (id, src))
    (hrefs : ∀ k, n'.refs (id, k) = n.refs (id, k) + (if k = dst then 1 else 0) - (if k = src then 1 else 0))
    (hnd : t₁.clientList.Nodup) (hmem : ∀ k, k ≠ dst → (k ∈ t₁.clientList ↔ k ∈ t.clientList))
    (hflags : t₁.flags = t.flags) {shared : Bool} (hshared : shared = true ↔ 1 < n.refs (id, src))
    {refCount offset : Int} (hrc : 0 ≤ refCount) : n'.Lists id (t₁.moved shared src dst refCount offset) := by
  have hold := h.lists id t ht
  have hnd' : (if shared then t₁.clientList else t₁.clientList.erase src).Nodup := by
    split
    · exact hnd
    · exact hnd.erase src
  refine ⟨?_, nodup_streamClientOpen hnd', fun k => ?_, shared_streamClientOpen hnd', hrc⟩
  · change t₁.flags.newStream = false
    rw [hflags]
    exact hold.newStream
  · have hlist : k ∈ (t₁.moved shared src dst refCount offset).clientList ↔
        k = dst ∨ k ∈ if shared then t₁.clientList else t₁.clientList.erase src := mem_streamClientOpen
    have hnonneg := h.refs_nonneg (id, k)
    rw [hlist, holds, hrefs]
    by_cases hkd : k = dst
    · have hks : k ≠ src := fun he => hne (he.symm.trans hkd)
      rw [if_pos hkd, if_neg hks]
      exact ⟨fun _ => by omega, fun _ => .inl hkd⟩
    · have hin := (hmem k hkd).trans (hold.mem k)
      rw [if_neg hkd, add_zero]
      by_cases hks : k = src
      · rw [if_pos hks]
        subst hks
        by_cases hs : shared = true
        · have hmore := hshared.mp hs
          rw [if_pos hs]
          exact ⟨fun _ => by omega, fun _ => .inr (hin.mpr hsrc)⟩
        · have hlast : ¬ 1 < n.refs (id, k) := fun hm => hs (hshared.mpr hm)
          rw [if_neg hs, hnd.mem_erase_iff]
          exact ⟨fun hk => absurd rfl (hk.resolve_left hkd).1, fun hk => absurd hk (by omega)⟩
      · have hk : k ∈ (if shared then t₁.clientList else t₁.clientList.erase src) ↔ k ∈ t₁.clientList := by
          split
          · exact Iff.rfl
          · rw [hnd.mem_erase_iff]
            exact ⟨fun hk => hk.2, fun hk => ⟨hks, hk⟩⟩
        rw [if_neg hks, sub_zero, hk]
        exact ⟨fun hk => hin.mp (hk.resolve_left hkd), fun hk => .inr (hin.mpr hk)⟩

/-- The stream on all hosts once the destination has its reference, with `t₁` for the
shadow. -/
structure Arrived (server : HostId) (n n₁ : Net) (id : FileId) (dst : HostId) (t t₁ : Stream) : Prop where
  handle : n₁.handle = n.handle
  panic : n₁.panic = n.panic
  other : ∀ j k, j ≠ id → n₁.stream (j, k) = n.stream (j, k)
  refs : ∀ k, n₁.refs (id, k) = n.refs (id, k) + if k = dst then 1 else 0
  host : ∀ k s, k ≠ server → n₁.stream (id, k) = some s →
    0 < s.refCount ∧ s.clientList = [k] ∧ ofFlags s.flags = ofFlags t.flags
  shadow : n₁.stream (id, server) = some t₁
  flags : t₁.flags = t.flags
  nodup : t₁.clientList.Nodup
  mem : ∀ k, k ≠ dst → (k ∈ t₁.clientList ↔ k ∈ t.clientList)

variable {n₁ : Net}

theorem Arrives.arrived (h : Agrees server n) (ha : Arrives server n n₁ id dst t) (ht : n.stream (id, server) = some t) :
    ∃ t₁, Arrived server n n₁ id dst t t₁ := by
  have hold := h.lists id t ht
  obtain ⟨d, hd, hdrefs, hdmode, hdremote, hdserver⟩ := ha.here
  have hother : ∀ j k, j ≠ id → n₁.stream (j, k) = n.stream (j, k) :=
    fun j k hj => ha.other _ (fun he => hj (Prod.ext_iff.mp he).1)
  have haway : ∀ k, k ≠ dst → n₁.stream (id, k) = n.stream (id, k) :=
    fun k hk => ha.other _ (fun he => hk (Prod.ext_iff.mp he).2)
  have hrefs : ∀ k, n₁.refs (id, k) = n.refs (id, k) + if k = dst then 1 else 0 := by
    intro k
    by_cases hk : k = dst
    · rw [if_pos hk, hk, refs_of_stream hd, hdrefs]
    · rw [if_neg hk, add_zero, refs_congr (haway k hk)]
  have hhost : ∀ k s, k ≠ server → n₁.stream (id, k) = some s →
      0 < s.refCount ∧ s.clientList = [k] ∧ ofFlags s.flags = ofFlags t.flags := by
    intro k s hk hs
    by_cases hkd : k = dst
    · subst hkd
      cases hd.symm.trans hs
      have hnonneg := h.refs_nonneg (id, k)
      exact ⟨by omega, hdremote hk, hdmode⟩
    · rw [haway k hkd] at hs
      obtain ⟨t', ht', hmode⟩ := h.shadow id k s hs
      cases ht.symm.trans ht'
      obtain ⟨hpos, hlist⟩ := h.remote id k s hk hs
      exact ⟨hpos, hlist, hmode⟩
  by_cases hds : dst = server
  · obtain ⟨hdflags, hdlist⟩ := hdserver hds
    refine ⟨d, ha.handle, ha.panic, hother, hrefs, hhost, hds ▸ hd, hdflags, ?_, fun k hk => ?_⟩
    · rw [hdlist]
      exact nodup_streamClientOpen hold.nodup
    · rw [hdlist, mem_streamClientOpen, ← hds]
      exact ⟨fun hm => hm.resolve_left hk, .inr⟩
  · refine ⟨t, ha.handle, ha.panic, hother, hrefs, hhost, ?_, rfl, hold.nodup, fun _ _ => Iff.rfl⟩
    rw [haway server (Ne.symm hds)]
    exact ht

/-- The server decides whether the source is done with the stream; the three hosts have what the move asks for. -/
def Decides (server : HostId) (n n₁ : Net) (mig : MigInfo) (dst : HostId) (t : Stream) : Prop :=
  ∃ flags offset n', n₁.streamMigClient server mig dst =
      some (decide (n.refs (mig.streamID, mig.srcClientID) ≤ 1), { mig with flags := flags, offset := offset }, n') ∧
    Moves server n n' mig.streamID mig.srcClientID dst ∧ n'.handle = n.handle ∧ n'.panic = n.panic ∧
    flags.newStream = mig.flags.newStream ∧ ofFlags flags = ofFlags t.flags ∧
    ∀ t', n'.stream (mig.streamID, server) = some t' → flags.rmtShared = t'.flags.rmtShared

theorem Arrived.decides_local (h : Agrees server n) (ha : Arrived server n n₁ mig.streamID dst t t₁) (ht : n.stream (mig.streamID, server) = some t)
    (hss : mig.srcClientID = server) (hne : server ≠ dst) (hsrc : n.holds (mig.streamID, server)) :
    Decides server n n₁ mig dst t := by
  have hrefs : t₁.refCount = n.refs (mig.streamID, server) := by
    rw [← refs_of_stream ha.shadow, ha.refs, if_neg hne, add_zero]
  have hpos : 0 < n.refs (mig.streamID, server) := hsrc
  have hkey : ∀ k, k ≠ server → (mig.streamID, k) ≠ (mig.streamID, server) :=
    fun k hk he => hk (Prod.ext_iff.mp he).2
  let t' := t₁.moved (decide (1 < t₁.refCount)) server dst (t₁.refCount - 1) t₁.offset
  have ht' : (n₁.put (mig.streamID, server) (some t')).stream (mig.streamID, server) = some t' :=
    put_stream_self n₁ _ _
  have haway : ∀ k, k ≠ server →
      (n₁.put (mig.streamID, server) (some t')).stream (mig.streamID, k) = n₁.stream (mig.streamID, k) :=
    fun k hk => put_stream_of_ne n₁ (hkey k hk) _
  have hrefs' : ∀ k, (n₁.put (mig.streamID, server) (some t')).refs (mig.streamID, k) =
      n.refs (mig.streamID, k) + (if k = dst then 1 else 0) - (if k = server then 1 else 0) := by
    intro k
    by_cases hk : k = server
    · rw [hk, refs_of_stream ht', if_neg hne, if_pos rfl, add_zero, ← hrefs]
      rfl
    · rw [refs_congr (haway k hk), ha.refs, if_neg hk, sub_zero]
  have hlists : (n₁.put (mig.streamID, server) (some t')).Lists mig.streamID t' := by
    refine h.lists_moved ht hne hsrc hrefs' ha.nodup ha.mem ha.flags ?_ (by omega)
    rw [decide_eq_true_eq, hrefs]
  refine ⟨{ t'.flags with newStream := t₁.flags.newStream || mig.flags.newStream }, t₁.offset,
    n₁.put (mig.streamID, server) (some t'), (streamMigClient_local ha.shadow hss).trans ?_,
    ⟨fun j k hj => ?_, by rw [hss]; exact hrefs', fun k s hk hs => ?_, ⟨t', ht', hlists⟩, fun k s u hs hu => ?_⟩,
    ha.handle, ha.panic, ?_, ?_, fun u hu => ?_⟩
  · have hclose : (!decide (1 < t₁.refCount)) = decide (n.refs (mig.streamID, mig.srcClientID) ≤ 1) := by
      rw [hrefs, hss, ← decide_not]
      exact decide_eq_decide.mpr Int.not_lt
    rw [hclose]
  · rw [put_stream_of_ne n₁ (fun he => hj (Prod.ext_iff.mp he).1), ha.other j k hj]
  · rw [haway k hk] at hs
    obtain ⟨hcount, hlist, -⟩ := ha.host k s hk hs
    exact ⟨hcount, hlist⟩
  · cases ht.symm.trans hu
    by_cases hk : k = server
    · rw [hk] at hs
      cases ht'.symm.trans hs
      rw [← ha.flags]
      rfl
    · rw [haway k hk] at hs
      exact (ha.host k s hk hs).2.2
  · simp only [ha.flags, (h.lists _ t ht).newStream, Bool.false_or]
  · rw [← ha.flags]
    rfl
  · cases ht'.symm.trans hu
    rfl

theorem Arrived.decides_remote (h : Agrees server n) (ha : Arrived server n n₁ mig.streamID dst t t₁) (ht : n.stream (mig.streamID, server) = some t)
    (hss : mig.srcClientID ≠ server) (hne : mig.srcClientID ≠ dst) (hsrc : n.holds (mig.streamID, mig.srcClientID)) :
    Decides server n n₁ mig dst t := by
  have hpos : 0 < n.refs (mig.streamID, mig.srcClientID) := hsrc
  have hrefs₁ : n₁.refs (mig.streamID, mig.srcClientID) = n.refs (mig.streamID, mig.srcClientID) := by
    rw [ha.refs, if_neg hne, add_zero]
  obtain ⟨s, hs, -⟩ := stream_of_holds (n := n₁) (k := (mig.streamID, mig.srcClientID)) (by
    unfold holds
    rw [hrefs₁]
    exact hpos)
  obtain ⟨-, hlist, hmode⟩ := ha.host _ s hss hs
  have hcount : s.refCount = n.refs (mig.streamID, mig.srcClientID) := by rw [← refs_of_stream hs, hrefs₁]
  obtain ⟨offset, o, n', hres, hn', ho⟩ := @streamMigClient_remote server n₁ mig dst s t₁ ha.shadow hss hs hlist
  let t' := t₁.moved (decide (1 < s.refCount)) mig.srcClientID dst t₁.refCount offset
  have ht' : n'.stream (mig.streamID, server) = some t' := by
    rw [hn']
    exact put_stream_self _ _ _
  have hsource : n'.stream (mig.streamID, mig.srcClientID) = o := by
    rw [hn', put_stream_of_ne _ (fun he => hss (Prod.ext_iff.mp he).2)]
    exact put_stream_self _ _ _
  have haway : ∀ k, k ≠ server → k ≠ mig.srcClientID →
      n'.stream (mig.streamID, k) = n₁.stream (mig.streamID, k) := by
    intro k hk hks
    rw [hn', put_stream_of_ne _ (fun he => hk (Prod.ext_iff.mp he).2),
      put_stream_of_ne _ (fun he => hks (Prod.ext_iff.mp he).2)]
  have hrefs' : ∀ k, n'.refs (mig.streamID, k) =
      n.refs (mig.streamID, k) + (if k = dst then 1 else 0) - (if k = mig.srcClientID then 1 else 0) := by
    intro k
    by_cases hk : k = server
    · have hks : k ≠ mig.srcClientID := fun he => hss (he.symm.trans hk)
      rw [if_neg hks, sub_zero, ← ha.refs, hk, refs_of_stream ht', refs_of_stream ha.shadow]
      rfl
    · by_cases hks : k = mig.srcClientID
      · rw [if_pos hks, hks, if_neg hne, add_zero]
        by_cases hmore : 1 < s.refCount
        · rw [if_pos hmore] at ho
          rw [refs_of_stream (hsource.trans ho), hcount]
        · rw [if_neg hmore] at ho
          rw [refs_of_none (hsource.trans ho)]
          omega
      · rw [refs_congr (haway k hk hks), ha.refs, if_neg hks, sub_zero]
  have hlists : n'.Lists mig.streamID t' := by
    refine h.lists_moved ht hne hsrc hrefs' ha.nodup ha.mem ha.flags ?_ ?_
    · rw [decide_eq_true_eq, hcount]
    · have hnonneg := h.refs_nonneg (mig.streamID, server)
      have hshadow := ha.refs server
      rw [refs_of_stream ha.shadow] at hshadow
      split at hshadow <;> omega
  refine ⟨{ t'.flags with newStream := t₁.flags.newStream || mig.flags.newStream }, offset, n', hres.trans ?_,
    ⟨fun j k hj => ?_, hrefs', fun k u hk hu => ?_, ⟨t', ht', hlists⟩, fun k u v hu hv => ?_⟩,
    ?_, ?_, ?_, ?_, fun u hu => ?_⟩
  · have hclose : (!decide (1 < s.refCount)) = decide (n.refs (mig.streamID, mig.srcClientID) ≤ 1) := by
      rw [hcount, ← decide_not]
      exact decide_eq_decide.mpr Int.not_lt
    rw [hclose]
  · rw [hn', put_stream_of_ne _ (fun he => hj (Prod.ext_iff.mp he).1),
      put_stream_of_ne _ (fun he => hj (Prod.ext_iff.mp he).1), ha.other j k hj]
  · by_cases hks : k = mig.srcClientID
    · rw [hks, hsource, ho] at hu
      split at hu
      · cases hu
        exact ⟨by simp only; omega, by rw [hks]; exact hlist⟩
      · simp at hu
    · rw [haway k hk hks] at hu
      obtain ⟨hcount', hlist', -⟩ := ha.host k u hk hu
      exact ⟨hcount', hlist'⟩
  · cases ht.symm.trans hv
    by_cases hk : k = server
    · rw [hk] at hu
      cases ht'.symm.trans hu
      rw [← ha.flags]
      rfl
    · by_cases hks : k = mig.srcClientID
      · rw [hks, hsource, ho] at hu
        split at hu
        · cases hu
          exact hmode
        · simp at hu
      · rw [haway k hk hks] at hu
        exact (ha.host k u hk hu).2.2
  · rw [hn']
    exact ha.handle
  · rw [hn']
    exact ha.panic
  · simp only [ha.flags, (h.lists _ t ht).newStream, Bool.false_or]
  · rw [← ha.flags]
    rfl
  · cases ht'.symm.trans hu
    rfl

theorem Arrived.decides {server : HostId} {n n₁ : Net} (h : Agrees server n) {mig : MigInfo} {dst : HostId}
    {t t₁ : Stream} (ha : Arrived server n n₁ mig.streamID dst t t₁) (ht : n.stream (mig.streamID, server) = some t)
    (hne : mig.srcClientID ≠ dst) (hsrc : n.holds (mig.streamID, mig.srcClientID)) :
    Decides server n n₁ mig dst t := by
  by_cases hss : mig.srcClientID = server
  · exact ha.decides_local h ht hss (hss ▸ hne) (hss ▸ hsrc)
  · exact ha.decides_remote h ht hss hne hsrc

/-! ## The counts after a move -/

theorem Lists.congr {t' : Stream} (h : n.Lists id t)
    (hn : ∀ k, n'.refs (id, k) = n.refs (id, k)) (hlist : t'.clientList = t.clientList)
    (hnew : t'.flags.newStream = false) (hshared : t'.flags.rmtShared = t.flags.rmtShared)
    (hcount : t'.refCount = t.refCount) : n'.Lists id t' where
  newStream := hnew
  nodup := hlist ▸ h.nodup
  mem := fun k => by
    rw [hlist, h.mem, holds, holds, hn]
  shared := by rw [hshared, hlist, h.shared]
  nonneg := hcount ▸ h.nonneg

theorem Moves.congr (hm : Moves server n n' id src dst) (h : m.stream = n'.stream) : Moves server n m id src dst := by
  have hrefs : ∀ k, m.refs k = n'.refs k := fun k => refs_congr (congrFun h k)
  obtain ⟨t', ht', hlists⟩ := hm.shadow
  refine ⟨?_, fun k => (hrefs _).trans (hm.refs k), ?_, ⟨t', ?_, ?_⟩, ?_⟩
  · rw [h]
    exact hm.other
  · rw [h]
    exact hm.remote
  · rw [h]
    exact ht'
  · exact hlists.congr (fun k => hrefs _) rfl hlists.newStream rfl rfl
  · rw [h]
    exact hm.mode

/-- What the destination counts for anew. -/
def gained (n : Net) (k : FileId × HostId) (u : UseCounts) : UseCounts := if n.refs k ≤ 0 then u else 0

/-- What the source no longer counts for. -/
def lost (n : Net) (k : FileId × HostId) (u : UseCounts) : UseCounts := if n.refs k ≤ 1 then u else 0

theorem Moves.counts_eq (hm : Moves server n n' id src dst) (ht : n.stream (id, server) = some t) (k : HostId) :
    n'.counts (id, k) = if 0 < n'.refs (id, k) then ofFlags t.flags else 0 := by
  unfold counts
  cases hs : n'.stream (id, k) with
  | none =>
    rw [refs_of_none hs, if_neg (Int.lt_irrefl 0)]
  | some s =>
    rw [refs_of_stream hs]
    simp only [hm.mode k s t hs ht]

theorem Moves.change (h : Agrees server n) (hm : Moves server n n' id src dst) (ht : n.stream (id, server) = some t) (hne : src ≠ dst)
    (hsrc : n.holds (id, src)) (k : HostId) :
    n'.counts (id, k) - n.counts (id, k) =
      (if k = dst then n.gained (id, dst) (ofFlags t.flags) else 0) -
        if k = src then n.lost (id, src) (ofFlags t.flags) else 0 := by
  have hnonneg := h.refs_nonneg (id, k)
  have hpos : 0 < n.refs (id, src) := hsrc
  rw [hm.counts_eq ht, h.counts_eq ht, hm.refs]
  unfold gained lost
  by_cases hkd : k = dst
  · have hks : k ≠ src := fun he => hne (he.symm.trans hkd)
    rw [if_pos hkd, if_pos hkd, if_neg hks, if_neg hks, if_pos (by omega), sub_zero, ← hkd]
    by_cases hnone : n.refs (id, k) ≤ 0
    · rw [if_pos hnone, if_neg (by omega), sub_zero]
    · rw [if_neg hnone, if_pos (by omega), sub_self]
  · rw [if_neg hkd, if_neg hkd, add_zero]
    by_cases hks : k = src
    · rw [if_pos hks, if_pos hks, hks, if_pos hpos, zero_sub]
      by_cases hlast : n.refs (id, src) ≤ 1
      · rw [if_neg (by omega), if_pos hlast, zero_sub]
      · rw [if_pos (by omega), if_neg hlast, sub_self, neg_zero]
    · rw [if_neg hks, if_neg hks, sub_zero, sub_self, sub_self]

theorem Agrees.moves {server : HostId} {n n' : Net} (h : Agrees server n) {id : FileId} {src dst : HostId}
    (hm : Moves server n n' id src dst) {t : Stream} (ht : n.stream (id, server) = some t) (hne : src ≠ dst)
    (hsrc : n.holds (id, src)) (hp : n'.panic = none)
    (huse : n'.handle.use = n.handle.use + n.gained (id, dst) (ofFlags t.flags) -
      n.lost (id, src) (ofFlags t.flags))
    (hclients : ∀ k, n'.handle.clientList.useOf k = n.handle.clientList.useOf k +
      ((if k = dst then n.gained (id, dst) (ofFlags t.flags) else 0) -
        if k = src then n.lost (id, src) (ofFlags t.flags) else 0))
    (hw : n'.handle.clientList.Wf n'.handle.fresh) : Agrees server n' := by
  have hchange := hm.change h ht hne hsrc
  have hsame : ∀ j k, j ≠ id → n'.counts (j, k) = n.counts (j, k) := fun j k hj => counts_congr (hm.other j k hj)
  refine ⟨hp, fun j k s hk hs => ?_, fun j k s hs => ?_, fun j u hu => ?_, ?_, fun k => ?_, hw⟩
  · by_cases hj : j = id
    · subst hj
      exact hm.remote k s hk hs
    · exact h.remote j k s hk (hm.other j k hj ▸ hs)
  · by_cases hj : j = id
    · subst hj
      obtain ⟨t', ht', -⟩ := hm.shadow
      exact ⟨t', ht', (hm.mode k s t hs ht).trans (hm.mode server t' t ht' ht).symm⟩
    · rw [hm.other j k hj] at hs
      rw [hm.other j server hj]
      exact h.shadow j k s hs
  · by_cases hj : j = id
    · subst hj
      obtain ⟨t', ht', hlists⟩ := hm.shadow
      cases ht'.symm.trans hu
      exact hlists
    · rw [hm.other j server hj] at hu
      have hold := h.lists j u hu
      exact hold.congr (fun k => refs_congr (hm.other j k hj)) rfl hold.newStream rfl rfl
  · have hends : (id, dst) ≠ (id, src) := fun he => hne (Prod.ext_iff.mp he).2.symm
    have hsum := h.use.change_two (g := n'.counts) hends (fun k hkd hks => ?_)
    · rw [hchange, hchange, if_pos rfl, if_pos rfl, if_neg (Ne.symm hne), if_neg hne, sub_zero, zero_sub,
        ← sub_eq_add_neg] at hsum
      rw [huse]
      exact hsum
    · obtain ⟨j, k⟩ := k
      by_cases hj : j = id
      · subst hj
        have hzero := hchange k
        rw [if_neg (fun he => hkd (by rw [he])), if_neg (fun he => hks (by rw [he])), sub_zero] at hzero
        exact sub_eq_zero.mp hzero
      · exact hsame j k hj
  · have hsum := (h.clients k).change id (g := fun j => n'.counts (j, k)) (fun j hj => hsame j k hj)
    rw [hchange] at hsum
    rw [hclients]
    exact hsum

/-! ## The I/O handle -/

/-- Without one of its streams, what a host has open is still something streams can have. -/
theorem Agrees.feasible (h : Agrees server n) (k : HostId) (id : FileId) :
    (n.handle.clientList.useOf k - n.counts (id, k)).Feasible := by
  refine ((h.clients k).erase id).induction Feasible feasible_zero (fun _ _ => .add)
    (fun j => ?_)
  by_cases hj : j = id
  · subst hj
    rw [update_self]
    exact feasible_zero
  · rw [update_of_ne hj]
    unfold counts
    split
    · split
      · exact feasible_ofFlags _
      · exact feasible_zero
    · exact feasible_zero

theorem Agrees.migrateClient (h : Agrees server n) {flags : UseFlags} (ht : n.stream (id, server) = some t)
    (hsrc : n.holds (id, src)) (hnew : flags.newStream = decide (n.refs (id, dst) ≤ 0))
    (hflags : ofFlags flags = ofFlags t.flags) :
    ∃ l, Fsio.migrateClient n.handle.fresh src dst flags (decide (n.refs (id, src) ≤ 1)) n.handle.clientList = .ok l ∧
      l.Wf (n.handle.fresh + 1) ∧ ∀ k, l.useOf k = n.handle.clientList.useOf k +
        ((if k = dst then n.gained (id, dst) (ofFlags t.flags) else 0) -
          if k = src then n.lost (id, src) (ofFlags t.flags) else 0) := by
  have hpos : 0 < n.refs (id, src) := hsrc
  have hhas : n.handle.clientList.Has src flags := by
    have hrest := h.feasible src id
    rwa [h.counts_eq ht, if_pos hpos, ← hflags] at hrest
  obtain ⟨l, hl, hw, huse⟩ := @migrateClient_spec _ src dst flags _ _ h.wf
    (fun _ : decide (n.refs (id, src) ≤ 1) = true => hhas)
  refine ⟨l, hl, hw, fun k => ?_⟩
  rw [huse, hnew, hflags]
  unfold gained lost
  by_cases hd : n.refs (id, dst) ≤ 0
  · by_cases hs : n.refs (id, src) ≤ 1
    · simp only [hd, hs, decide_true, and_true, if_true]
      abel
    · simp only [hd, hs, decide_true, decide_false, and_true, if_true, if_false, Bool.false_eq_true, and_false, ite_self]
      abel
  · by_cases hs : n.refs (id, src) ≤ 1
    · simp only [hd, hs, decide_true, decide_false, and_true, if_true, if_false, Bool.false_eq_true, and_false, ite_self]
      abel
    · simp only [hd, hs, decide_false, if_false, Bool.false_eq_true, and_false, ite_self]
      abel

/-! ## The steps -/

theorem Moves.finish {server : HostId} {n n' : Net} {id : FileId} {src dst : HostId}
    (hm : Moves server n n' id src dst) {t : Stream} (ht : n.stream (id, server) = some t) {flags : UseFlags}
    {offset : Int} (hnew : flags.newStream = false) (hflags : ofFlags flags = ofFlags t.flags)
    (hshared : ∀ t', n'.stream (id, server) = some t' → flags.rmtShared = t'.flags.rmtShared) :
    Moves server n (n'.put (id, dst) ((n'.stream (id, dst)).map
      (fun s => { s with flags := flags, offset := offset }))) id src dst := by
  have hother : ∀ k, k ≠ (id, dst) → (n'.put (id, dst) ((n'.stream (id, dst)).map
      (fun s => { s with flags := flags, offset := offset }))).stream k = n'.stream k :=
    fun k hk => put_stream_of_ne n' hk _
  have hhere : (n'.put (id, dst) ((n'.stream (id, dst)).map
      (fun s => { s with flags := flags, offset := offset }))).stream (id, dst) = (n'.stream (id, dst)).map
      (fun s => { s with flags := flags, offset := offset }) := put_stream_self n' _ _
  have hkey : ∀ k, k ≠ dst → (id, k) ≠ (id, dst) := fun k hk he => hk (Prod.ext_iff.mp he).2
  have hrefs : ∀ k, (n'.put (id, dst) ((n'.stream (id, dst)).map
      (fun s => { s with flags := flags, offset := offset }))).refs (id, k) = n'.refs (id, k) := by
    intro k
    by_cases hk : k = dst
    · unfold Net.refs
      rw [hk, hhere]
      cases n'.stream (id, dst) <;> rfl
    · exact refs_congr (hother _ (hkey k hk))
  obtain ⟨t', ht', hlists⟩ := hm.shadow
  refine ⟨fun j k hj => ?_, fun k => (hrefs k).trans (hm.refs k), fun k s hk hs => ?_, ?_, fun k s u hs hu => ?_⟩
  · rw [hother _ (fun he => hj (Prod.ext_iff.mp he).1), hm.other j k hj]
  · by_cases hkd : k = dst
    · rw [hkd, hhere, Option.map_eq_some_iff] at hs
      obtain ⟨d, hd, rfl⟩ := hs
      exact hm.remote k d hk (hkd ▸ hd)
    · rw [hother _ (hkey k hkd)] at hs
      exact hm.remote k s hk hs
  · by_cases hsd : server = dst
    · refine ⟨{ t' with flags := flags, offset := offset }, ?_, ?_⟩
      · rw [hsd, hhere, ← hsd, ht']
        rfl
      · exact hlists.congr hrefs rfl hnew (hshared t' ht') rfl
    · refine ⟨t', ?_, hlists.congr hrefs rfl hlists.newStream rfl rfl⟩
      rw [hother _ (hkey server hsd)]
      exact ht'
  · cases ht.symm.trans hu
    by_cases hkd : k = dst
    · rw [hkd, hhere, Option.map_eq_some_iff] at hs
      obtain ⟨d, -, rfl⟩ := hs
      exact hflags
    · rw [hother _ (hkey k hkd)] at hs
      exact hm.mode k s t hs ht

theorem Arrives.setOffset (ha : Arrives server n n₁ id dst t) (offset : Int) :
    Arrives server n (n₁.put (id, dst) ((n₁.stream (id, dst)).map (fun s => { s with offset := offset }))) id dst t := by
  obtain ⟨d, hd, hrest⟩ := ha.here
  refine ⟨fun k hk => ?_, ha.handle, ha.panic, { d with offset := offset }, ?_, hrest⟩
  · rw [put_stream_of_ne n₁ hk, ha.other k hk]
  · rw [put_stream_self, hd]
    rfl

theorem Agrees.deencapStream (h : Agrees server n) (hs : n.stream (id, src) = some s) (hpos : 0 < s.refCount) (hne : src ≠ dst) :
    ∃ n', n.deencapStream server (encapStream id src s) dst = some n' ∧ Agrees server n' := by
  obtain ⟨t, ht, hmode⟩ := h.shadow id src s hs
  have hsrc : n.holds (id, src) := by
    unfold holds
    rwa [refs_of_stream hs]
  obtain ⟨harrives, hfound⟩ := @Agrees.arrives server n h id dst t { s.flags with newStream := false } ht hmode
  generalize hadd : n.streamAddClient id dst dst { s.flags with newStream := false } = added at harrives hfound
  obtain ⟨n₁, foundClient⟩ := added
  change foundClient = true ↔ n.holds (id, dst) at hfound
  have harrives' : Arrives server n (if foundClient then n₁ else n₁.put (id, dst)
      ((n₁.stream (id, dst)).map (fun d => { d with offset := s.offset }))) id dst t := by
    split
    · exact harrives
    · exact harrives.setOffset s.offset
  obtain ⟨t₁, harrived⟩ := harrives'.arrived h ht
  let mig : MigInfo := { encapStream id src s with flags := { s.flags with newStream := !foundClient } }
  obtain ⟨flags, offset, n₂, hres, hm, hhandle, hpanic, hnew, hflags, hshared⟩ :=
    @Arrived.decides server n _ h mig dst t t₁ harrived ht hne hsrc
  have hnew' : flags.newStream = decide (n.refs (id, dst) ≤ 0) := by
    rw [hnew]
    change (!foundClient) = _
    cases hf : foundClient with
    | true =>
      have hhold : 0 < n.refs (id, dst) := hfound.mp hf
      simp only [Bool.not_true, Int.not_le.mpr hhold, decide_false]
    | false =>
      have hno : ¬ 0 < n.refs (id, dst) := fun hh => by
        rw [hfound.mpr hh] at hf
        simp at hf
      simp only [Bool.not_false, Int.not_lt.mp hno, decide_true]
  obtain ⟨l, hl, hw, huse⟩ := h.migrateClient ht hsrc hnew' hflags
  have hfinish := @Moves.finish server n n₂ id src dst hm t ht { flags with newStream := false } offset rfl hflags hshared
  let handle : IOHandle :=
    { use := migrateUseCounts flags (decide (n.refs (id, src) ≤ 1)) n.handle.use
      clientList := l
      fresh := n.handle.fresh + 1 }
  refine ⟨Net.put { n₂ with handle := handle } (id, dst) ((n₂.stream (id, dst)).map
    (fun d => { d with flags := { flags with newStream := false }, offset := offset })), ?_, ?_⟩
  · unfold Net.deencapStream
    rw [if_neg (by exact hne)]
    have hserve : (if foundClient then n₁ else n₁.put (id, dst) ((n₁.stream (id, dst)).map
        (fun d => { d with offset := s.offset }))).migrate server mig dst =
        some ({ mig with flags := flags, offset := offset }, { n₂ with handle := handle }) := by
      unfold Net.migrate
      rw [hres, Option.map_some]
      simp only [hhandle]
      rw [show Fsio.migrateClient n.handle.fresh mig.srcClientID dst flags
        (decide (n.refs (mig.streamID, mig.srcClientID) ≤ 1)) n.handle.clientList = .ok l from hl]
      rfl
    simp only [encapStream, hadd]
    change Option.map _ (Net.migrate server _ mig dst) = _
    rw [hserve]
    rfl
  · have hagrees := @Agrees.moves server n (Net.put { n₂ with handle := handle } (id, dst) ((n₂.stream (id, dst)).map
      (fun d => { d with flags := { flags with newStream := false }, offset := offset }))) h id src dst ?_ t ht hne
      hsrc (hpanic.trans h.running) ?_ huse hw
    · exact hagrees
    · exact hfinish.congr rfl
    · change migrateUseCounts flags _ n.handle.use = _
      rw [migrateUseCounts_eq, hnew', hflags]
      simp only [gained, lost, decide_eq_true_eq]

theorem Agrees.copy (h : Agrees server n) {host : HostId} (hs : n.stream (id, host) = some s) (hpos : 0 < s.refCount) :
    Agrees server (n.put (id, host) (some { s with refCount := s.refCount + 1 })) := by
  have hother : ∀ k, k ≠ (id, host) →
      (n.put (id, host) (some { s with refCount := s.refCount + 1 })).stream k = n.stream k :=
    fun k hk => put_stream_of_ne n hk _
  have hhere : (n.put (id, host) (some { s with refCount := s.refCount + 1 })).stream (id, host) =
      some { s with refCount := s.refCount + 1 } := put_stream_self n _ _
  have hholds : ∀ k, (n.put (id, host) (some { s with refCount := s.refCount + 1 })).holds k ↔ n.holds k := by
    intro k
    unfold holds
    by_cases hk : k = (id, host)
    · rw [hk, refs_of_stream hhere, refs_of_stream hs]
      simp only
      omega
    · rw [refs_congr (hother k hk)]
  have hcounts : ∀ k, (n.put (id, host) (some { s with refCount := s.refCount + 1 })).counts k = n.counts k := by
    intro k
    by_cases hk : k = (id, host)
    · unfold counts
      rw [hk, hhere, hs]
      simp only
      rw [if_pos hpos, if_pos (by omega)]
    · exact counts_congr (hother k hk)
  -- a stream's entry in the table, up to the number of references
  have hentry : ∀ j k u, (n.put (id, host) (some { s with refCount := s.refCount + 1 })).stream (j, k) = some u →
      ∃ v, n.stream (j, k) = some v ∧ u.flags = v.flags ∧ u.clientList = v.clientList ∧ v.refCount ≤ u.refCount := by
    intro j k u hu
    by_cases hk : (j, k) = (id, host)
    · rw [hk, hhere] at hu
      cases hu
      exact ⟨s, hk ▸ hs, rfl, rfl, by simp⟩
    · rw [hother _ hk] at hu
      exact ⟨u, hu, rfl, rfl, Int.le_refl _⟩
  have hshadow : ∀ j v, n.stream (j, server) = some v →
      ∃ u, (n.put (id, host) (some { s with refCount := s.refCount + 1 })).stream (j, server) = some u ∧
        u.flags = v.flags := by
    intro j v hv
    by_cases hk : (j, server) = (id, host)
    · rw [hk] at hv
      cases hs.symm.trans hv
      exact ⟨{ s with refCount := s.refCount + 1 }, by rw [hk]; exact hhere, rfl⟩
    · exact ⟨v, by rw [hother _ hk]; exact hv, rfl⟩
  refine ⟨h.running, fun j k u hk hu => ?_, fun j k u hu => ?_, fun j u hu => ?_, h.use.congr hcounts,
    fun k => (h.clients k).congr (fun j => hcounts (j, k)), h.wf⟩
  · obtain ⟨v, hv, -, hlist, hle⟩ := hentry j k u hu
    obtain ⟨hcount, hone⟩ := h.remote j k v hk hv
    exact ⟨by omega, hlist.trans hone⟩
  · obtain ⟨v, hv, hflags, -, -⟩ := hentry j k u hu
    obtain ⟨t, ht, hmode⟩ := h.shadow j k v hv
    obtain ⟨t', ht', hflags'⟩ := hshadow j t ht
    exact ⟨t', ht', by rw [hflags, hflags', hmode]⟩
  · obtain ⟨v, hv, hflags, hlist, hle⟩ := hentry j server u hu
    obtain ⟨hnew, hnd, hmem, hshared, hnonneg⟩ := h.lists j v hv
    exact ⟨hflags ▸ hnew, hlist ▸ hnd, fun k => by rw [hlist, hmem, hholds], by rw [hflags, hlist, hshared],
      by omega⟩

theorem ioOpen_stream {server : HostId} {n : Net} {id : FileId} {client : HostId} {useFlags : UseFlags}
    (hnone : ∀ k, n.stream (id, k) = none) :
    (∀ j k, j ≠ id → (n.ioOpen server id client useFlags).stream (j, k) = n.stream (j, k)) ∧
      ∀ k, (n.ioOpen server id client useFlags).stream (id, k) =
        if k = client then some ⟨1, useFlags, 0, [client]⟩
        else if k = server then some ⟨0, useFlags, 0, [client]⟩ else none := by
  have hclient : (n.streamAddClient id client client useFlags).1 =
      n.put (id, client) (some ⟨1, useFlags, 0, [client]⟩) := by
    simp only [streamAddClient, hnone, streamClientOpen, contains_nil, Bool.false_eq_true, if_false]
  by_cases hcs : server = client
  · subst hcs
    have hserver : ((n.put (id, server) (some ⟨1, useFlags, 0, [server]⟩)).streamAddClient id server server
        useFlags).1 = (n.put (id, server) (some ⟨1, useFlags, 0, [server]⟩)).put (id, server)
          (some ⟨2, useFlags, 0, [server]⟩) := by
      simp only [streamAddClient, put_stream_self, streamClientOpen, contains_cons, contains_nil,
        beq_self_eq_true, Bool.true_or, if_true]
      rfl
    refine ⟨fun j k hj => ?_, fun k => ?_⟩
    · have hk : (j, k) ≠ (id, server) := fun he => hj (Prod.ext_iff.mp he).1
      simp only [ioOpen, hclient, hserver, handleRelease, put_stream_of_ne _ hk]
    · simp only [ioOpen, hclient, hserver, handleRelease, put_stream_self, Option.map_some]
      by_cases hk : k = server
      · rw [if_pos hk, hk, put_stream_self]
        rfl
      · have hkey : (id, k) ≠ (id, server) := fun he => hk (Prod.ext_iff.mp he).2
        rw [if_neg hk, if_neg hk, put_stream_of_ne _ hkey, put_stream_of_ne _ hkey, put_stream_of_ne _ hkey, hnone]
  · have hfar : (id, server) ≠ (id, client) := fun he => hcs (Prod.ext_iff.mp he).2
    have hserver : ((n.put (id, client) (some ⟨1, useFlags, 0, [client]⟩)).streamAddClient id server client
        useFlags).1 = (n.put (id, client) (some ⟨1, useFlags, 0, [client]⟩)).put (id, server)
          (some ⟨1, useFlags, 0, [client]⟩) := by
      simp only [streamAddClient, put_stream_of_ne n hfar, hnone, streamClientOpen, contains_nil,
        Bool.false_eq_true, if_false]
    refine ⟨fun j k hj => ?_, fun k => ?_⟩
    · have hk : ∀ m, (j, k) ≠ (id, m) := fun m he => hj (Prod.ext_iff.mp he).1
      simp only [ioOpen, hclient, hserver, handleRelease, put_stream_of_ne _ (hk _)]
    · simp only [ioOpen, hclient, hserver, handleRelease, put_stream_self, Option.map_some]
      by_cases hks : k = server
      · rw [if_neg (fun he => hcs (hks.symm.trans he)), if_pos hks, hks, put_stream_self]
        rfl
      · have hkey : (id, k) ≠ (id, server) := fun he => hks (Prod.ext_iff.mp he).2
        rw [put_stream_of_ne _ hkey, put_stream_of_ne _ hkey]
        by_cases hk : k = client
        · rw [if_pos hk, hk, put_stream_self]
        · have hkey' : (id, k) ≠ (id, client) := fun he => hk (Prod.ext_iff.mp he).2
          rw [if_neg hk, if_neg hks, put_stream_of_ne _ hkey', hnone]

theorem ioOpen_handle (server : HostId) (n : Net) (id : FileId) (client : HostId) (useFlags : UseFlags) :
    (n.ioOpen server id client useFlags).handle =
        { use := n.handle.use + ofFlags useFlags
          clientList := n.handle.clientList.ioClientOpen n.handle.fresh client useFlags false
          fresh := n.handle.fresh + 1 } ∧
      (n.ioOpen server id client useFlags).panic = n.panic := ⟨rfl, rfl⟩

theorem Agrees.ioOpen (h : Agrees server n) {client : HostId}
    {useFlags : UseFlags} (hfresh : n.stream (id, server) = none) (hnew : useFlags.newStream = false)
    (hshared : useFlags.rmtShared = false) : Agrees server (n.ioOpen server id client useFlags) := by
  have hnone : ∀ k, n.stream (id, k) = none := by
    intro k
    cases hk : n.stream (id, k) with
    | none => rfl
    | some s =>
      obtain ⟨t, ht, -⟩ := h.shadow id k s hk
      rw [hfresh] at ht
      simp at ht
  obtain ⟨hother, hhere⟩ := @ioOpen_stream server n id client useFlags hnone
  obtain ⟨hhandle, hpanic⟩ := ioOpen_handle server n id client useFlags
  have hentry : ∀ k s, (n.ioOpen server id client useFlags).stream (id, k) = some s →
      s.flags = useFlags ∧ s.clientList = [client] ∧ (k = client ∧ s.refCount = 1 ∨ k ≠ client ∧ k = server ∧ s.refCount = 0) := by
    intro k s hs
    rw [hhere] at hs
    split at hs
    · next hk =>
      cases hs
      exact ⟨rfl, rfl, .inl ⟨hk, rfl⟩⟩
    · next hk =>
      split at hs
      · next hks =>
        cases hs
        exact ⟨rfl, rfl, .inr ⟨hk, hks, rfl⟩⟩
      · simp at hs
  have hsome : ∃ t, (n.ioOpen server id client useFlags).stream (id, server) = some t := by
    rw [hhere, if_pos rfl]
    split
    · exact ⟨_, rfl⟩
    · exact ⟨_, rfl⟩
  have hcounts : ∀ k, (n.ioOpen server id client useFlags).counts (id, k) =
      if k = client then ofFlags useFlags else 0 := by
    intro k
    unfold counts
    rw [hhere]
    by_cases hk : k = client
    · rw [if_pos hk, if_pos hk]
      rfl
    · rw [if_neg hk, if_neg hk]
      by_cases hks : k = server
      · rw [if_pos hks]
        rfl
      · rw [if_neg hks]
  have hzero : ∀ k, n.counts (id, k) = 0 := by
    intro k
    unfold counts
    rw [hnone]
  have hsame : ∀ j k, j ≠ id → (n.ioOpen server id client useFlags).counts (j, k) = n.counts (j, k) :=
    fun j k hj => counts_congr (hother j k hj)
  refine ⟨hpanic.trans h.running, fun j k s hk hs => ?_, fun j k s hs => ?_, fun j t ht => ?_, ?_, fun k => ?_, ?_⟩
  · by_cases hj : j = id
    · subst hj
      obtain ⟨-, hlist, ⟨hkc, hcount⟩ | ⟨-, hks, -⟩⟩ := hentry k s hs
      · exact ⟨by omega, hkc ▸ hlist⟩
      · exact absurd hks hk
    · exact h.remote j k s hk (hother j k hj ▸ hs)
  · by_cases hj : j = id
    · subst hj
      obtain ⟨t, ht⟩ := hsome
      exact ⟨t, ht, by rw [(hentry k s hs).1, (hentry server t ht).1]⟩
    · rw [hother j k hj] at hs
      rw [hother j server hj]
      exact h.shadow j k s hs
  · by_cases hj : j = id
    · subst hj
      obtain ⟨hflags, hlist, hcount⟩ := hentry server t ht
      refine ⟨hflags ▸ hnew, by simp [hlist], fun k => ?_, by simp [hflags, hlist, hshared], by omega⟩
      rw [hlist, mem_singleton]
      unfold holds Net.refs
      rw [hhere]
      by_cases hk : k = client
      · simp [hk]
      · by_cases hks : k = server
        · rw [if_pos hks]
          simp [hk]
        · rw [if_neg hks]
          simp [hk]
    · rw [hother j server hj] at ht
      have hold := h.lists j t ht
      exact hold.congr (fun k => refs_congr (hother j k hj)) rfl hold.newStream rfl rfl
  · have hsum := h.use.change (id, client) (g := (n.ioOpen server id client useFlags).counts) (fun k hk => ?_)
    · rw [hcounts, hzero, if_pos rfl, sub_zero] at hsum
      exact hsum
    · obtain ⟨j, k⟩ := k
      by_cases hj : j = id
      · subst hj
        rw [hcounts, hzero, if_neg (fun he => hk (by rw [he]))]
      · exact hsame j k hj
  · have hsum := (h.clients k).change id (g := fun j => (n.ioOpen server id client useFlags).counts (j, k))
      (fun j hj => hsame j k hj)
    rw [hcounts, hzero, sub_zero] at hsum
    rw [hhandle, ClientList.useOf_ioClientOpen]
    exact hsum
  · exact h.wf.ioClientOpen client useFlags false

end Net

variable {server : HostId} {n : Net}

theorem agrees_step {n' : Net} {l : Label} (h : Net.Agrees server n)
    (hs : step server n l = some n') : Net.Agrees server n' := by
  unfold step at hs
  rw [h.running, Option.isSome_none] at hs
  simp only [Bool.false_eq_true, if_false] at hs
  cases l with
  | ioOpen streamID clientID useFlags =>
    simp only [Option.ite_none_left_eq_some, Bool.or_eq_true, not_or, Bool.not_eq_true, Option.isSome_eq_false_iff,
      Option.isNone_iff_eq_none] at hs
    obtain ⟨⟨⟨hfresh, hnew⟩, hshared⟩, hs⟩ := hs
    exact Option.some.inj hs ▸ h.ioOpen hfresh hnew hshared
  | streamCopy streamID host =>
    simp only at hs
    split at hs
    · simp at hs
    · next s hstream =>
      simp only [Option.ite_none_right_eq_some] at hs
      exact Option.some.inj hs.2 ▸ h.copy hstream hs.1
  | migrate streamID src dst =>
    simp only at hs
    split at hs
    · simp at hs
    · next s hstream =>
      simp only [Option.ite_none_right_eq_some] at hs
      obtain ⟨hpos, hs⟩ := hs
      by_cases hne : src = dst
      · subst hne
        unfold Net.deencapStream at hs
        rw [if_pos (by rfl)] at hs
        simp only [Net.encapStream, hstream, Option.map_some, Option.some.injEq] at hs
        exact hs ▸ h.copy hstream hpos
      · obtain ⟨m, hm, hagrees⟩ := h.deencapStream hstream hpos hne
        cases hm.symm.trans hs
        exact hagrees

theorem agrees_of_run (h : Run (step server) (fun _ _ => True) {} n) : Net.Agrees server n :=
  h.invariant (I := Net.Agrees server) (fun _ _ _ hi _ hs => agrees_step hi hs) (Net.agrees_init server)

/-! ## What the counts say -/

def Net.opened (n : Net) (flag : UseFlags → Bool) (k : FileId × HostId) : Bool :=
  match n.stream k with
  | some s => flag s.flags
  | none => false

theorem Net.counts_ref (n : Net) (k : FileId × HostId) : (n.counts k).ref = if n.holds k then 1 else 0 := by
  cases hs : n.stream k with
  | none =>
    have hno : ¬ n.holds k := by
      unfold holds
      rw [refs_of_none hs]
      exact Int.lt_irrefl 0
    rw [if_neg hno]
    unfold counts
    rw [hs]
    rfl
  | some s =>
    have hiff : n.holds k ↔ 0 < s.refCount := by
      unfold holds
      rw [refs_of_stream hs]
    unfold counts
    simp only [hs, hiff]
    split <;> rfl

theorem Net.Agrees.card (h : n.Agrees server) {pairs : Finset (FileId × HostId)}
    (hp : ∀ k, k ∈ pairs ↔ n.holds k) (count : UseCounts →+ Int) (flag : UseFlags → Bool)
    (hcount : ∀ f, count (ofFlags f) = if flag f then 1 else 0) :
    count n.handle.use = (pairs.filter (fun k => n.opened flag k)).card := by
  have hzero : ∀ k, k ∉ pairs → count (n.counts k) = 0 := by
    intro k hk
    have hno : ¬ n.holds k := fun hh => hk ((hp k).mpr hh)
    have hcounts : n.counts k = 0 := by
      unfold Net.holds Net.refs at hno
      unfold Net.counts
      cases hs : n.stream k with
      | none => rfl
      | some s =>
        rw [hs] at hno
        exact if_neg hno
    rw [hcounts, map_zero]
  rw [(h.use.map count).eq_sum hzero, Finset.card_filter, Nat.cast_sum]
  refine Finset.sum_congr rfl (fun k hk => ?_)
  obtain ⟨s, hs, hpos⟩ := Net.stream_of_holds ((hp k).mp hk)
  unfold Net.counts Net.opened
  simp only [hs, hpos, if_true, hcount]
  split <;> rfl

theorem Net.Agrees.use_feasible (h : n.Agrees server) (k : HostId) : (n.handle.clientList.useOf k).Feasible := by
  refine (h.clients k).induction Feasible feasible_zero (fun _ _ => .add) (fun j => ?_)
  unfold Net.counts
  split
  · split
    · exact feasible_ofFlags _
    · exact feasible_zero
  · exact feasible_zero

/-- After opens, duplications and migrations the I/O handle counts the pairs of a stream and a host. -/
theorem counts_of_run (server : HostId) {n : Net} (h : Run (step server) (fun _ _ => True) {} n) :
    n.panic = none ∧
      (∃ pairs : Finset (FileId × HostId), (∀ k, k ∈ pairs ↔ n.holds k) ∧ n.handle.use.ref = pairs.card ∧
        n.handle.use.write = (pairs.filter (fun k => n.opened UseFlags.write k)).card ∧
        n.handle.use.exec = (pairs.filter (fun k => n.opened UseFlags.execute k)).card) ∧
      (∀ id k, n.holds (id, k) → ∃ t, n.stream (id, server) = some t) ∧
      (∀ id t, n.stream (id, server) = some t → t.clientList.Nodup ∧
        (∀ k, k ∈ t.clientList ↔ n.holds (id, k)) ∧ (t.flags.rmtShared = true ↔ 2 ≤ t.clientList.length)) ∧
      (∀ k, 0 ≤ n.refs k) ∧ n.handle.use.negative = false ∧
      ∀ c ∈ n.handle.clientList, c.use.negative = false := by
  have hi := agrees_of_run h
  obtain ⟨pairs, hp, href⟩ := (hi.use.map refHom).card n.counts_ref
  have hwrite := hi.card hp writeHom UseFlags.write (fun _ => rfl)
  have hexec := hi.card hp execHom UseFlags.execute (fun _ => rfl)
  change n.handle.use.ref = _ at href
  change n.handle.use.write = _ at hwrite
  change n.handle.use.exec = _ at hexec
  refine ⟨hi.running, ⟨pairs, hp, href, hwrite, hexec⟩, fun id k hk => ?_, fun id t ht => ?_, hi.refs_nonneg, ?_,
    fun c hc => ?_⟩
  · obtain ⟨s, hs, -⟩ := Net.stream_of_holds hk
    obtain ⟨t, ht, -⟩ := hi.shadow id k s hs
    exact ⟨t, ht⟩
  · have hlists := hi.lists id t ht
    exact ⟨hlists.nodup, hlists.mem, hlists.shared⟩
  · simp only [negative, Bool.or_eq_false_iff, decide_eq_false_iff_not]
    omega
  · have hclient := (ClientList.client_eq_some hi.wf).mpr ⟨hc, rfl⟩
    rw [← ClientList.useOf_of_client hclient]
    exact (hi.use_feasible c.clientID).not_negative

/-- A stream of host 2 goes to hosts 3 and 1 and partly back, with host 1 the server. -/
def travels : List Label :=
  [.ioOpen ⟨0, 1, 2, 7⟩ 2 { read := true, write := true }, .streamCopy ⟨0, 1, 2, 7⟩ 2, .migrate ⟨0, 1, 2, 7⟩ 2 3,
    .migrate ⟨0, 1, 2, 7⟩ 2 1, .ioOpen ⟨0, 1, 3, 7⟩ 3 { read := true }, .migrate ⟨0, 1, 2, 7⟩ 3 1]

/-- Then the first stream is on the server only, with both references. -/
theorem counts_after_travels :
    ∃ n, Run (step 1) (fun _ _ => True) {} n ∧ n.refs (⟨0, 1, 2, 7⟩, 1) = 2 ∧ n.handle.use = ⟨2, 1, 0⟩ ∧
      ∃ pairs : Finset (FileId × HostId), (∀ k, k ∈ pairs ↔ n.holds k) ∧ pairs.card = 2 := by
  have hrun : ∃ n, exec (step 1) {} travels = some n ∧ n.refs (⟨0, 1, 2, 7⟩, 1) = 2 ∧ n.handle.use = ⟨2, 1, 0⟩ :=
    ⟨_, rfl, by decide, by decide⟩
  obtain ⟨n, he, hrefs, huse⟩ := hrun
  have h := run_of_exec travels {} n (fun _ _ => trivial) he
  obtain ⟨-, ⟨pairs, hp, href, -⟩, -⟩ := counts_of_run 1 h
  rw [huse] at href
  exact ⟨n, h, hrefs, huse, pairs, hp, Int.ofNat_inj.mp href.symm⟩

end Migrate

end SpriteKernel.Fsio
