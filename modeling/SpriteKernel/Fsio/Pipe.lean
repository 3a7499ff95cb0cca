import SpriteKernel.Fsio.Migrate
import SpriteKernel.Lib.Ring

/- Pipes (`fsioPipe.c`). A pipe is a block of memory used as a ring: `firstByte` and `lastByte` are C ints that float
   on past its end, are masked for a position, and compared above the mask to see whether a transfer runs over the
   end. -1 is an empty pipe. The buffers are in the kernel; wait lists and recovery are not kept. -/
namespace SpriteKernel.Fsio.Pipe

open List

open SpriteKernel SpriteKernel.Fsconsist Transition Ring

/-- The value a C `int` is left with. -/
def toInt (n : Int) : Int := (n + 2147483648) % 4294967296 - 2147483648

theorem toInt_of_fits {n : Int} (hl : -2147483648 ≤ n) (hu : n ≤ 2147483647) : toInt n = n := by
  unfold toInt
  omega

/-- `FS_BLOCK_SIZE`, which a pipe's buffer has. -/
def fsBlockSize : Nat := 4096

/-- `byte & FS_BLOCK_OFFSET_MASK`. -/
def blockOffset (byte : Int) : Nat := (byte % fsBlockSize).toNat

/-- `byte & ~FS_BLOCK_OFFSET_MASK`. -/
def blockBase (byte : Int) : Int := byte - byte % fsBlockSize

/-- `Fsio_PipeIOHandle`. `fresh` is the address the next client entry gets. -/
structure PipeIOHandle where
  use : UseCounts
  clientList : ClientList
  fresh : Nat
  readerGone : Bool := false
  writerGone : Bool := false
  firstByte : Int := -1
  lastByte : Int := -1
  buffer : Nat → UInt8

/-- What a transfer returns, and the bytes a read copied to its caller's buffer. -/
structure IOReply where
  status : ReturnStatus
  length : Int
  sigPipe : Bool := false
  copied : List UInt8 := []

/-! ## The routines -/

/-- The bytes in the pipe, as the source counts them. -/
def numBytes (h : PipeIOHandle) : Int := toInt (h.lastByte - h.firstByte + 1)

/-- `Fsio_PipeRead`. `bcopy` copies nothing where its count is negative. -/
def pipeRead (length : Nat) (h : PipeIOHandle) : IOReply × PipeIOHandle :=
  if h.firstByte = -1 then
    ({ status := if h.writerGone then .success else .fsWouldBlock, length := 0 }, h)
  else
    let toRead := min (numBytes h) length
    let startOffset := blockOffset h.firstByte
    let endByte := toInt (h.firstByte + toRead - 1)
    let copied :=
      if blockBase h.firstByte = blockBase endByte then slice h.buffer startOffset toRead.toNat
      else slice h.buffer startOffset (fsBlockSize - startOffset) ++
        slice h.buffer 0 (toRead.toNat - (fsBlockSize - startOffset))
    let firstByte := toInt (h.firstByte + toRead)
    ({ status := .success, length := toRead, copied := copied },
      if firstByte > h.lastByte then { h with firstByte := -1, lastByte := -1 }
      else { h with firstByte := firstByte })

def room (h : PipeIOHandle) : Int :=
  if h.firstByte = -1 then fsBlockSize else toInt (fsBlockSize - (h.lastByte - h.firstByte + 1))

def pipeWrite (buffer : Nat → UInt8) (length : Nat) (h : PipeIOHandle) : IOReply × PipeIOHandle :=
  if h.readerGone then ({ status := .fsBrokenPipe, length := 0, sigPipe := true }, h)
  else if room h = 0 then ({ status := .fsWouldBlock, length := 0 }, h)
  else
    let toWrite := min (room h) length
    let startByte := toInt (h.lastByte + 1)
    let startOffset := blockOffset startByte
    let endByte := toInt (h.lastByte + toWrite)
    let stored :=
      if blockBase startByte = blockBase endByte then copy buffer 0 toWrite.toNat h.buffer startOffset
      else copy buffer (fsBlockSize - startOffset) (toWrite.toNat - (fsBlockSize - startOffset))
        (copy buffer 0 (fsBlockSize - startOffset) h.buffer startOffset) 0
    ({ status := if length > room h then .fsWouldBlock else .success, length := toWrite },
      { h with
        buffer := stored
        firstByte := if h.firstByte = -1 then 0 else h.firstByte
        lastByte := endByte })

structure State where
  handle : PipeIOHandle
  removed : Bool := false
  panic : Option Panic := none
  accepted : List UInt8 := []
  delivered : List UInt8 := []

/-- `Fsio_CreatePipe` on the host `server`, with what `malloc` left in the buffer. -/
def created (server : HostId) (garbage : Nat → UInt8) : State :=
  { handle :=
      { use := ⟨2, 1, 0⟩
        clientList := (ClientList.ioClientOpen 0 server { read := true } false []).ioClientOpen 1 server
          { write := true } false
        fresh := 2
        buffer := garbage } }

def pipeCloseInt (ref write : Int) (p : State) : State :=
  let h := { p.handle with use := p.handle.use - ⟨ref, write, 0⟩ }
  if h.use.ref < 0 ∨ h.use.write < 0 then { p with handle := h, panic := some .badUseCounts }
  else
    let h :=
      if write ≠ 0 ∧ h.use.write = 0 then { h with writerGone := true }
      else if ref ≠ 0 ∧ h.use.ref = h.use.write then { h with readerGone := true }
      else h
    { p with handle := h, removed := h.writerGone && h.readerGone }

def pipeClose (clientID : HostId) (flags : UseFlags) (p : State) : State :=
  match p.handle.clientList.ioClientClose clientID flags false with
  | .error e => { p with panic := some e }
  | .ok r =>
    if r.found then
      pipeCloseInt 1 (if flags.write then 1 else 0) { p with handle := { p.handle with clientList := r.list } }
    else p

/-- `Fsio_PipeMigrate` on the pipe's server, with the flags and the `closeSrcClient`
that `Fsio_StreamMigClient` decided on. -/
def pipeMigrate (srcClientID dstClientID : HostId) (flags : UseFlags) (closeSrcClient : Bool) (p : State) :
    State :=
  let use := migrateUseCounts flags closeSrcClient p.handle.use
  match migrateClient p.handle.fresh srcClientID dstClientID flags closeSrcClient p.handle.clientList with
  | .error e => { p with panic := some e }
  | .ok l => { p with handle := { p.handle with use := use, clientList := l, fresh := p.handle.fresh + 1 } }

def pipeClientKill (clientID : HostId) (p : State) : State :=
  let k := p.handle.clientList.ioClientKill clientID
  pipeCloseInt k.1.ref k.1.write { p with handle := { p.handle with clientList := k.2 } }

inductive Label where
  | read (length : Nat)
  | write (buffer : Nat → UInt8) (length : Nat)
  | close (clientID : HostId) (flags : UseFlags)
  | migrate (srcClientID dstClientID : HostId) (flags : UseFlags) (closeSrcClient : Bool)
  | clientKill (clientID : HostId)

/-- One operation on a pipe still there. A read delivers the part of its buffer that it reports. -/
def step (p : State) (l : Label) : Option State :=
  if p.removed || p.panic.isSome then none
  else
    match l with
    | .read length =>
      let r := pipeRead length p.handle
      some { p with handle := r.2, delivered := p.delivered ++ r.1.copied.take r.1.length.toNat }
    | .write buffer length =>
      let r := pipeWrite buffer length p.handle
      some { p with handle := r.2, accepted := p.accepted ++ slice buffer 0 r.1.length.toNat }
    | .close clientID flags => some (pipeClose clientID flags p)
    | .migrate src dst flags closeSrcClient => some (pipeMigrate src dst flags closeSrcClient p)
    | .clientKill clientID => some (pipeClientKill clientID p)

/-! ## The bytes in the ring -/

/-- The bytes from `firstByte` to `lastByte`. -/
def buffered (h : PipeIOHandle) : List UInt8 :=
  if h.firstByte = -1 then []
  else window fsBlockSize h.buffer h.firstByte.toNat (h.lastByte - h.firstByte + 1).toNat

/-- `n` bytes are in the ring from the floating offset `first` on, and an empty pipe
says so. -/
structure Spans (h : PipeIOHandle) (first n : Nat) : Prop where
  fits : n ≤ fsBlockSize
  below : first + n ≤ 2147483647
  empty : n = 0 → first = 0 ∧ h.firstByte = -1 ∧ h.lastByte = -1
  full : 0 < n → h.firstByte = first ∧ h.lastByte = first + n - 1

variable {h : PipeIOHandle} {first n : Nat} {p p' : State}

theorem Spans.buffered (hs : Spans h first n) : buffered h = window fsBlockSize h.buffer first n := by
  unfold Pipe.buffered
  by_cases hn : n = 0
  · obtain ⟨-, hf, -⟩ := hs.empty hn
    rw [if_pos hf, hn, window_zero]
  · obtain ⟨hf, hl⟩ := hs.full (by omega)
    rw [if_neg (by omega), hf, hl]
    congr 1
    omega

theorem Spans.congr {h' : PipeIOHandle} (hs : Spans h first n)
    (hf : h'.firstByte = h.firstByte) (hl : h'.lastByte = h.lastByte) : Spans h' first n :=
  ⟨hs.fits, hs.below, hf ▸ hl ▸ hs.empty, hf ▸ hl ▸ hs.full⟩

theorem blockOffset_natCast (n : Nat) : blockOffset n = n % fsBlockSize := by
  unfold blockOffset
  omega

theorem blockBase_eq_iff (a b : Nat) : blockBase a = blockBase b ↔ a / fsBlockSize = b / fsBlockSize := by
  unfold blockBase fsBlockSize
  omega

/-- A transfer of `n` bytes is one copy just where it does not run over the end of the block. -/
theorem blockBase_end {start : Nat} (hn : 0 < n) :
    blockBase start = blockBase ((start : Int) + n - 1) ↔ start % fsBlockSize + n ≤ fsBlockSize := by
  have hend : (start : Int) + n - 1 = ((start + n - 1 : Nat) : Int) := by omega
  rw [hend, blockBase_eq_iff, sameBlock_iff hn (by decide)]

/-! ## Reading and writing -/

/-- A read takes its bytes off the front, and reports the end of the file only when the writer is gone. -/
theorem pipeRead_spec (hs : Spans h first n) (length : Nat) :
    (∃ first' n', Spans (pipeRead length h).2 first' n') ∧
      buffered h = (pipeRead length h).1.copied.take (pipeRead length h).1.length.toNat ++
        buffered (pipeRead length h).2 ∧
      (0 < length → (pipeRead length h).1.status = .success → (pipeRead length h).1.length = 0 →
        h.writerGone = true) := by
  by_cases hn : n = 0
  · obtain ⟨-, hf, -⟩ := hs.empty hn
    simp only [pipeRead, hf, if_true, take_nil, nil_append]
    refine ⟨⟨first, n, hs⟩, trivial, fun _ hsucc _ => ?_⟩
    cases hw : h.writerGone with
    | true => rfl
    | false => simp [hw] at hsucc
  · obtain ⟨hf, hl⟩ := hs.full (by omega)
    have hbelow := hs.below
    have hfits := hs.fits
    have hcount : numBytes h = n := by
      unfold numBytes
      rw [toInt_of_fits (by omega) (by omega)]
      omega
    obtain ⟨m, hm⟩ : ∃ m : Nat, min (numBytes h) length = m := ⟨min n length, by omega⟩
    have hmn : m ≤ n := by omega
    have hnext : toInt (h.firstByte + m) = ((first + m : Nat) : Int) := by
      rw [toInt_of_fits (by omega) (by omega)]
      omega
    -- what is copied starts with the first `m` bytes, also where nothing is asked for
    have hcopied : (pipeRead length h).1.copied.take m = window fsBlockSize h.buffer first m := by
      simp only [pipeRead, if_neg (show h.firstByte ≠ -1 by omega), hm, Int.toNat_natCast]
      by_cases hm0 : m = 0
      · rw [hm0, take_zero, window_zero]
      · have hend : toInt (h.firstByte + m - 1) = (first : Int) + m - 1 := by
          rw [toInt_of_fits (by omega) (by omega), hf]
        rw [hend, hf, blockOffset_natCast]
        by_cases hstraight : first % fsBlockSize + m ≤ fsBlockSize
        · rw [if_pos ((blockBase_end (by omega)).mpr hstraight), window_of_straight _ hstraight,
            take_slice _ _ (Nat.le_refl m)]
        · rw [if_neg (fun he => hstraight ((blockBase_end (by omega)).mp he)),
            window_of_wrap _ (by decide) (by omega) (by omega)]
          refine take_of_length_le ?_
          rw [length_append, length_slice, length_slice]
          omega
    have hlength : (pipeRead length h).1.length = m := by
      simp only [pipeRead, if_neg (show h.firstByte ≠ -1 by omega), hm]
    have hhandle : (pipeRead length h).2 = if ((first + m : Nat) : Int) > h.lastByte then
        { h with firstByte := -1, lastByte := -1 } else { h with firstByte := ((first + m : Nat) : Int) } := by
      simp only [pipeRead, if_neg (show h.firstByte ≠ -1 by omega), hm, hnext]
    have hrest : ∃ first' n', Spans (pipeRead length h).2 first' n' ∧
        window fsBlockSize h.buffer (first + m) (n - m) =
          window fsBlockSize (pipeRead length h).2.buffer first' n' := by
      rw [hhandle]
      by_cases hall : m = n
      · rw [if_pos (by omega)]
        refine ⟨0, 0, ⟨by decide, by decide, fun _ => ⟨rfl, rfl, rfl⟩, fun h0 => absurd h0 (by decide)⟩, ?_⟩
        rw [hall, Nat.sub_self, window_zero, window_zero]
      · rw [if_neg (by omega)]
        refine ⟨first + m, n - m, ⟨by omega, by omega, fun h0 => by omega, fun _ => ⟨rfl, ?_⟩⟩, rfl⟩
        change h.lastByte = _
        omega
    obtain ⟨first', n', hspans, hwindow⟩ := hrest
    refine ⟨⟨first', n', hspans⟩, ?_, fun hpos _ hzero => ?_⟩
    · rw [hs.buffered, hspans.buffered, hlength, Int.toNat_natCast, hcopied, ← hwindow, ← drop_window _ _ _ hmn,
        ← take_window _ _ _ hmn, take_append_drop]
    · omega

/-- The write does not start a copy of nothing at the front, nor carry `lastByte` to the largest int; or it is turned
    away. -/
def KeepsFifo (h : PipeIOHandle) (length : Nat) : Prop :=
  h.readerGone = true ∨ room h = 0 ∨
    (length = 0 → blockOffset (h.lastByte + 1) ≠ 0) ∧ h.lastByte + min (room h) length < 2147483647

instance (h : PipeIOHandle) (length : Nat) : Decidable (KeepsFifo h length) := by
  unfold KeepsFifo
  infer_instance

theorem pipeWrite_spec (hs : Spans h first n) (buffer : Nat → UInt8)
    {length : Nat} (hk : KeepsFifo h length) :
    (∃ first' n', Spans (pipeWrite buffer length h).2 first' n') ∧
      buffered (pipeWrite buffer length h).2 =
        buffered h ++ slice buffer 0 (pipeWrite buffer length h).1.length.toNat := by
  by_cases hgone : h.readerGone = true
  · simp only [pipeWrite, hgone, if_true, Int.toNat_zero, slice_zero, append_nil]
    exact ⟨⟨first, n, hs⟩, trivial⟩
  by_cases hfull : room h = 0
  · simp only [pipeWrite, if_neg hgone, hfull, if_true, Int.toNat_zero, slice_zero, append_nil]
    exact ⟨⟨first, n, hs⟩, trivial⟩
  obtain ⟨hstart, hlimit⟩ := (hk.resolve_left hgone).resolve_left hfull
  have hfits := hs.fits
  have hfirst : h.firstByte = if n = 0 then -1 else (first : Int) := by
    split
    · next hn => exact (hs.empty hn).2.1
    · next hn => exact (hs.full (by omega)).1
  have hlast : h.lastByte = (first : Int) + n - 1 := by
    by_cases hn : n = 0
    · have := hs.empty hn
      omega
    · exact (hs.full (by omega)).2
  have hroom : room h = fsBlockSize - (n : Int) := by
    unfold room
    rw [hfirst, hlast]
    by_cases hn : n = 0
    · rw [if_pos hn, if_pos rfl, hn]
      rfl
    · rw [if_neg hn, if_neg (by omega), toInt_of_fits (by unfold fsBlockSize at *; omega)
        (by unfold fsBlockSize at *; omega)]
      omega
  obtain ⟨m, hm⟩ : ∃ m : Nat, min (room h) length = m := ⟨min (fsBlockSize - n) length, by omega⟩
  have hstartByte : toInt (h.lastByte + 1) = ((first + n : Nat) : Int) := by
    rw [toInt_of_fits (by omega) (by omega)]
    omega
  have hendByte : toInt (h.lastByte + m) = ((first + n : Nat) : Int) + m - 1 := by
    rw [toInt_of_fits (by omega) (by omega)]
    omega
  obtain ⟨mem, hmem, hwrite⟩ : ∃ mem, Stored fsBlockSize buffer m (first + n) h.buffer mem ∧
      pipeWrite buffer length h = ({ status := if length > room h then .fsWouldBlock else .success, length := m },
        { h with
          buffer := mem
          firstByte := if h.firstByte = -1 then 0 else h.firstByte
          lastByte := ((first + n : Nat) : Int) + m - 1 }) := by
    simp only [pipeWrite, if_neg hgone, if_neg hfull, hm, hstartByte, hendByte, Int.toNat_natCast,
      blockOffset_natCast]
    by_cases hstraight : (first + n) % fsBlockSize + m ≤ fsBlockSize
    · have hsame : blockBase ((first + n : Nat) : Int) = blockBase (((first + n : Nat) : Int) + m - 1) := by
        by_cases hm0 : m = 0
        · unfold blockOffset blockBase fsBlockSize at *
          omega
        · exact (blockBase_end (by omega)).mpr hstraight
      rw [if_pos hsame]
      exact ⟨_, stored_straight buffer h.buffer hstraight, rfl⟩
    · have hm0 : 0 < m := by
        have := Nat.mod_lt (first + n) (show 0 < fsBlockSize by decide)
        omega
      rw [if_neg (fun he => hstraight ((blockBase_end hm0).mp he))]
      exact ⟨_, stored_wrap buffer h.buffer (by omega) (by omega) (by decide), rfl⟩
  rw [hwrite]
  by_cases hboth : n + m = 0
  · have hn : n = 0 := by omega
    have hfront := (hs.empty hn).1
    exact absurd (show blockOffset (h.lastByte + 1) = 0 by rw [hlast, hfront, hn]; rfl) (hstart (by omega))
  · have hspans : Spans { h with
          buffer := mem
          firstByte := if h.firstByte = -1 then 0 else h.firstByte
          lastByte := ((first + n : Nat) : Int) + m - 1 } first (n + m) := by
      refine ⟨by omega, by omega, fun h0 => absurd h0 hboth, fun _ => ⟨?_, ?_⟩⟩
      · rw [hfirst]
        by_cases hn : n = 0
        · rw [if_pos hn, if_pos rfl, (hs.empty hn).1]
          rfl
        · rw [if_neg hn, if_neg (by omega)]
      · change ((first + n : Nat) : Int) + m - 1 = first + ((n + m : Nat) : Int) - 1
        omega
    refine ⟨⟨first, n + m, hspans⟩, ?_⟩
    rw [hspans.buffered, hs.buffered, Int.toNat_natCast]
    exact hmem.window (by omega)

/-! ## Runs -/

def SameBytes (p p' : State) : Prop :=
  p'.handle.firstByte = p.handle.firstByte ∧ p'.handle.lastByte = p.handle.lastByte ∧
    p'.handle.buffer = p.handle.buffer ∧ p'.accepted = p.accepted ∧ p'.delivered = p.delivered

theorem pipeCloseInt_bytes (ref write : Int) (p : State) : SameBytes p (pipeCloseInt ref write p) := by
  simp only [pipeCloseInt]
  split
  · exact ⟨rfl, rfl, rfl, rfl, rfl⟩
  · split
    · exact ⟨rfl, rfl, rfl, rfl, rfl⟩
    · split <;> exact ⟨rfl, rfl, rfl, rfl, rfl⟩

theorem pipeClose_bytes (clientID : HostId) (flags : UseFlags) (p : State) : SameBytes p (pipeClose clientID flags p) := by
  unfold pipeClose
  split
  · exact ⟨rfl, rfl, rfl, rfl, rfl⟩
  · next r _ =>
    split
    · exact pipeCloseInt_bytes 1 _ { p with handle := { p.handle with clientList := r.list } }
    · exact ⟨rfl, rfl, rfl, rfl, rfl⟩

theorem pipeMigrate_bytes (src dst : HostId) (flags : UseFlags) (closeSrcClient : Bool) (p : State) :
    SameBytes p (pipeMigrate src dst flags closeSrcClient p) := by
  simp only [pipeMigrate]
  split <;> exact ⟨rfl, rfl, rfl, rfl, rfl⟩

/-- What went in is what came out and what is there. -/
structure Fifo (p : State) : Prop where
  spans : ∃ first n, Spans p.handle first n
  conserved : p.accepted = p.delivered ++ buffered p.handle

theorem Fifo.congr (hf : Fifo p) (hb : SameBytes p p') : Fifo p' := by
  obtain ⟨⟨first, n, hs⟩, hconserved⟩ := hf
  obtain ⟨hfirst, hlast, hbuffer, haccepted, hdelivered⟩ := hb
  refine ⟨⟨first, n, hs.congr hfirst hlast⟩, ?_⟩
  rw [haccepted, hdelivered, hconserved]
  unfold buffered
  rw [hfirst, hlast, hbuffer]

theorem fifo_created (server : HostId) (garbage : Nat → UInt8) : Fifo (created server garbage) :=
  ⟨⟨0, 0, by decide, by decide, fun _ => ⟨rfl, rfl, rfl⟩, fun h => absurd h (by decide)⟩, rfl⟩

/-- The condition on the writes of a run. -/
def Keeps (p : State) : Label → Prop
  | .write _ length => KeepsFifo p.handle length
  | _ => True

instance (p : State) (l : Label) : Decidable (Keeps p l) := by
  cases l <;> unfold Keeps <;> infer_instance

theorem fifo_step {l : Label} (hf : Fifo p) (hk : Keeps p l) (hs : step p l = some p') : Fifo p' := by
  unfold step at hs
  split at hs
  · simp at hs
  obtain ⟨⟨first, n, hspans⟩, hconserved⟩ := hf
  cases l with
  | read length =>
    cases hs
    obtain ⟨hspans', htaken, -⟩ := pipeRead_spec hspans length
    exact ⟨hspans', by rw [append_assoc, ← htaken]; exact hconserved⟩
  | write buffer length =>
    cases hs
    obtain ⟨hspans', hadded⟩ := pipeWrite_spec hspans buffer hk
    exact ⟨hspans', by rw [hadded, ← append_assoc, ← hconserved]⟩
  | close clientID flags =>
    cases hs
    exact Fifo.congr ⟨⟨first, n, hspans⟩, hconserved⟩ (pipeClose_bytes clientID flags p)
  | migrate src dst flags closeSrcClient =>
    cases hs
    exact Fifo.congr ⟨⟨first, n, hspans⟩, hconserved⟩ (pipeMigrate_bytes src dst flags closeSrcClient p)
  | clientKill clientID =>
    cases hs
    exact Fifo.congr ⟨⟨first, n, hspans⟩, hconserved⟩ (pipeCloseInt_bytes _ _ _)

/-- The bytes accepted are those delivered and those still there, at most a block. -/
theorem fifo_of_run {server : HostId} {garbage : Nat → UInt8} {p : State}
    (h : Run step Keeps (created server garbage) p) :
    p.accepted = p.delivered ++ buffered p.handle ∧ (buffered p.handle).length ≤ fsBlockSize ∧
      ∀ length, 0 < length → (pipeRead length p.handle).1.status = .success →
        (pipeRead length p.handle).1.length = 0 → p.handle.writerGone = true := by
  have hf : Fifo p := h.invariant (fun _ _ _ hi hk hs => fifo_step hi hk hs) (fifo_created server garbage)
  obtain ⟨⟨first, n, hspans⟩, hconserved⟩ := hf
  refine ⟨hconserved, ?_, fun length => (pipeRead_spec hspans length).2.2⟩
  rw [hspans.buffered, length_window]
  exact hspans.fits

/-- Three bytes go in and the first two come out. -/
theorem fifo_after_read : ∃ p, Run step Keeps (created 7 (fun _ => 0)) p ∧ p.accepted = [1, 2, 3] ∧
    p.delivered = [1, 2] ∧ p.accepted = p.delivered ++ buffered p.handle := by
  obtain ⟨p, hp⟩ : ∃ p, exec (guarded Keeps step) (created 7 (fun _ => 0))
      [.write (fun i => UInt8.ofNat (i + 1)) 3, .read 2] = some p := ⟨_, rfl⟩
  have hrun := run_of_guarded _ _ _ hp
  refine ⟨p, hrun, ?_, ?_, (fifo_of_run hrun).1⟩
  · cases hp
    rfl
  · cases hp
    rfl

/-- After a write of nothing the next reader sees the end of the file, with the writer there. -/
theorem zero_write_ends_file : ∃ p, Run step (fun _ _ => True) (created 7 (fun _ => 0)) p ∧
    (pipeRead 10 p.handle).1.status = .success ∧ (pipeRead 10 p.handle).1.length = 0 ∧
    p.handle.writerGone = false := by
  refine ⟨_, run_of_exec [.write (fun _ => 0) 0] _ _ (fun _ _ => trivial) rfl, ?_, ?_, ?_⟩
  · rfl
  · rfl
  · rfl

end SpriteKernel.Fsio.Pipe
