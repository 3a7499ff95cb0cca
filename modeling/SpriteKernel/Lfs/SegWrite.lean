import SpriteKernel.Lfs.Segment
import SpriteKernel.Lib.Transition
import Mathlib.Data.List.Perm.Basic
import Mathlib.Tactic.Ring

/- Writing a segment to the disk (`lfsSeg.c`): the elements are copied forwards, from the last to the first, in
   pieces of at most `maxTransferSize` bytes, and two requests are kept at the device. The request that completes is
   given the next piece. -/
namespace SpriteKernel.Lfs

open Function List SegElement

open Bytes Transition

/-- A `DevBlockDeviceRequest`, with what is in its buffer. -/
structure SegRequest where
  startAddress : Int
  bufferLen : Int
  buffer : List Buffer

/-- What output uses of a `LfsSeg`, the requests at the device, and the blocks written, with their addresses. -/
structure SegIo where
  elements : List SegElement
  curElement : Int
  curBlockOffset : Int
  nextDiskAddress : DiskAddr
  requestActive : Int
  ioDone : Bool
  inFlight : Bool → Option SegRequest
  written : List (Int × Buffer)

/-- `CopySegToBuffer`, with `curElement + 1` elements left: `curElement`, `curBlockOffset`, the length, the blocks. -/
def copyElements (p : SuperBlock) (maxSize : Int) (elements : List SegElement) :
    Nat → Int → Int → List Buffer → Int × Int × Int × List Buffer
  | 0, offset, len, buffer => (-1, offset, len, buffer)
  | n + 1, offset, len, buffer =>
    let element := elements.getD n ⟨[]⟩
    let bytes := p.blocksToBytes (element.lengthInBlocks - offset)
    if len + bytes > maxSize then
      -- the element does not fit in this buffer
      let blocks := if len = maxSize then 0 else p.bytesToBlocks (maxSize - len)
      (n, offset + blocks, len + p.blocksToBytes blocks,
        buffer ++ (element.blocks.drop offset.toNat).take blocks.toNat)
    else copyElements p maxSize elements n 0 (len + bytes) (buffer ++ element.blocks.drop offset.toNat)

def SegIo.fill (p : SuperBlock) (maxSize : Int) (io : SegIo) : SegRequest × SegIo :=
  let (curElement, curBlockOffset, len, buffer) :=
    copyElements p maxSize io.elements (io.curElement + 1).toNat io.curBlockOffset 0 []
  (⟨bytesPerSector * io.nextDiskAddress, len, buffer⟩, { io with
    curElement := curElement
    curBlockOffset := curBlockOffset
    nextDiskAddress := io.nextDiskAddress + len.tdiv bytesPerSector })

/-- Blocks one behind the other, from a byte address on. -/
def blocksAt (size : Int) : Int → List Buffer → List (Int × Buffer)
  | _, [] => []
  | address, b :: bs => (address, b) :: blocksAt size (address + size) bs

/-- `WriteSegmentStart`; `none` where there is no summary. `requestActive` is as the last segment left it. -/
def writeSegmentStart (p : SuperBlock) (maxTransferSize requestActive : Int) (seg : LfsSeg) : Option SegIo :=
  seg.segIsEmpty.map fun empty =>
    let io : SegIo := {
      elements := seg.elements
      curElement := seg.elements.length - 1
      curBlockOffset := 0
      nextDiskAddress := p.segNumToDiskAddress seg.logRange.current + (p.segSizeInBlocks - seg.curBlockOffset)
      requestActive := requestActive
      ioDone := false
      inFlight := fun _ => none
      written := [] }
    if empty then { io with ioDone := true }
    else
      let (first, io) := io.fill p maxTransferSize
      let (second, io) := io.fill p maxTransferSize
      if second.bufferLen > 0 then
        { io with requestActive := 2, inFlight := fun r => if r then some second else some first }
      else { io with requestActive := 1, inFlight := fun r => if r then none else some first }

def SegIo.write (p : SuperBlock) (request : SegRequest) (io : SegIo) : SegIo :=
  { io with written := io.written ++ blocksAt p.blockSize request.startAddress request.buffer }

/-- A request completes, and the device calls `SegIoDoneProc`. -/
def segIoDone (p : SuperBlock) (maxTransferSize : Int) (io : SegIo) (r : Bool) : Option SegIo :=
  (io.inFlight r).map fun request =>
    let (next, io) := (io.write p request).fill p maxTransferSize
    if next.bufferLen = 0 then
      { io with
        requestActive := io.requestActive - 1
        ioDone := if io.requestActive - 1 = 0 then true else io.ioDone
        inFlight := update io.inFlight r none }
    else { io with inFlight := update io.inFlight r (some next) }

/-! ## What is promised -/

/-- The segment while it is filled: elements are added, and what is in them is changed. -/
structure SameShape (s t : LfsSeg) : Prop where
  current : t.logRange.current = s.logRange.current
  start : t.startBlockOffset = s.startBlockOffset
  lengths : t.elements.map lengthInBlocks = s.elements.map lengthInBlocks
  numBlocks : t.numBlocks = s.numBlocks
  curElement : t.curElement = s.curElement
  curBlockOffset : t.curBlockOffset = s.curBlockOffset

inductive Filling (s : LfsSeg) : LfsSeg → Prop where
  | refl : Filling s s
  | add {t u : LfsSeg} (buffer : List Buffer) : Filling s t → t.slowAddDataBuffer buffer = some u → Filling s u
  | edit {t u : LfsSeg} : Filling s t → SameShape t u → Filling s u

def elementAt (address : DiskAddr) (e : SegElement) : List (Int × Buffer) :=
  e.blocks.zipIdx.map (fun bk => (bytesPerSector * (address + bk.2), bk.1))

/-- Every block of every element, at the address of the element and its place in it. -/
def promised (p : SuperBlock) (seg : LfsSeg) : List (Int × Buffer) :=
  seg.elements.zipIdx.flatMap (fun ei => elementAt (seg.slowDiskAddress p ei.2) ei.1)

/-- At most the segment's blocks and one more are requested; what is written is promised, in the end all of it. -/
def WritesAsPromised (p : SuperBlock) (maxTransferSize requestActive : Int) (seg : LfsSeg) : Prop :=
  ((promised p seg).map Prod.fst).Nodup ∧ ∃ io, writeSegmentStart p maxTransferSize requestActive seg = some io ∧
    ∀ order io', exec (segIoDone p maxTransferSize) io order = some io' →
      order.length ≤ (promised p seg).length + 1 ∧ (∃ rest, (io'.written ++ rest).Perm (promised p seg)) ∧
        ((∀ r, io'.inFlight r = none) →
          io'.written.Perm (promised p seg) ∧ io'.requestActive = 0 ∧ io'.ioDone = true)

/-! ## Pieces -/

theorem blocksAt_append (size : Int) : ∀ (address : Int) (bs cs : List Buffer),
    blocksAt size address (bs ++ cs) = blocksAt size address bs ++ blocksAt size (address + size * bs.length) cs
  | address, [], cs => by simp [blocksAt]
  | address, b :: bs, cs => by
    have hnext : address + size + size * bs.length = address + size * (b :: bs).length := by
      rw [length_cons]
      push_cast
      ring
    rw [cons_append, blocksAt, blocksAt, blocksAt_append size (address + size) bs cs, hnext, cons_append]

theorem length_blocksAt (size : Int) : ∀ (address : Int) (bs : List Buffer), (blocksAt size address bs).length = bs.length
  | _, [] => rfl
  | address, _ :: bs => congrArg Nat.succ (length_blocksAt size (address + size) bs)

theorem le_of_mem_blocksAt {size : Int} (h : 0 < size) : ∀ (address : Int) (bs : List Buffer),
    ∀ x ∈ blocksAt size address bs, address ≤ x.1
  | _, [], x, hx => absurd hx not_mem_nil
  | address, b :: bs, x, hx => by
    rcases mem_cons.mp hx with rfl | htail
    · exact Int.le_refl _
    · have hle := le_of_mem_blocksAt h (address + size) bs x htail
      omega

theorem nodup_blocksAt {size : Int} (h : 0 < size) : ∀ (address : Int) (bs : List Buffer),
    ((blocksAt size address bs).map Prod.fst).Nodup
  | _, [] => nodup_nil
  | address, b :: bs => by
    refine nodup_cons.mpr ⟨fun hmem => ?_, nodup_blocksAt h (address + size) bs⟩
    obtain ⟨x, hx, heq⟩ := mem_map.mp hmem
    have hle := le_of_mem_blocksAt h (address + size) bs x hx
    omega

/-- The blocks that are left with `n` elements left, the last of them from a block on. -/
def remaining (elements : List SegElement) : Nat → Nat → List Buffer
  | 0, _ => []
  | n + 1, offset => (elements.getD n ⟨[]⟩).blocks.drop offset ++ remaining elements n 0

def InElement (elements : List SegElement) : Nat → Nat → Prop
  | 0, _ => True
  | n + 1, offset => offset ≤ (elements.getD n ⟨[]⟩).blocks.length

theorem inElement_zero (elements : List SegElement) (n : Nat) : InElement elements n 0 := by
  cases n with
  | zero => trivial
  | succ n => exact Nat.zero_le _

theorem copyElements_spec (p : SuperBlock) (elements : List SegElement) (m : Nat) :
    ∀ (n offset j : Nat) (buffer : List Buffer), j ≤ m → InElement elements n offset →
      ∃ n' offset' : Nat, copyElements p (m * p.blockSize) elements n offset (j * p.blockSize) buffer =
          ((n' : Int) - 1, (offset' : Int),
            ((j + ((remaining elements n offset).take (m - j)).length : Nat) : Int) * p.blockSize,
            buffer ++ (remaining elements n offset).take (m - j)) ∧
        remaining elements n' offset' = (remaining elements n offset).drop (m - j) ∧ InElement elements n' offset'
  | 0, offset, j, buffer, _, _ => ⟨0, offset, by simp [copyElements, remaining], by simp [remaining], trivial⟩
  | n + 1, offset, j, buffer, hj, hin => by
    have hpos := blockSize_pos p
    obtain ⟨e, he⟩ : ∃ e, elements.getD n ⟨[]⟩ = e := ⟨_, rfl⟩
    obtain ⟨r, hr⟩ : ∃ r, e.blocks.length = offset + r :=
      ⟨e.blocks.length - offset, by have : offset ≤ e.blocks.length := he ▸ hin; omega⟩
    have hdrop : (e.blocks.drop offset).length = r := by
      rw [length_drop]
      omega
    have hbytes : p.blocksToBytes (e.lengthInBlocks - offset) = r * p.blockSize := by
      rw [blocksToBytes_eq]
      unfold lengthInBlocks
      rw [hr]
      congr 1
      omega
    have hsum : (j : Int) * p.blockSize + r * p.blockSize = ((j + r : Nat) : Int) * p.blockSize := by
      push_cast
      ring
    have hrest : remaining elements (n + 1) offset = e.blocks.drop offset ++ remaining elements n 0 := by
      rw [← he]
      rfl
    unfold copyElements
    simp only [he, hbytes, hsum, Int.toNat_natCast]
    by_cases hfull : m < j + r
    · -- a piece of the element fills the buffer
      have hgt : ((j + r : Nat) : Int) * p.blockSize > m * p.blockSize :=
        Int.mul_lt_mul_of_pos_right (by omega) hpos
      have hblocks : (if (j : Int) * p.blockSize = m * p.blockSize then 0
          else p.bytesToBlocks (m * p.blockSize - j * p.blockSize)) = ((m - j : Nat) : Int) := by
        split
        · next heq =>
          have hjm : (j : Int) = m := Int.eq_of_mul_eq_mul_right (by omega) heq
          omega
        · rw [← Int.sub_mul, bytesToBlocks_mul]
          omega
      rw [if_pos hgt, hblocks, Int.toNat_natCast, blocksToBytes_eq, hrest, take_append_of_le_length (by omega),
        drop_append_of_le_length (by omega)]
      refine ⟨n + 1, offset + (m - j), ?_, ?_, ?_⟩
      · rw [length_take, hdrop, Nat.min_eq_left (by omega)]
        push_cast
        simp only [Prod.mk.injEq, and_true]
        exact ⟨by omega, trivial, by ring⟩
      · rw [remaining, he, drop_drop]
      · change _ ≤ (elements.getD n ⟨[]⟩).blocks.length
        rw [he]
        omega
    · have hle : ¬((j + r : Nat) : Int) * p.blockSize > m * p.blockSize :=
        Int.not_lt.mpr (Int.mul_le_mul_of_nonneg_right (by omega) (Int.le_of_lt hpos))
      obtain ⟨n', offset', heq, hleft, hin'⟩ := copyElements_spec p elements m n 0 (j + r)
        (buffer ++ e.blocks.drop offset) (by omega) (inElement_zero elements n)
      have htake : (remaining elements (n + 1) offset).take (m - j) =
          e.blocks.drop offset ++ (remaining elements n 0).take (m - (j + r)) := by
        rw [hrest, take_append, hdrop, take_of_length_le (by omega)]
        congr 2
        omega
      refine ⟨n', offset', ?_, ?_, hin'⟩
      · rw [if_neg hle, htake, length_append, hdrop, ← append_assoc, ← Nat.add_assoc]
        exact heq
      · have hnil : (e.blocks.drop offset).drop (m - j) = [] := drop_eq_nil_of_le (by omega)
        rw [hleft, hrest, drop_append, hdrop, hnil, nil_append]
        congr 1
        omega

/-! ## Two requests at the device -/

def SegIo.left (io : SegIo) : List Buffer := remaining io.elements (io.curElement + 1).toNat io.curBlockOffset.toNat

/-- `curElement` and `curBlockOffset` name a block, or the end of an element. -/
def SegIo.Placed (io : SegIo) : Prop :=
  ∃ n offset : Nat, io.curElement = n - 1 ∧ io.curBlockOffset = offset ∧ InElement io.elements n offset

variable {p : SuperBlock} {io : SegIo}

theorem fill_spec (hp : p.blockSize = bytesPerSector) (h : io.Placed) (m : Nat) :
    ∃ request io', io.fill p (m * p.blockSize) = (request, io') ∧
      request.startAddress = bytesPerSector * io.nextDiskAddress ∧ request.buffer = io.left.take m ∧
      request.bufferLen = (io.left.take m).length * bytesPerSector ∧ io'.left = io.left.drop m ∧ io'.Placed ∧
      io'.nextDiskAddress = io.nextDiskAddress + (io.left.take m).length ∧
      io' = { io with curElement := io'.curElement, curBlockOffset := io'.curBlockOffset, nextDiskAddress := io'.nextDiskAddress } := by
  obtain ⟨n, offset, hcur, hoff, hin⟩ := h
  have hn : (io.curElement + 1).toNat = n := by omega
  have hleft : io.left = remaining io.elements n offset := by
    unfold SegIo.left
    rw [hn, hoff, Int.toNat_natCast]
  obtain ⟨n', offset', hcopy, hrest, hin'⟩ := copyElements_spec p io.elements m n offset 0 [] (Nat.zero_le _) hin
  rw [Nat.sub_zero, ← hleft] at hcopy hrest
  have hfill : io.fill p (m * p.blockSize) = (⟨bytesPerSector * io.nextDiskAddress,
      (io.left.take m).length * bytesPerSector, io.left.take m⟩, { io with
        curElement := (n' : Int) - 1
        curBlockOffset := (offset' : Int)
        nextDiskAddress := io.nextDiskAddress + (io.left.take m).length }) := by
    have hzero : (0 : Int) = ((0 : Nat) : Int) * p.blockSize := by simp
    have hdiv : (((io.left.take m).length : Int) * bytesPerSector).tdiv bytesPerSector = (io.left.take m).length :=
      Int.mul_tdiv_cancel _ (by decide)
    unfold SegIo.fill
    rw [hn, hoff, hzero, hcopy, Nat.zero_add, nil_append, hp]
    simp only [hdiv]
  refine ⟨_, _, hfill, rfl, rfl, rfl, ?_, ⟨n', offset', rfl, rfl, hin'⟩, rfl, rfl⟩
  change remaining io.elements ((n' : Int) - 1 + 1).toNat (offset' : Int).toNat = _
  rw [Int.sub_add_cancel, Int.toNat_natCast, Int.toNat_natCast, hrest]

/-- The blocks of the request `r`, if it is at the device. -/
def SegIo.flight (io : SegIo) (r : Bool) : List (Int × Buffer) :=
  match io.inFlight r with
  | none => []
  | some request => blocksAt bytesPerSector request.startAddress request.buffer

/-- How many requests are at the device. -/
def SegIo.flying (io : SegIo) : Nat := (io.inFlight false).toList.length + (io.inFlight true).toList.length

def SegIo.future (io : SegIo) : List (Int × Buffer) := blocksAt bytesPerSector (bytesPerSector * io.nextDiskAddress) io.left

/-- Between two completions: blocks written, at the device, and left are all of them. -/
structure Pumping (all : List (Int × Buffer)) (io : SegIo) : Prop where
  placed : io.Placed
  blocks : ∀ r, (io.written ++ io.flight r ++ io.flight (!r) ++ io.future).Perm all
  idle : ∀ r, io.inFlight r = none → io.left = []
  active : io.requestActive = io.flying
  done : (∀ r, io.inFlight r = none) → io.ioDone = true

theorem future_split (io : SegIo) (m : Nat) : io.future =
    blocksAt bytesPerSector (bytesPerSector * io.nextDiskAddress) (io.left.take m) ++
      blocksAt bytesPerSector (bytesPerSector * (io.nextDiskAddress + (io.left.take m).length)) (io.left.drop m) := by
  have haddr : bytesPerSector * (io.nextDiskAddress + (io.left.take m).length) =
      bytesPerSector * io.nextDiskAddress + bytesPerSector * (io.left.take m).length := Int.mul_add _ _ _
  unfold SegIo.future
  conv => lhs; rw [← take_append_drop m io.left]
  rw [blocksAt_append, haddr]

variable {r : Bool}

theorem flight_some {request : SegRequest} (h : io.inFlight r = some request) :
    io.flight r = blocksAt bytesPerSector request.startAddress request.buffer := by
  unfold SegIo.flight
  rw [h]

theorem flight_none (h : io.inFlight r = none) : io.flight r = [] := by
  unfold SegIo.flight
  rw [h]

theorem flying_eq (io : SegIo) (r : Bool) :
    io.flying = (io.inFlight r).toList.length + (io.inFlight (!r)).toList.length := by
  cases r with
  | false => rfl
  | true => exact Nat.add_comm _ _

variable {all : List (Int × Buffer)} {io' : SegIo}

theorem blocks_of_one (h : (io.written ++ io.flight r ++ io.flight (!r) ++ io.future).Perm all) (r' : Bool) :
    (io.written ++ io.flight r' ++ io.flight (!r') ++ io.future).Perm all := by
  by_cases heq : r' = r
  · rw [heq]
    exact h
  · have hnot : r' = !r := Bool.eq_not.mpr heq
    rw [hnot, Bool.not_not]
    refine List.Perm.trans (List.Perm.append_right _ ?_) h
    rw [append_assoc, append_assoc]
    exact List.Perm.append_left _ perm_append_comm

theorem flight_congr (h : io'.inFlight r = io.inFlight r) : io'.flight r = io.flight r := by
  unfold SegIo.flight
  rw [h]

variable {m : Nat}

theorem Pumping.step (hp : p.blockSize = bytesPerSector)
    (h : Pumping all io) (hm : 0 < m) (hs : segIoDone p (m * p.blockSize) io r = some io') :
    Pumping all io' ∧ io'.left.length + io'.flying < io.left.length + io.flying := by
  obtain ⟨request, hr, heq⟩ := Option.map_eq_some_iff.mp hs
  have hplaced : (io.write p request).Placed := h.placed
  obtain ⟨next, u, hfill, hstart, hbuf, hlen, hrest, hplaced', hnext, hu⟩ := fill_spec hp hplaced m
  have hwritten : u.written = io.written ++ io.flight r := by
    rw [hu, flight_some hr]
    change io.written ++ blocksAt p.blockSize request.startAddress request.buffer = _
    rw [hp]
  have hin : u.inFlight = io.inFlight := by rw [hu]; rfl
  have hactive : u.requestActive = io.flying := by rw [hu]; exact h.active
  have hsplit : io.future = blocksAt bytesPerSector (bytesPerSector * io.nextDiskAddress) (io.left.take m) ++ u.future := by
    rw [future_split io m]
    unfold SegIo.future
    rw [hnext, hrest]
    rfl
  have hperm := h.blocks r
  rw [← hwritten, hsplit] at hperm
  have hcount := flying_eq io r
  rw [hr] at hcount
  simp only [hfill] at heq
  by_cases hempty : next.bufferLen = 0
  · have htake : (io.left.take m).length = 0 := by
      have hlen' : ((io.left.take m).length : Int) * bytesPerSector = 0 := hlen.symm.trans hempty
      have hzero := (Int.mul_eq_zero.mp hlen').resolve_right (by decide)
      omega
    have hnil : io.left = [] := by
      rw [length_take] at htake
      exact length_eq_zero_iff.mp (by omega)
    have hnil' : u.left = [] := by
      rw [hrest]
      change io.left.drop m = []
      rw [hnil, drop_nil]
    rw [if_pos hempty] at heq
    have hself : io'.inFlight r = none := by
      rw [← heq]
      exact update_self _ _ _
    have hother : io'.inFlight (!r) = io.inFlight (!r) := by
      rw [← heq, ← hin]
      exact update_of_ne (by simp) _ _
    have hflying : io'.flying + 1 = io.flying := by
      rw [flying_eq io' r, hself, hother, hcount]
      exact Nat.add_right_comm 0 _ 1
    have hleft : io'.left = [] := by
      rw [← heq]
      exact hnil'
    have hactive' : io'.requestActive = io'.flying := by
      have hdrop : io'.requestActive = u.requestActive - 1 := by rw [← heq]
      omega
    refine ⟨⟨?_, blocks_of_one (r := r) ?_, fun _ _ => hleft, hactive', ?_⟩, ?_⟩
    · rw [← heq]
      exact hplaced'
    · have hw : io'.written = u.written := by rw [← heq]
      have hf : io'.future = u.future := by rw [← heq]; rfl
      rw [hw, flight_none hself, flight_congr hother, hf, append_nil]
      rw [hnil, take_nil] at hperm
      exact hperm
    · intro hnone
      have hzero : u.requestActive - 1 = 0 := by
        have hstill : io'.requestActive = u.requestActive - 1 := by rw [← heq]
        rw [← hstill, hactive', flying_eq io' r, hnone r, hnone (!r)]
        rfl
      rw [← heq]
      exact if_pos hzero
    · rw [hleft, hnil]
      omega
  · have htake : 0 < (io.left.take m).length := by
      by_contra hzero
      have hlen' : next.bufferLen = ((io.left.take m).length : Int) * bytesPerSector := hlen
      rw [Nat.eq_zero_of_not_pos hzero] at hlen'
      exact hempty (hlen'.trans (Int.zero_mul _))
    rw [if_neg hempty] at heq
    have hself : io'.inFlight r = some next := by
      rw [← heq]
      exact update_self _ _ _
    have hother : io'.inFlight (!r) = io.inFlight (!r) := by
      rw [← heq, ← hin]
      exact update_of_ne (by simp) _ _
    have hflying : io'.flying = io.flying := by
      rw [flying_eq io' r, hself, hother, hcount]
      rfl
    have hleft : io'.left = io.left.drop m := by
      rw [← heq]
      exact hrest
    refine ⟨⟨?_, blocks_of_one (r := r) ?_, ?_, ?_, ?_⟩, ?_⟩
    · rw [← heq]
      exact hplaced'
    · have hw : io'.written = u.written := by rw [← heq]
      have hf : io'.future = u.future := by rw [← heq]; rfl
      have hpiece : io'.flight r = blocksAt bytesPerSector (bytesPerSector * io.nextDiskAddress) (io.left.take m) := by
        rw [flight_some hself, hstart, hbuf]
        rfl
      rw [hw, hpiece, flight_congr hother, hf]
      refine List.Perm.trans ?_ hperm
      rw [append_assoc, append_assoc, append_assoc]
      refine List.Perm.append_left _ ?_
      rw [← append_assoc, ← append_assoc]
      exact List.Perm.append_right _ perm_append_comm
    · intro r' hr'
      have hne : r' = !r := by
        refine Bool.eq_not.mpr (fun heqr => ?_)
        rw [heqr, hself] at hr'
        exact absurd hr' (by simp)
      rw [hne, hother] at hr'
      rw [hleft, h.idle _ hr', drop_nil]
    · rw [hflying, ← hactive, ← heq]
    · intro hnone
      exact absurd (hself.symm.trans (hnone r)) (by simp)
    · rw [hleft, hflying, length_drop]
      rw [length_take] at htake
      omega

theorem Pumping.run (hp : p.blockSize = bytesPerSector) (hm : 0 < m) :
    ∀ (order : List Bool) {io io' : SegIo}, Pumping all io → exec (segIoDone p (m * p.blockSize)) io order = some io' →
      Pumping all io' ∧ order.length + (io'.left.length + io'.flying) ≤ io.left.length + io.flying
  | [], io, io', h, hrun => by
    cases hrun
    exact ⟨h, Nat.le_of_eq (Nat.zero_add _)⟩
  | r :: order, io, io', h, hrun => by
    obtain ⟨u, hu, hrest⟩ := Option.bind_eq_some_iff.mp hrun
    obtain ⟨hstep, hlt⟩ := h.step hp hm hu
    obtain ⟨hend, hle⟩ := Pumping.run hp hm order hstep hrest
    refine ⟨hend, ?_⟩
    rw [length_cons]
    omega

variable {seg : LfsSeg}

theorem writeSegmentStart_pumping (hp : p.blockSize = bytesPerSector) (hm : 0 < m) (active : Int)
    (hne : seg.segIsEmpty = some false) :
    ∃ io, writeSegmentStart p (m * p.blockSize) active seg = some io ∧
      Pumping (blocksAt bytesPerSector (bytesPerSector *
        (p.segNumToDiskAddress seg.logRange.current + (p.segSizeInBlocks - seg.curBlockOffset)))
        (remaining seg.elements seg.elements.length 0)) io ∧
      io.left.length + io.flying ≤ (remaining seg.elements seg.elements.length 0).length + 1 := by
  obtain ⟨io, hio⟩ : ∃ io : SegIo, io = {
      elements := seg.elements
      curElement := seg.elements.length - 1
      curBlockOffset := 0
      nextDiskAddress := p.segNumToDiskAddress seg.logRange.current + (p.segSizeInBlocks - seg.curBlockOffset)
      requestActive := active
      ioDone := false
      inFlight := fun _ => none
      written := [] } := ⟨_, rfl⟩
  have hplaced : io.Placed := ⟨seg.elements.length, 0, by rw [hio], by rw [hio]; rfl, by rw [hio]; exact inElement_zero _ _⟩
  have hleft : io.left = remaining seg.elements seg.elements.length 0 := by
    rw [hio]
    change remaining seg.elements ((seg.elements.length : Int) - 1 + 1).toNat 0 = _
    rw [Int.sub_add_cancel, Int.toNat_natCast]
  have hall : io.future = blocksAt bytesPerSector (bytesPerSector *
      (p.segNumToDiskAddress seg.logRange.current + (p.segSizeInBlocks - seg.curBlockOffset)))
      (remaining seg.elements seg.elements.length 0) := by
    unfold SegIo.future
    rw [hleft, hio]
  obtain ⟨first, u, hfirst, hstart, hbuf, hlen, hrest, hplacedu, hnext, hu⟩ := fill_spec hp hplaced m
  obtain ⟨second, v, hsecond, hstart', hbuf', hlen', hrest', hplacedv, hnext', hv⟩ := fill_spec hp hplacedu m
  have hwritten : v.written = [] := by rw [hv, hu, hio]
  have hsplit : io.future = blocksAt bytesPerSector first.startAddress first.buffer ++ u.future := by
    rw [future_split io m, hstart, hbuf]
    unfold SegIo.future
    rw [hnext, hrest]
  have hsplit' : u.future = blocksAt bytesPerSector second.startAddress second.buffer ++ v.future := by
    rw [future_split u m, hstart', hbuf']
    unfold SegIo.future
    rw [hnext', hrest']
  have hrun : writeSegmentStart p (m * p.blockSize) active seg = some (if second.bufferLen > 0 then
      { v with requestActive := 2, inFlight := fun r => if r then some second else some first }
      else { v with requestActive := 1, inFlight := fun r => if r then none else some first }) := by
    unfold writeSegmentStart
    rw [hne, Option.map_some, ← hio]
    simp only [hfirst, hsecond]
    rfl
  rw [hrun, ← hall, ← hleft]
  by_cases htwo : second.bufferLen > 0
  · rw [if_pos htwo]
    refine ⟨_, rfl, ⟨hplacedv, blocks_of_one (r := false) ?_, fun r hr => ?_, rfl, fun hnone => ?_⟩, ?_⟩
    · change (v.written ++ blocksAt bytesPerSector first.startAddress first.buffer ++
        blocksAt bytesPerSector second.startAddress second.buffer ++ v.future).Perm io.future
      rw [hwritten, hsplit, hsplit', nil_append, append_assoc]
    · cases r <;> exact absurd hr (by simp)
    · exact absurd (hnone false) (by simp)
    · change v.left.length + 2 ≤ _
      have hone : 0 < (u.left.take m).length := by
        by_contra hzero
        rw [hlen', Nat.eq_zero_of_not_pos hzero] at htwo
        exact absurd htwo (by decide)
      rw [length_take, hrest, length_drop] at hone
      rw [hrest', hrest, length_drop, length_drop]
      omega
  · rw [if_neg htwo]
    have hnil : u.left = [] := by
      have hzero : (u.left.take m).length = 0 := by
        by_contra hpos
        refine htwo ?_
        rw [hlen']
        exact Int.mul_pos (by omega) (by decide)
      rw [length_take] at hzero
      exact length_eq_zero_iff.mp (by omega)
    have hnilv : v.left = [] := by rw [hrest', hnil, drop_nil]
    have hfuture : u.future = v.future := by
      rw [hsplit', hbuf', hnil, take_nil]
      rfl
    refine ⟨_, rfl, ⟨hplacedv, blocks_of_one (r := false) ?_, fun _ _ => hnilv, rfl, fun hnone => ?_⟩, ?_⟩
    · change (v.written ++ blocksAt bytesPerSector first.startAddress first.buffer ++ [] ++ v.future).Perm io.future
      rw [hwritten, hsplit, hfuture, nil_append, append_nil]
    · exact absurd (hnone false) (by simp)
    · change v.left.length + 1 ≤ _
      rw [hnilv]
      exact Nat.add_le_add_right (Nat.zero_le _) 1

/-! ## The addresses while the segment is filled -/

/-- The elements of a segment while it is filled: the current one is the last. -/
structure Filled (seg : LfsSeg) : Prop where
  last : seg.curElement = seg.elements.length - 1
  offset : seg.curBlockOffset = seg.startBlockOffset + (seg.elements.map lengthInBlocks).sum

theorem filled_getSegStruct (p : SuperBlock) (logRange : LogRange) (start : Int) : Filled (getSegStruct p logRange start) :=
  ⟨rfl, (Int.add_zero start).symm⟩

variable {t : LfsSeg}

theorem Filled.add (h : Filled seg) {buffer : List Buffer} (hadd : seg.slowAddDataBuffer buffer = some t) :
    Filled t ∧ t.elements = seg.elements ++ [⟨buffer⟩] ∧ t.logRange = seg.logRange ∧
      t.startBlockOffset = seg.startBlockOffset := by
  obtain ⟨-, ht⟩ := Option.ite_none_left_eq_some.mp hadd
  have hlast := h.last
  have htake : seg.elements.take (seg.curElement + 1).toNat = seg.elements := take_of_length_le (by omega)
  have helements : t.elements = seg.elements ++ [⟨buffer⟩] := by
    cases ht
    exact congrArg (· ++ [⟨buffer⟩]) htake
  refine ⟨⟨?_, ?_⟩, helements, by rw [← Option.some.inj ht], by rw [← Option.some.inj ht]⟩
  · rw [helements, length_append, ← Option.some.inj ht]
    change seg.curElement + 1 = ((seg.elements.length + 1 : Nat) : Int) - 1
    omega
  · rw [helements, map_append, sum_append, ← Option.some.inj ht]
    change seg.curBlockOffset + buffer.length = seg.startBlockOffset + (_ + ((buffer.length : Int) + 0))
    rw [h.offset]
    omega

theorem Filled.edit (h : Filled seg) (hsame : SameShape seg t) : Filled t := by
  have hlen : t.elements.length = seg.elements.length := by
    have hmap := congrArg List.length hsame.lengths
    rw [length_map, length_map] at hmap
    exact hmap
  refine ⟨?_, ?_⟩
  · rw [hsame.curElement, h.last, hlen]
  · rw [hsame.curBlockOffset, h.offset, hsame.start, hsame.lengths]

variable {s : LfsSeg}

theorem Filling.prefix (hs : Filled s) (h : Filling s t) : Filled t ∧
    (s.elements.map lengthInBlocks) <+: (t.elements.map lengthInBlocks) ∧
      t.logRange.current = s.logRange.current ∧ t.startBlockOffset = s.startBlockOffset := by
  induction h with
  | refl => exact ⟨hs, prefix_refl _, rfl, rfl⟩
  | add buffer _ hadd ih =>
    obtain ⟨hfilled, hprefix, hcur, hstart⟩ := ih
    obtain ⟨hfilled', helements, hrange', hstart'⟩ := hfilled.add hadd
    refine ⟨hfilled', ?_, by rw [hrange', hcur], hstart'.trans hstart⟩
    rw [helements, map_append]
    exact hprefix.trans (prefix_append _ _)
  | edit _ hsame ih =>
    obtain ⟨hfilled, hprefix, hcur, hstart⟩ := ih
    refine ⟨hfilled.edit hsame, ?_, hsame.current.trans hcur, hsame.start.trans hstart⟩
    rw [hsame.lengths]
    exact hprefix

theorem Filled.slowDiskAddress (h : Filled seg) (p : SuperBlock) (e : Nat) :
    seg.slowDiskAddress p e = p.segNumToDiskAddress seg.logRange.current + (p.segSizeInBlocks -
      (seg.startBlockOffset + ((seg.elements.map lengthInBlocks).take (e + 1)).sum)) := by
  have hlast := h.last
  unfold LfsSeg.slowDiskAddress
  rw [← map_take]
  by_cases hcur : (e : Int) = seg.curElement
  · have hall : seg.elements.take (e + 1) = seg.elements := take_of_length_le (by omega)
    rw [if_pos hcur, h.offset, hall]
  · rw [if_neg hcur]

theorem Filling.slowDiskAddress (hs : Filled s) (h : Filling s t) (p : SuperBlock) {e : Nat}
    (he : e < s.elements.length) : t.slowDiskAddress p e = s.slowDiskAddress p e := by
  obtain ⟨ht, hprefix, hcur, hstart⟩ := h.prefix hs
  have htake : (t.elements.map lengthInBlocks).take (e + 1) =
      (s.elements.map lengthInBlocks).take (e + 1) := by
    obtain ⟨rest, hrest⟩ := hprefix
    rw [← hrest, take_append_of_le_length]
    rw [length_map]
    exact he
  rw [ht.slowDiskAddress, hs.slowDiskAddress, hcur, hstart, htake]

theorem sameShape_editSummary (seg : LfsSeg) (summary : Nat) (f : Buffer → Buffer) : SameShape seg (seg.editSummary summary f) := by
  refine ⟨rfl, rfl, ?_, rfl, rfl, rfl⟩
  refine ext_getElem? (fun i => ?_)
  rw [List.getElem?_map, List.getElem?_map]
  change Option.map _ (seg.elements.modify summary _)[i]? = _
  rw [List.getElem?_modify]
  cases seg.elements[i]? with
  | none => rfl
  | some e =>
    split
    · exact congrArg some (congrArg Nat.cast (length_modify _ _ _))
    · rfl

theorem Filling.addNewSummaryBlock {u : LfsSeg} (h : Filling s t) {timestamp : Nat} {memory : Buffer}
    (hadd : t.addNewSummaryBlock p timestamp memory = some u) : Filling s u := by
  obtain ⟨added, hbuffer, hu⟩ := Option.map_eq_some_iff.mp hadd
  refine (h.add _ hbuffer).edit ?_
  rw [← hu]
  cases t.curSegSummary with
  | none => exact ⟨rfl, rfl, rfl, rfl, rfl, rfl⟩
  | some last => exact ⟨rfl, rfl, (sameShape_editSummary added last _).lengths, rfl, rfl, rfl⟩

theorem elementAt_eq (address : DiskAddr) (e : SegElement) :
    elementAt address e = blocksAt bytesPerSector (bytesPerSector * address) e.blocks := by
  have hshift : ∀ (bs : List Buffer) (k : Nat), (bs.zipIdx k).map (fun bk => (bytesPerSector * (address + bk.2), bk.1)) =
      blocksAt bytesPerSector (bytesPerSector * (address + k)) bs := by
    intro bs
    induction bs with
    | nil => exact fun _ => rfl
    | cons b bs ih =>
      intro k
      have hnext : bytesPerSector * (address + k) + bytesPerSector = bytesPerSector * (address + (k + 1 : Nat)) := by
        push_cast
        ring
      rw [zipIdx_cons, map_cons, blocksAt, ih (k + 1), hnext]
  have hzero := hshift e.blocks 0
  rw [Nat.cast_zero, Int.add_zero] at hzero
  exact hzero

theorem remaining_perm (elements : List SegElement) (base : Int) (address : Nat → DiskAddr)
    (h : ∀ e < elements.length, address e = base - ((elements.map lengthInBlocks).take (e + 1)).sum) :
    ∀ n ≤ elements.length, (blocksAt bytesPerSector
      (bytesPerSector * (base - ((elements.map lengthInBlocks).take n).sum)) (remaining elements n 0)).Perm
        ((elements.take n).zipIdx.flatMap (fun ei => elementAt (address ei.2) ei.1))
  | 0, _ => List.Perm.refl _
  | n + 1, hn => by
    have hget : elements.getD n ⟨[]⟩ = elements[n] := by
      rw [getD_eq_getElem?_getD, List.getElem?_eq_getElem hn, Option.getD_some]
    have hsum : ((elements.map lengthInBlocks).take (n + 1)).sum =
        ((elements.map lengthInBlocks).take n).sum + (elements[n].blocks.length : Int) := by
      rw [take_succ_eq_append_getElem (by rw [length_map]; exact hn), sum_append, sum_singleton,
        getElem_map]
      rfl
    have hnext : bytesPerSector * (base - ((elements.map lengthInBlocks).take (n + 1)).sum) +
        bytesPerSector * elements[n].blocks.length =
        bytesPerSector * (base - ((elements.map lengthInBlocks).take n).sum) := by
      rw [hsum]
      ring
    have hidx : (elements.take (n + 1)).zipIdx = (elements.take n).zipIdx ++ [(elements[n], n)] := by
      rw [take_succ_eq_append_getElem hn, zipIdx_append, length_take, Nat.zero_add,
        Nat.min_eq_left (by omega)]
      rfl
    rw [remaining, hget, drop_zero, blocksAt_append, hnext, hidx, flatMap_append, flatMap_cons,
      flatMap_nil, append_nil, elementAt_eq, h n hn]
    exact perm_append_comm.trans (List.Perm.append_right _ (remaining_perm elements base address h n (by omega)))

/-- If an LFS block is a sector, every segment that is not empty is written as promised. -/
theorem writes_as_promised {p : SuperBlock} (hp : p.blockSize = bytesPerSector) {logRange : LogRange} {start : Int}
    {seg : LfsSeg} (hfill : Filling (getSegStruct p logRange start) seg) (hne : seg.segIsEmpty = some false) {m : Nat}
    (hm : 0 < m) (requestActive : Int) :
    WritesAsPromised p (m * p.blockSize) requestActive seg ∧
      ∀ t, Filling (getSegStruct p logRange start) t → Filling t seg → ∀ e < t.elements.length,
        t.slowDiskAddress p e = seg.slowDiskAddress p e := by
  have hstart := filled_getSegStruct p logRange start
  obtain ⟨hfilled, -, -, -⟩ := hfill.prefix hstart
  obtain ⟨io, hio, hpump, hcount⟩ := writeSegmentStart_pumping hp hm requestActive hne
  have haddress : ∀ e < seg.elements.length, seg.slowDiskAddress p e =
      p.segNumToDiskAddress seg.logRange.current + (p.segSizeInBlocks - seg.startBlockOffset) -
        ((seg.elements.map lengthInBlocks).take (e + 1)).sum := by
    intro e _
    rw [hfilled.slowDiskAddress]
    ring
  have hall : (seg.elements.map lengthInBlocks).take seg.elements.length =
      seg.elements.map lengthInBlocks := take_of_length_le (by rw [length_map])
  have hperm := remaining_perm seg.elements _ (seg.slowDiskAddress p) haddress seg.elements.length (Nat.le_refl _)
  rw [take_length, hall, Int.add_sub_assoc, Int.sub_sub, ← hfilled.offset] at hperm
  refine ⟨⟨?_, io, hio, fun order io' hrun => ?_⟩, fun t ht hts e he => ?_⟩
  · exact (hperm.map Prod.fst).nodup_iff.mp (nodup_blocksAt (by decide) _ _)
  · obtain ⟨hend, hle⟩ := hpump.run hp hm order hrun
    have hlen := hperm.length_eq
    rw [length_blocksAt] at hlen
    change _ = (promised p seg).length at hlen
    refine ⟨by omega, ⟨io'.flight false ++ io'.flight true ++ io'.future, ?_⟩, fun hidle => ⟨?_, ?_, hend.done hidle⟩⟩
    · have hall := (hend.blocks false).trans hperm
      rw [append_assoc, append_assoc] at hall
      rw [append_assoc]
      exact hall
    · have hall := (hend.blocks false).trans hperm
      have hfuture : io'.future = [] := by
        unfold SegIo.future
        rw [hend.idle false (hidle false)]
        rfl
      rw [flight_none (hidle _), flight_none (hidle _), hfuture, append_nil, append_nil, append_nil] at hall
      exact hall
    · rw [hend.active]
      unfold SegIo.flying
      rw [hidle, hidle]
      rfl
  · obtain ⟨htfilled, -, -, -⟩ := ht.prefix hstart
    exact (hts.slowDiskAddress htfilled p he).symm

/-! ## Three segments -/

def oneSegment (blockSizeShift : Nat) : SuperBlock where
  blockSizeShift := blockSizeShift
  logStartOffset := 16
  segmentSize := 2 ^ (blockSizeShift + 3)
  numberSegments := 1
  minNumClean := 0
  numSegsToClean := 0
  entriesPerBlock := 1
  stableBlockSize := 512

def onlySegment : LogRange where
  current := 0
  prevSeg := -1
  nextSeg := -1

def zeros : Buffer := fun _ => 0

/-- An element of one block and an element of two, written two blocks at a time. -/
theorem three_blocks_written : ∃ t u, (getSegStruct (oneSegment 9) onlySegment 0).slowAddDataBuffer [zeros] = some t ∧
    t.slowAddDataBuffer [zeros, zeros] = some u ∧
    WritesAsPromised (oneSegment 9) ((2 : Nat) * (oneSegment 9).blockSize) 0 u ∧
    (promised (oneSegment 9) u).map Prod.fst = [512 * 23, 512 * 21, 512 * 22] := by
  obtain ⟨t, ht⟩ : ∃ t, (getSegStruct (oneSegment 9) onlySegment 0).slowAddDataBuffer [zeros] = some t := ⟨_, rfl⟩
  obtain ⟨u, hu⟩ : ∃ u, t.slowAddDataBuffer [zeros, zeros] = some u := by
    cases ht
    exact ⟨_, rfl⟩
  have hne : u.segIsEmpty = some false := by
    cases ht
    cases hu
    rfl
  have hfill : Filling (getSegStruct (oneSegment 9) onlySegment 0) u := (Filling.refl.add _ ht).add _ hu
  refine ⟨t, u, ht, hu, (writes_as_promised (by decide) hfill hne (m := 2) (by decide) 0).1, ?_⟩
  cases ht
  cases hu
  decide

/-- An empty segment stays in memory; blocks of two sectors laid out one apart are written two apart. -/
theorem not_as_promised :
    (∃ seg, Filling (getSegStruct (oneSegment 9) onlySegment 0) seg ∧ seg.segIsEmpty = some true ∧
      ¬WritesAsPromised (oneSegment 9) (oneSegment 9).blockSize 0 seg) ∧
    ∃ seg, Filling (getSegStruct (oneSegment 10) onlySegment 0) seg ∧ seg.segIsEmpty = some false ∧
      ¬WritesAsPromised (oneSegment 10) (2 * (oneSegment 10).blockSize) 0 seg := by
  refine ⟨?_, ?_⟩
  · obtain ⟨seg, hseg⟩ : ∃ seg, (getSegStruct (oneSegment 9) onlySegment 0).addNewSummaryBlock (oneSegment 9) 0 zeros =
        some seg := ⟨_, rfl⟩
    have hempty : seg.segIsEmpty = some true := by
      have hone : seg.numBlocks = 1 := by
        cases hseg
        rfl
      have hblock : seg.summaryBlock = some (LfsSeg.newSummary onlySegment 0 zeros) := by
        cases hseg
        rfl
      rw [LfsSeg.segIsEmpty, if_pos hone, hblock, Option.map_some]
      exact congrArg some (decide_eq_true (LfsSeg.size_newSummary onlySegment 0 zeros))
    refine ⟨seg, Filling.refl.addNewSummaryBlock hseg, hempty, fun hall => ?_⟩
    obtain ⟨-, io, hio, hrun⟩ := hall
    obtain ⟨-, -, hend⟩ := hrun [] io rfl
    rw [writeSegmentStart, hempty, Option.map_some] at hio
    cases hio
    cases hseg
    have hlen := (hend (fun _ => rfl)).1.length_eq
    exact absurd hlen (by decide)
  · obtain ⟨seg, hseg⟩ : ∃ seg, (getSegStruct (oneSegment 10) onlySegment 0).slowAddDataBuffer [zeros, zeros] = some seg :=
      ⟨_, rfl⟩
    refine ⟨seg, Filling.refl.add _ hseg, ?_, fun hall => ?_⟩
    · cases hseg
      rfl
    · obtain ⟨-, io, hio, hrun⟩ := hall
      cases hseg
      cases hio
      obtain ⟨-, -, hend⟩ := hrun [false] _ rfl
      have hperm := ((hend (by decide)).1.map Prod.fst)
      exact absurd hperm (by decide)

end SpriteKernel.Lfs
