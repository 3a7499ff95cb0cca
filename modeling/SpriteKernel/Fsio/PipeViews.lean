import SpriteKernel.Fsio.Pipe

/- What the routines beside read and write make of how full a pipe is: `Fsio_PipeSelect`, the `IOC_NUM_READABLE` of
   `Fsio_PipeIOControl` and `Fsio_PipeGetIOAttr`, each from the floating offsets; no two of the last agree in any
   state. -/
namespace SpriteKernel.Fsio.Pipe

open SpriteKernel.Fsconsist Transition Ring

variable {h : PipeIOHandle} {first n : Nat}

/-- `Fsio_PipeSelect`: the read and the write bit, of those that are asked for. -/
def pipeSelect (read write : Bool) (h : PipeIOHandle) : Bool × Bool :=
  (read && !(decide (h.firstByte = -1) && !h.writerGone),
    write && !(decide ((toInt (h.firstByte + 1)).tmod fsBlockSize = h.lastByte) && !h.readerGone))

/-- `IOC_NUM_READABLE`, in the caller's own format. -/
def numReadable (outBufSize : Nat) (h : PipeIOHandle) : ReturnStatus × Option Int :=
  if outBufSize ≠ 4 then (.genInvalidArg, none) else (.success, some (toInt (h.lastByte - h.firstByte)))

/-- The `size` of `Fsio_PipeGetIOAttr`. -/
def ioAttrSize (h : PipeIOHandle) : Int := toInt (h.lastByte - h.firstByte + 1)

/-- A write of one byte is taken. -/
def Accepts (h : PipeIOHandle) : Prop := ∀ buffer, (pipeWrite buffer 1 h).1.length = 1

/-- All of them tell of `n` bytes. -/
structure Agree (h : PipeIOHandle) (n : Nat) : Prop where
  writable : (pipeSelect true true h).2 = true ↔ n < fsBlockSize
  accepts : Accepts h ↔ n < fsBlockSize
  readable : (pipeSelect true true h).1 = true ↔ 0 < n
  numReadable : numReadable 4 h = (.success, some (n : Int))
  size : ioAttrSize h = n

theorem not_agree (h : PipeIOHandle) (n : Nat) : ¬Agree h n := by
  intro ha
  have hnum := ha.numReadable
  have hsize := ha.size
  simp only [numReadable, ioAttrSize, toInt, ne_eq, not_true_eq_false, if_false, Prod.mk.injEq, Option.some.injEq, true_and] at hnum hsize
  omega

theorem Spans.room (hs : Spans h first n) : room h = fsBlockSize - n := by
  have hfits := hs.fits
  unfold Pipe.room fsBlockSize at *
  by_cases hn : n = 0
  · rw [if_pos (hs.empty hn).2.1]
    omega
  · obtain ⟨hf, hl⟩ := hs.full (by omega)
    rw [if_neg (by omega), toInt_of_fits (by omega) (by omega)]
    omega

theorem length_pipeWrite_one (hopen : h.readerGone = false) (buffer : Nat → UInt8) :
    (pipeWrite buffer 1 h).1.length = if room h = 0 then 0 else min (room h) 1 := by
  simp only [pipeWrite, hopen, Bool.false_eq_true, if_false]
  split <;> rfl

theorem Spans.accepts (hs : Spans h first n) (hopen : h.readerGone = false) : Accepts h ↔ n < fsBlockSize := by
  simp only [Accepts, length_pipeWrite_one hopen, hs.room, forall_const]
  split <;> omega

/-- A pipe with two bytes, of which the first is not at the end of the block, is not writable. -/
theorem Spans.writable (hs : Spans h first n) (hopen : h.readerGone = false) :
    (pipeSelect true true h).2 = false ↔ n = 2 ∧ first + 1 < fsBlockSize := by
  have hbelow := hs.below
  simp only [pipeSelect, hopen, Bool.true_and, Bool.not_false, Bool.and_true, Bool.not_eq_false', decide_eq_true_eq]
  by_cases hn : n = 0
  · obtain ⟨-, hf, hl⟩ := hs.empty hn
    rw [hf, hl]
    constructor
    · exact fun h => absurd h (by decide)
    · omega
  · obtain ⟨hf, hl⟩ := hs.full (by omega)
    rw [hf, hl, toInt_of_fits (by omega) (by omega), Int.tmod_eq_emod_of_nonneg (by omega)]
    unfold fsBlockSize
    omega

theorem Spans.length_buffered (hs : Spans h first n) : (Pipe.buffered h).length = n := by
  rw [hs.buffered, length_window]

/-- **The views of a pipe** never all agree, and where each of them is wrong. -/
theorem views_never_agree {server : HostId} {garbage : Nat → UInt8} {p : State} :
    (Run step (fun _ _ => True) (created server garbage) p → ∀ n, ¬Agree p.handle n) ∧
      (Run step Keeps (created server garbage) p → p.handle.readerGone = false → p.handle.writerGone = false →
        (((pipeSelect true true p.handle).2 = true ↔ Accepts p.handle) ↔ (buffered p.handle).length ≠ fsBlockSize ∧
          ¬((buffered p.handle).length = 2 ∧ p.handle.firstByte + 1 < fsBlockSize)) ∧
        ((pipeSelect true true p.handle).1 = true ↔ 0 < (buffered p.handle).length) ∧
        (numReadable 4 p.handle = (.success, some ((buffered p.handle).length : Int)) ↔ (buffered p.handle).length = 0) ∧
        (ioAttrSize p.handle = (buffered p.handle).length ↔ 0 < (buffered p.handle).length)) := by
  refine ⟨fun _ n => not_agree _ n, fun hrun hreader hwriter => ?_⟩
  obtain ⟨⟨first, n, hs⟩, -⟩ := hrun.invariant (fun _ _ _ hi hk hs => fifo_step hi hk hs) (fifo_created server garbage)
  have hfits := hs.fits
  have hbelow := hs.below
  have hwritable := hs.writable hreader
  rw [hs.accepts hreader, hs.length_buffered, ← Bool.not_eq_false, hwritable]
  simp only [pipeSelect, numReadable, ioAttrSize, hwriter, Bool.true_and, Bool.not_false, Bool.and_true, ne_eq, not_true_eq_false,
    if_false, Prod.mk.injEq, Option.some.injEq, true_and, Bool.not_eq_true', decide_eq_false_iff_not]
  by_cases hn : n = 0
  · obtain ⟨hzero, hf, hl⟩ := hs.empty hn
    rw [hf, hl, hn, hzero]
    decide
  · obtain ⟨hf, hl⟩ := hs.full (by omega)
    rw [hf, hl, toInt_of_fits (by omega) (by omega), toInt_of_fits (by omega) (by omega)]
    unfold fsBlockSize at *
    omega

/-- After a write of two bytes a third would be taken, but the pipe is not writable, and one byte is said to be
    there. -/
theorem views_never_agree_fails : ∃ p, Run step Keeps (created 7 (fun _ => 0)) p ∧ (buffered p.handle).length = 2 ∧
    (pipeSelect true true p.handle).2 = false ∧ (pipeWrite (fun _ => 0) 1 p.handle).1.length = 1 ∧
    numReadable 4 p.handle = (.success, some 1) := by
  obtain ⟨p, hp⟩ : ∃ p, exec (guarded Keeps step) (created 7 (fun _ => 0)) [.write (fun _ => 0) 2] = some p := ⟨_, rfl⟩
  refine ⟨p, run_of_guarded _ _ _ hp, ?_⟩
  cases hp
  decide

end SpriteKernel.Fsio.Pipe
