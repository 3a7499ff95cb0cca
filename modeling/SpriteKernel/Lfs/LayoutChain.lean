import SpriteKernel.Lfs.SummaryChain
import SpriteKernel.Lfs.SegWrite

/- What is laid out in a segment is a chain, whatever the modules add in however many writes. `reads_back`: the
   cleaner finds the regions of all the writes in order, if any was recorded; `stale_regions`: when none was, it
   finds what was there before. -/
namespace SpriteKernel.Lfs

open Function List LfsSeg

open Bytes

/-! ## Blocks by block offset -/

variable {i : Int}

theorem storeElement_of_outside {offset : Int} {blocks : List Buffer} (h : i ≤ offset - blocks.length ∨ offset < i)
    (image : SegImage) : storeElement offset blocks image i = image i :=
  if_neg (by omega)

theorem storeElement_one (offset : Int) (b : Buffer) (image : SegImage) :
    storeElement offset [b] image = update image offset b := by
  funext i
  by_cases hi : i = offset
  · rw [hi, update_self, storeElement, if_pos ⟨by show offset - 1 < offset; omega, Int.le_refl _⟩, Int.sub_self]
    rfl
  · rw [update_of_ne hi]
    apply storeElement_of_outside
    show i ≤ offset - 1 ∨ offset < i
    omega

theorem storeElements_of_le {start : Int} (h : i ≤ start) (es : List SegElement) (image : SegImage) :
    storeElements start es image i = image i := by
  induction es generalizing start image with
  | nil => rfl
  | cons e es ih =>
    have hlen : 0 ≤ e.lengthInBlocks := Int.natCast_nonneg _
    rw [storeElements, ih (by omega)]
    apply storeElement_of_outside
    exact .inl (by rw [← SegElement.lengthInBlocks]; omega)

theorem storeElements_congr (start : Int) (es : List SegElement) {image image' : SegImage} (h : image i = image' i) : storeElements start es image i = storeElements start es image' i := by
  induction es generalizing start image image' with
  | nil => exact h
  | cons e es ih =>
    apply ih
    rw [storeElement, storeElement, h]

theorem storeElements_append (start : Int) (es es' : List SegElement) (image : SegImage) :
    storeElements start (es ++ es') image =
      storeElements (start + (es.map SegElement.lengthInBlocks).sum) es' (storeElements start es image) := by
  induction es generalizing start image with
  | nil =>
    show storeElements start es' image = storeElements (start + 0) es' image
    rw [Int.add_zero]
  | cons e es ih =>
    rw [cons_append, storeElements, ih, map_cons, sum_cons, ← Int.add_assoc]
    rfl

theorem storeElements_modify (f : Buffer → Buffer) (start : Int) (es : List SegElement) (j : Nat) (b : Buffer)
    (hj : es[j]? = some ⟨[b]⟩) (image : SegImage) :
    storeElements start es image (start + ((es.take (j + 1)).map SegElement.lengthInBlocks).sum) = b ∧
    storeElements start (es.modify j (fun e => ⟨e.blocks.modify 0 f⟩)) image =
      update (storeElements start es image)
        (start + ((es.take (j + 1)).map SegElement.lengthInBlocks).sum) (f b) := by
  induction es generalizing start image j with
  | nil => exact absurd hj (by simp)
  | cons e es ih =>
    cases j with
    | zero =>
      obtain rfl : e = ⟨[b]⟩ := Option.some.inj hj
      have hone : ∀ c : Buffer, storeElements start (⟨[c]⟩ :: es) image =
          storeElements (start + 1) es (update image (start + 1) c) := fun c =>
        congrArg (storeElements (start + 1) es) (storeElement_one (start + 1) c image)
      refine ⟨?_, ?_⟩
      · show storeElements start (⟨[b]⟩ :: es) image (start + (1 + 0)) = b
        rw [Int.add_zero, hone, storeElements_of_le (Int.le_refl _), update_self]
      · show storeElements start (⟨[f b]⟩ :: es) image =
          update (storeElements start (⟨[b]⟩ :: es) image) (start + (1 + 0)) (f b)
        rw [Int.add_zero, hone, hone]
        funext i
        by_cases hi : i = start + 1
        · rw [hi, update_self, storeElements_of_le (Int.le_refl _), update_self]
        · rw [update_of_ne hi]
          apply storeElements_congr
          rw [update_of_ne hi, update_of_ne hi]
    | succ j =>
      have hsum : start + (((e :: es).take (j + 1 + 1)).map SegElement.lengthInBlocks).sum =
          start + e.lengthInBlocks + ((es.take (j + 1)).map SegElement.lengthInBlocks).sum := by
        rw [take_succ_cons, map_cons, sum_cons, Int.add_assoc]
      rw [hsum]
      exact ih _ j hj _

namespace LfsSeg

/-- The disk when the segment has been written. -/
def overlay (seg : LfsSeg) (image : SegImage) : SegImage := storeElements seg.startBlockOffset seg.elements image

def BlockAt (seg : LfsSeg) (j : Nat) (o : Int) : Prop :=
  ∃ b, seg.elements[j]? = some ⟨[b]⟩ ∧
    o = seg.startBlockOffset + ((seg.elements.take (j + 1)).map SegElement.lengthInBlocks).sum

variable {seg : LfsSeg} {j : Nat} {o : Int}

theorem BlockAt.editSummary (h : seg.BlockAt j o) (summary : Nat)
    (f : Buffer → Buffer) : (seg.editSummary summary f).BlockAt j o := by
  obtain ⟨b, hj, ho⟩ := h
  refine ⟨if summary = j then f b else b, ?_, ?_⟩
  · show (seg.elements.modify summary _)[j]? = _
    rw [List.getElem?_modify, hj]
    split
    · rfl
    · rfl
  · rw [ho, map_take, map_take, (sameShape_editSummary seg summary f).lengths]
    rfl

theorem overlay_editSummary (h : seg.BlockAt j o) (f : Buffer → Buffer) (image : SegImage) :
    (seg.editSummary j f).overlay image = update (seg.overlay image) o (f (seg.overlay image o)) := by
  obtain ⟨b, hj, rfl⟩ := h
  obtain ⟨hat, hmodify⟩ := storeElements_modify f seg.startBlockOffset seg.elements j b hj image
  rw [overlay, overlay, hat]
  exact hmodify

theorem summaryBlock_over (hcur : seg.curSegSummary = some j) (h : seg.BlockAt j o)
    (image : SegImage) : seg.summaryBlock = some (seg.overlay image o) := by
  obtain ⟨b, hj, rfl⟩ := h
  rw [summaryBlock, hcur, overlay, (storeElements_modify id seg.startBlockOffset seg.elements j b hj image).1,
    Option.bind_some, hj]
  rfl

end LfsSeg

/-! ## Behind a segment -/

/-- Elements are added behind a segment, and nothing else is done. -/
structure Extends (image : SegImage) (s t : LfsSeg) : Prop where
  filled : Filled t
  start : t.startBlockOffset = s.startBlockOffset
  offset : s.curBlockOffset ≤ t.curBlockOffset
  limit : t.curDataBlockLimit = s.curDataBlockLimit
  within : s.curBlockOffset ≤ s.curDataBlockLimit → t.curBlockOffset ≤ s.curDataBlockLimit
  numBlocks : t.numBlocks - t.curBlockOffset = s.numBlocks - s.curBlockOffset
  summary : t.curSegSummary = s.curSegSummary
  ptr : t.curSummaryPtr = s.curSummaryPtr
  summaryLimit : t.curSummaryLimit = s.curSummaryLimit
  blockAt : ∀ j o, s.BlockAt j o → t.BlockAt j o
  overlay : ∀ i ≤ s.curBlockOffset, t.overlay image i = s.overlay image i

variable {s : LfsSeg}

theorem Extends.refl (h : Filled s) (image : SegImage) : Extends image s s :=
  ⟨h, rfl, Int.le_refl _, rfl, id, rfl, rfl, rfl, rfl, fun _ _ => id, fun _ _ => rfl⟩

variable {t : LfsSeg}

theorem Extends.trans {image : SegImage} {u : LfsSeg} (h : Extends image s t) (h' : Extends image t u) :
    Extends image s u where
  filled := h'.filled
  start := h'.start.trans h.start
  offset := Int.le_trans h.offset h'.offset
  limit := h'.limit.trans h.limit
  within := by
    intro hs
    have ht := h.within hs
    rw [← h.limit] at ht ⊢
    exact h'.within ht
  numBlocks := h'.numBlocks.trans h.numBlocks
  summary := h'.summary.trans h.summary
  ptr := h'.ptr.trans h.ptr
  summaryLimit := h'.summaryLimit.trans h.summaryLimit
  blockAt := fun j o hs => h'.blockAt j o (h.blockAt j o hs)
  overlay := fun i hi => (h'.overlay i (Int.le_trans hi h.offset)).trans (h.overlay i hi)

theorem extends_slowAddDataBuffer (h : Filled s) {buffer : List Buffer}
    (hadd : s.slowAddDataBuffer buffer = some t) (image : SegImage) :
    Extends image s t ∧ t.curBlockOffset = s.curBlockOffset + buffer.length ∧
      t.overlay image = storeElement t.curBlockOffset buffer (s.overlay image) ∧ t.curElement = s.elements.length := by
  obtain ⟨hfilled, helements, -, hstart⟩ := h.add hadd
  obtain ⟨hfit, ht⟩ := Option.ite_none_left_eq_some.mp hadd
  have hoffset : t.curBlockOffset = s.curBlockOffset + buffer.length := by rw [← Option.some.inj ht]
  have hover : t.overlay image = storeElement t.curBlockOffset buffer (s.overlay image) := by
    rw [LfsSeg.overlay, helements, hstart, storeElements_append, ← h.offset, hoffset]
    rfl
  refine ⟨⟨hfilled, hstart, by omega, by rw [← Option.some.inj ht], fun _ => by omega, ?_, by rw [← Option.some.inj ht],
    by rw [← Option.some.inj ht], by rw [← Option.some.inj ht], ?_, ?_⟩, hoffset, hover, ?_⟩
  · rw [hoffset, ← Option.some.inj ht]
    show s.numBlocks + (buffer.length : Int) - _ = _
    omega
  · rintro j o ⟨b, hj, ho⟩
    have hlt : j < s.elements.length := (List.getElem?_eq_some_iff.mp hj).1
    refine ⟨b, ?_, ?_⟩
    · rw [helements, List.getElem?_append_left hlt, hj]
    · rw [hstart, helements, take_append_of_le_length (by omega), ho]
  · intro i hi
    rw [hover]
    apply storeElement_of_outside
    omega
  · have hlast := h.last
    rw [← Option.some.inj ht]
    show s.curElement + 1 = _
    omega

theorem extends_addBuffers {buffers : List (List Buffer)} (h : Filled s)
    (hadd : s.addBuffers buffers = some t) (image : SegImage) : Extends image s t := by
  induction buffers generalizing s with
  | nil =>
    cases hadd
    exact .refl h image
  | cons buffer buffers ih =>
    obtain ⟨u, hu, hrest⟩ := Option.bind_eq_some_iff.mp hadd
    obtain ⟨hextends, -⟩ := extends_slowAddDataBuffer h hu image
    exact hextends.trans (ih hextends.filled hrest)

/-! ## What holds while a segment is laid out -/

/-- Finished summary blocks are a chain up to the one being filled, with a header for each region. -/
structure Laying (p : SuperBlock) (image : SegImage) (seg : LfsSeg) (done : List Region) (last : Int) (here : List Region) :
    Prop where
  filled : Filled seg
  nonneg : 0 ≤ seg.startBlockOffset
  limit : seg.curDataBlockLimit = p.segSizeInBlocks
  within : seg.curBlockOffset ≤ p.segSizeInBlocks
  numBlocks : seg.numBlocks = seg.curBlockOffset - seg.startBlockOffset
  current : ∃ j, seg.curSegSummary = some j ∧ seg.BlockAt j last
  leads : Leads p (seg.overlay image) (seg.startBlockOffset + 1) done last
  behind : last ≤ seg.curBlockOffset
  magic : word (seg.overlay image last) 0 = segSummaryMagic
  next : int (seg.overlay image last) 20 = -1
  headers : Headers (seg.overlay image last) segSummarySize last here
  ptr : seg.curSummaryPtr = segSummarySize + lengthOf here
  offset : seg.curBlockOffset = last + blocksOf here
  summaryLimit : seg.curSummaryLimit = p.blockSize
  fits : segSummarySize + lengthOf here ≤ p.blockSize

/-- Nothing has been laid out yet, and two blocks are left. -/
structure Bare (p : SuperBlock) (seg : LfsSeg) : Prop where
  filled : Filled seg
  nonneg : 0 ≤ seg.startBlockOffset
  limit : seg.curDataBlockLimit = p.segSizeInBlocks
  room : seg.curBlockOffset + 2 ≤ p.segSizeInBlocks
  numBlocks : seg.numBlocks = seg.curBlockOffset - seg.startBlockOffset
  start : seg.curBlockOffset = seg.startBlockOffset
  noSummary : seg.curSegSummary = none
  ptr : seg.curSummaryPtr = 0
  summaryLimit : seg.curSummaryLimit = 0

variable {p : SuperBlock}

theorem bare_getSegStruct {start : Int} (h0 : 0 ≤ start) (h : start + 2 ≤ p.segSizeInBlocks)
    (logRange : LogRange) : Bare p (getSegStruct p logRange start) :=
  ⟨filled_getSegStruct p logRange start, h0, rfl, h, (Int.sub_self start).symm, rfl, rfl, rfl, rfl⟩

/-! ### A module adds a region -/

theorem header_stored {r : Region} (ptr : Int) (b : Buffer) (htype : r.moduleType < 65536) (hlen : r.length < 65536)
    (h0 : 0 ≤ r.numDataBlocks) (hblocks : r.numDataBlocks < 2147483648) :
    Header (storeHeader r ptr (setBytes (ptr + segSummaryHdrSize) r.bytes b)) ptr r ∧
      ∀ k < ptr, storeHeader r ptr (setBytes (ptr + segSummaryHdrSize) r.bytes b) k = b k := by
  have hnat : segSummaryHdrSize.toNat = 8 := rfl
  have hlength : r.length = 8 + r.bytes.length := rfl
  refine ⟨⟨?_, ?_, ?_, ?_⟩, ?_⟩
  · rw [storeHeader, half_setInt_of_disjoint (by omega), half_setHalf_of_disjoint (by omega),
      half_setHalf_self htype]
  · rw [storeHeader, half_setInt_of_disjoint (by omega), half_setHalf_self (by omega)]
  · rw [storeHeader, int_setInt_self (by omega) hblocks]
  · have hbytes : ∀ k, ptr + segSummaryHdrSize ≤ k → k < ptr + segSummaryHdrSize + r.bytes.length →
        storeHeader r ptr (setBytes (ptr + segSummaryHdrSize) r.bytes b) k =
          setBytes (ptr + segSummaryHdrSize) r.bytes b k := by
      intro k hk _
      rw [storeHeader, setInt_of_outside (by omega), setHalf_of_outside (by omega), setHalf_of_outside (by omega)]
    rw [bytesFrom_congr hbytes, bytesFrom_setBytes_self]
  · intro k hk
    rw [storeHeader, setInt_of_outside (by omega), setHalf_of_outside (by omega), setHalf_of_outside (by omega),
      setBytes_of_outside (by omega)]

section
variable {p : SuperBlock} {image : SegImage} {seg : LfsSeg} {done here : List Region} {last : Int}

theorem Laying.record (h : Laying p image seg done last here) {t : LfsSeg} (hfilled : Filled t)
    (hstart : t.startBlockOffset = seg.startBlockOffset) (hlimit : t.curDataBlockLimit = seg.curDataBlockLimit)
    (hwithin : t.curBlockOffset ≤ p.segSizeInBlocks)
    (hnum : t.numBlocks - t.curBlockOffset = seg.numBlocks - seg.curBlockOffset)
    (hcurrent : t.curSegSummary = seg.curSegSummary) (hblock : ∀ j, seg.BlockAt j last → t.BlockAt j last)
    (hover : ∀ i < last, t.overlay image i = seg.overlay image i)
    (hbelow : ∀ k < seg.curSummaryPtr, t.overlay image last k = seg.overlay image last k) {more : List Region}
    (hheaders : Headers (t.overlay image last) seg.curSummaryPtr seg.curBlockOffset more)
    (hbehind : seg.curBlockOffset ≤ t.curBlockOffset) (hoffset : t.curBlockOffset = seg.curBlockOffset + blocksOf more)
    (hptr : t.curSummaryPtr = seg.curSummaryPtr + lengthOf more)
    (hsum : t.curSummaryLimit = seg.curSummaryLimit) (hfits : t.curSummaryPtr ≤ p.blockSize) :
    Laying p image t done last (here ++ more) := by
  have hsize : segSummarySize = 24 := rfl
  have hnonneg := lengthOf_nonneg here
  have hptr' := h.ptr
  refine ⟨hfilled, by rw [hstart]; exact h.nonneg, hlimit.trans h.limit, hwithin, ?_, ?_, ?_, Int.le_trans h.behind hbehind, ?_, ?_, ?_, ?_, ?_,
    hsum.trans h.summaryLimit, ?_⟩
  · have hnum' := h.numBlocks
    omega
  · obtain ⟨j, hj, hat⟩ := h.current
    exact ⟨j, hcurrent.trans hj, hblock j hat⟩
  · rw [hstart]
    exact h.leads.congr hover
  · rw [word_congr (fun k h1 h2 => hbelow k (by omega)), h.magic]
  · rw [int_congr (fun k h1 h2 => hbelow k (by omega)), h.next]
  · apply (h.headers.congr (fun k h1 h2 => hbelow k (by omega))).append
    rw [← h.ptr, ← h.offset]
    exact hheaders
  · rw [hptr, h.ptr, lengthOf_append, Int.add_assoc]
  · rw [hoffset, h.offset, blocksOf_append, Int.add_assoc]
  · rw [lengthOf_append, ← Int.add_assoc, ← h.ptr, ← hptr]
    exact hfits

theorem Laying.bounds (h : Laying p image seg done last here) :
    seg.startBlockOffset + 1 ≤ last ∧ 0 < seg.curBlockOffset ∧ 24 ≤ seg.curSummaryPtr := by
  have hle := h.leads.le
  have hbehind := h.behind
  have h0 := h.nonneg
  have hptr := h.ptr
  have hnonneg := lengthOf_nonneg here
  have hsize : segSummarySize = 24 := rfl
  exact ⟨hle, by omega, by omega⟩

/-- A module has added data behind the segment, and bytes behind the place of the header. -/
structure Added (p : SuperBlock) (image : SegImage) (seg laid : LfsSeg) (last : Int) (bytes : List UInt8) : Prop where
  filled : Filled laid
  start : laid.startBlockOffset = seg.startBlockOffset
  limit : laid.curDataBlockLimit = seg.curDataBlockLimit
  within : laid.curBlockOffset ≤ p.segSizeInBlocks
  numBlocks : laid.numBlocks - laid.curBlockOffset = seg.numBlocks - seg.curBlockOffset
  current : laid.curSegSummary = seg.curSegSummary
  blockAt : ∀ j, seg.BlockAt j last → laid.BlockAt j last
  before : ∀ i < last, laid.overlay image i = seg.overlay image i
  block : laid.overlay image last = setBytes (seg.curSummaryPtr + segSummaryHdrSize) bytes (seg.overlay image last)
  behind : seg.curBlockOffset ≤ laid.curBlockOffset
  ptr : laid.curSummaryPtr = seg.curSummaryPtr + segSummaryHdrSize + bytes.length
  summaryLimit : laid.curSummaryLimit = seg.curSummaryLimit
  fits : laid.curSummaryPtr ≤ p.blockSize

theorem Laying.added (h : Laying p image seg done last here) {j : Nat} (hj : seg.BlockAt j last) {call : LayoutCall}
    {laid : LfsSeg} (hlaid : (seg.startRegion.addBuffers call.buffers).bind (LfsSeg.addSummaryBytes j call.bytes) = some laid) :
    Added p image seg laid last call.bytes := by
  obtain ⟨grown, hgrown, hbytes⟩ := Option.bind_eq_some_iff.mp hlaid
  have hfilled : Filled seg.startRegion := ⟨h.filled.last, h.filled.offset⟩
  have hextends := extends_addBuffers hfilled hgrown image
  have hptr : grown.curSummaryPtr = seg.curSummaryPtr + segSummaryHdrSize := hextends.ptr
  have hat : grown.BlockAt j last := hextends.blockAt j last hj
  have hlimit : grown.curSummaryLimit = seg.curSummaryLimit := hextends.summaryLimit
  have hdata : grown.curBlockOffset ≤ seg.curDataBlockLimit := by
    apply hextends.within
    show seg.curBlockOffset ≤ seg.curDataBlockLimit
    rw [h.limit]
    exact h.within
  obtain ⟨hfit, hlaid⟩ := Option.ite_none_left_eq_some.mp hbytes
  have hover : laid.overlay image = update (grown.overlay image) last
      (setBytes (seg.curSummaryPtr + segSummaryHdrSize) call.bytes (grown.overlay image last)) := by
    rw [← hptr, ← overlay_editSummary hat, ← Option.some.inj hlaid]
    rfl
  have hlast : grown.overlay image last = seg.overlay image last := hextends.overlay last h.behind
  have hfit' : (call.bytes.length : Int) ≤ p.blockSize - (seg.curSummaryPtr + segSummaryHdrSize) := by
    rw [summaryBytesLeft, hlimit, h.summaryLimit, hptr] at hfit
    exact Int.not_lt.mp hfit
  have hlaidPtr : laid.curSummaryPtr = seg.curSummaryPtr + segSummaryHdrSize + call.bytes.length := by
    rw [← Option.some.inj hlaid, ← hptr]
  have hsame := sameShape_editSummary grown j (setBytes grown.curSummaryPtr call.bytes)
  have hedit := hextends.filled.edit hsame
  refine ⟨?_, ?_, ?_, ?_, ?_, ?_, ?_, ?_, ?_, ?_, hlaidPtr, ?_, by omega⟩
  · cases hlaid
    exact ⟨hedit.last, hedit.offset⟩
  · cases hlaid
    exact hextends.start
  · cases hlaid
    exact hextends.limit
  · rw [← h.limit, ← Option.some.inj hlaid]
    exact hdata
  · cases hlaid
    exact hextends.numBlocks
  · cases hlaid
    exact hextends.summary
  · intro i hi
    cases hlaid
    exact LfsSeg.BlockAt.editSummary (hextends.blockAt i last hi) j _
  · intro i hi
    rw [hover, update_of_ne (Int.ne_of_lt hi)]
    exact hextends.overlay i (Int.le_of_lt (Int.lt_of_lt_of_le hi h.behind))
  · rw [hover, update_self, hlast]
  · cases hlaid
    exact hextends.offset
  · cases hlaid
    exact hextends.summaryLimit

/-- One round of the loop records what the module has added. -/
theorem Laying.callModule (hp : p.Summaries) (h : Laying p image seg done last here)
    (hroom : seg.curSummaryPtr + segSummaryHdrSize ≤ p.blockSize) {moduleType : Nat} (htype : moduleType < maxNumMods)
    (call : LayoutCall) :
    seg.callModule moduleType call ≠ .error .nil ∧ ∀ t more, seg.callModule moduleType call = .ok (t, more) →
      Laying p image t done last (here ++ more) ∧ t.startBlockOffset = seg.startBlockOffset := by
  obtain ⟨j, hj, hat⟩ := h.current
  rw [LfsSeg.callModule, hj]
  simp only
  cases hlaid : (seg.startRegion.addBuffers call.buffers).bind (LfsSeg.addSummaryBytes j call.bytes) with
  | none => exact ⟨by simp, by simp⟩
  | some laid =>
    have hadded := h.added hat hlaid
    simp only
    split
    · obtain ⟨r, hr⟩ : ∃ r : Region, r = ⟨moduleType, call.bytes, seg.curBlockOffset,
        laid.curBlockOffset - seg.curBlockOffset⟩ := ⟨_, rfl⟩
      rw [← hr]
      refine ⟨by simp, fun t more hok => ?_⟩
      cases hok
      have hrlen : r.length = segSummaryHdrSize + call.bytes.length := by rw [hr]; rfl
      have hrblocks : r.numDataBlocks = laid.curBlockOffset - seg.curBlockOffset := by rw [hr]
      have hrtype : r.moduleType < 65536 := by rw [hr]; exact Nat.lt_trans htype (by decide)
      have hrbytes : r.bytes = call.bytes := by rw [hr]
      have hbounds := h.bounds
      obtain ⟨hheader, hbelow⟩ := header_stored seg.curSummaryPtr (seg.overlay image last) hrtype
        (by have := hadded.ptr; have := hadded.fits; have := hp.short; omega) (by have := hadded.behind; omega)
        (by have := hadded.within; have := hp.ints; omega)
      rw [hrbytes, ← hadded.block] at hheader hbelow
      have hover := overlay_editSummary (hadded.blockAt j hat) (storeHeader r seg.curSummaryPtr) image
      refine ⟨?_, hadded.start⟩
      apply h.record (hadded.filled.edit (sameShape_editSummary _ _ _)) hadded.start hadded.limit hadded.within
        hadded.numBlocks hadded.current (fun i hi => (hadded.blockAt i hi).editSummary _ _)
      · intro i hi
        rw [hover, update_of_ne (Int.ne_of_lt hi)]
        exact hadded.before i hi
      · intro k hk
        rw [hover, update_self]
        exact hbelow k hk
      · rw [hover, update_self]
        exact ⟨hheader, by rw [hr], trivial⟩
      · exact hadded.behind
      · show laid.curBlockOffset = seg.curBlockOffset + (r.numDataBlocks + 0)
        omega
      · show laid.curSummaryPtr = seg.curSummaryPtr + (r.length + 0)
        rw [hadded.ptr, hrlen]
        omega
      · exact hadded.summaryLimit
      · exact hadded.fits
    · next hnone =>
      refine ⟨by simp, fun t more hok => ?_⟩
      cases hok
      obtain ⟨hsame, hptr⟩ := not_or.mp hnone
      have hempty : call.bytes.length = 0 := by
        have hptr' := hadded.ptr
        have hstart : seg.startRegion.curSummaryPtr = seg.curSummaryPtr + segSummaryHdrSize := rfl
        omega
      have hblock : laid.overlay image last = seg.overlay image last := by
        rw [hadded.block, length_eq_zero_iff.mp hempty]
        funext k
        exact setBytes_of_outside (by show k < _ ∨ _ + 0 ≤ k; omega) _
      refine ⟨?_, hadded.start⟩
      refine @Laying.record p image seg done here last h { laid with curSummaryPtr := seg.curSummaryPtr } ?_ hadded.start
        hadded.limit hadded.within hadded.numBlocks hadded.current hadded.blockAt hadded.before
        (fun k _ => congrFun hblock k) [] trivial hadded.behind ?_ ?_ hadded.summaryLimit ?_
      · exact ⟨hadded.filled.last, hadded.filled.offset⟩
      · show laid.curBlockOffset = seg.curBlockOffset + 0
        rw [Int.add_zero, not_not.mp hsame]
      · exact (Int.add_zero _).symm
      · show seg.curSummaryPtr ≤ p.blockSize
        have hhdr : segSummaryHdrSize = 8 := rfl
        omega

/-! ### A summary block is begun -/

theorem magic_newSummary (logRange : LogRange) (timestamp : Nat) (memory : Buffer) :
    word (newSummary logRange timestamp memory) 0 = segSummaryMagic := by
  rw [newSummary, setInt, word_setWord_of_disjoint (by omega), setInt, word_setWord_of_disjoint (by omega), setInt,
    word_setWord_of_disjoint (by omega), setInt, word_setWord_of_disjoint (by omega), word_setWord_of_disjoint (by omega),
    word_setWord_self (by decide)]

theorem next_newSummary (logRange : LogRange) (timestamp : Nat) (memory : Buffer) :
    int (newSummary logRange timestamp memory) 20 = -1 := by
  rw [newSummary, int_setInt_self (by decide) (by decide)]

variable {t : LfsSeg}

theorem block_added {s : LfsSeg} (h : Filled s) {b : Buffer} (hadd : s.slowAddDataBuffer [b] = some t) (image : SegImage) :
    Extends image s t ∧ t.curBlockOffset = s.curBlockOffset + 1 ∧ t.BlockAt t.curElement.toNat (s.curBlockOffset + 1) ∧
      t.overlay image (s.curBlockOffset + 1) = b := by
  obtain ⟨hextends, hoffset, hover, hcur⟩ := extends_slowAddDataBuffer h hadd image
  obtain ⟨-, helements, -, hstart⟩ := h.add hadd
  have hone : t.curBlockOffset = s.curBlockOffset + 1 := hoffset
  have hall : t.elements.take (t.curElement.toNat + 1) = t.elements := by
    apply take_of_length_le
    rw [helements, length_append, length_singleton]
    omega
  refine ⟨hextends, hone, ⟨b, ?_, ?_⟩, ?_⟩
  · rw [hcur, Int.toNat_natCast, helements, List.getElem?_append_right (Nat.le_refl _), Nat.sub_self]
    rfl
  · rw [hall, ← hextends.filled.offset, hone]
  · rw [hover, storeElement_one, ← hone, update_self]

variable {timestamp : Nat} {memory : Buffer}

theorem Bare.addNewSummaryBlock (hp : p.Summaries) (h : Bare p seg) (hadd : seg.addNewSummaryBlock p timestamp memory = some t) (image : SegImage) :
    Laying p image t [] (seg.startBlockOffset + 1) [] := by
  obtain ⟨added, hbuffer, ht⟩ := Option.map_eq_some_iff.mp hadd
  obtain ⟨hextends, hoffset, hat, hblock⟩ := block_added h.filled hbuffer image
  rw [h.start] at hoffset hat hblock
  rw [h.noSummary] at ht
  have hstart := h.start
  have hroom := h.room
  have hfull := hp.room
  have hsize : segSummaryHdrSize = 8 := rfl
  have hlast : t.overlay image (seg.startBlockOffset + 1) = newSummary seg.logRange timestamp memory := by
    rw [← ht]
    exact hblock
  have hfilled := hextends.filled
  rw [← ht] at hlast ⊢
  refine ⟨⟨hfilled.last, hfilled.offset⟩, ?_, hextends.limit.trans h.limit, ?_, ?_, ?_, ?_, ?_, ?_, ?_, ?_, rfl, ?_, rfl, ?_⟩
  · show 0 ≤ added.startBlockOffset
    rw [hextends.start]
    exact h.nonneg
  · show added.curBlockOffset ≤ p.segSizeInBlocks
    omega
  · show added.numBlocks = added.curBlockOffset - added.startBlockOffset
    have hnum := hextends.numBlocks
    have hnum' := h.numBlocks
    have hstart' := hextends.start
    omega
  · exact ⟨added.curElement.toNat, rfl, hat⟩
  · show Leads p _ (added.startBlockOffset + 1) [] _
    rw [hextends.start]
    exact .here _
  · show seg.startBlockOffset + 1 ≤ added.curBlockOffset
    omega
  · rw [hlast, magic_newSummary]
  · rw [hlast, next_newSummary]
  · trivial
  · show added.curBlockOffset = seg.startBlockOffset + 1 + 0
    omega
  · show segSummarySize + 0 ≤ p.blockSize
    omega

/-- The summary block that is being filled is finished, and points to the next. -/
theorem Laying.addNewSummaryBlock (hp : p.Summaries) (h : Laying p image seg done last here) (hadd : seg.addNewSummaryBlock p timestamp memory = some t) :
    Laying p image t (done ++ here) (seg.curBlockOffset + 1) [] ∧ t.curBlockOffset = seg.curBlockOffset + 1 ∧
      t.startBlockOffset = seg.startBlockOffset ∧
      t.overlay image (seg.curBlockOffset + 1) = newSummary seg.logRange timestamp memory := by
  obtain ⟨added, hbuffer, ht⟩ := Option.map_eq_some_iff.mp hadd
  obtain ⟨j, hj, hcur⟩ := h.current
  obtain ⟨hextends, hoffset, hat, hblock⟩ := block_added h.filled hbuffer image
  obtain ⟨finish, hfinish⟩ : ∃ f : Buffer → Buffer, f = fun b => setInt 20 added.curBlockOffset (setInt 16 seg.curSummaryPtr b) :=
    ⟨_, rfl⟩
  rw [hj] at ht
  rw [← hfinish] at ht
  have hbehind := h.behind
  have hcur' := hextends.blockAt j last hcur
  have hover : t.overlay image = update (added.overlay image) last (finish (seg.overlay image last)) := by
    rw [← hextends.overlay last hbehind, ← overlay_editSummary hcur', ← ht]
    rfl
  have hlast : t.overlay image (seg.curBlockOffset + 1) = newSummary seg.logRange timestamp memory := by
    rw [hover, update_of_ne (by omega), hblock]
  have hdata : added.curBlockOffset ≤ p.segSizeInBlocks := by
    have hadded := hbuffer
    have hfit := (Option.ite_none_left_eq_some.mp hadded).1
    rw [h.limit] at hfit
    rw [hoffset]
    exact Int.not_lt.mp hfit
  have hedit := hextends.filled.edit (sameShape_editSummary added j finish)
  have hsum : Summary p (t.overlay image last) last here (seg.curBlockOffset + 1) := by
    have hbounds := h.bounds
    have hints := hp.ints
    have hshort := hp.short
    have hfits := h.fits
    have hptr := h.ptr
    have hsize : segSummarySize = 24 := rfl
    have hat20 : t.overlay image last = setInt 20 (seg.curBlockOffset + 1) (setInt 16 seg.curSummaryPtr (seg.overlay image last)) := by
      rw [hover, update_self, hfinish, hoffset]
    refine ⟨?_, ?_, ?_, ?_, h.fits⟩
    · rw [hat20, setInt, word_setWord_of_disjoint (by omega), setInt, word_setWord_of_disjoint (by omega), h.magic]
    · rw [hat20, int_setInt_of_disjoint (by omega), int_setInt_self (by omega) (by omega), h.ptr]
    · rw [hat20, int_setInt_self (by omega) (by omega)]
    · apply h.headers.congr
      intro k hk _
      rw [hat20, setInt_of_outside (by omega), setInt_of_outside (by omega)]
  have hleads : Leads p (t.overlay image) (seg.startBlockOffset + 1) done last := by
    apply h.leads.congr
    intro i hi
    rw [hover, update_of_ne (Int.ne_of_lt hi)]
    exact hextends.overlay i (by omega)
  have hdone := hleads.snoc hsum (by omega) (by omega)
  have hfull := hp.room
  have hsize : segSummaryHdrSize = 8 := rfl
  rw [← ht] at hlast hdone ⊢
  refine ⟨⟨⟨hedit.last, hedit.offset⟩, ?_, hextends.limit.trans h.limit, hdata, ?_, ?_, ?_, ?_, ?_, ?_, ?_, rfl, ?_, rfl, ?_⟩,
    hoffset, hextends.start, hlast⟩
  · show 0 ≤ added.startBlockOffset
    rw [hextends.start]
    exact h.nonneg
  · show added.numBlocks = added.curBlockOffset - added.startBlockOffset
    have hnum := hextends.numBlocks
    have hnum' := h.numBlocks
    have hstart := hextends.start
    omega
  · exact ⟨added.curElement.toNat, rfl, LfsSeg.BlockAt.editSummary hat j finish⟩
  · show Leads p _ (added.startBlockOffset + 1) _ _
    rw [hextends.start]
    exact hdone
  · show seg.curBlockOffset + 1 ≤ added.curBlockOffset
    omega
  · rw [hlast, magic_newSummary]
  · rw [hlast, next_newSummary]
  · trivial
  · show added.curBlockOffset = seg.curBlockOffset + 1 + 0
    omega
  · show segSummarySize + 0 ≤ p.blockSize
    omega

/-! ### The loop over the modules -/

/-- Nothing is laid out, or what is laid out records the regions. -/
def Laid (p : SuperBlock) (image : SegImage) (seg : LfsSeg) (start : Int) (regions : List Region) : Prop :=
  seg.startBlockOffset = start ∧
    (Bare p seg ∧ regions = [] ∨ ∃ done last here, Laying p image seg done last here ∧ regions = done ++ here)

/-- There is room for a header, in this summary block or in a new one. -/
theorem Laid.slowGrowSummary (hp : p.Summaries) {start : Int} {regions : List Region} (h : Laid p image seg start regions)
    {grown : LfsSeg}
    (hgrow : seg.slowGrowSummary p timestamp memory 1 (segSummaryHdrSize + minSummaryRegionSize) true = some grown) :
    grown.startBlockOffset = start ∧ ∃ done last here, Laying p image grown done last here ∧ regions = done ++ here ∧
      grown.curSummaryPtr + segSummaryHdrSize ≤ p.blockSize := by
  obtain ⟨hstart, hlaid⟩ := h
  have hhdr : segSummaryHdrSize = 8 := rfl
  have hmin : minSummaryRegionSize = 16 := rfl
  have hroom := hp.room
  rw [LfsSeg.slowGrowSummary] at hgrow
  split at hgrow
  · next hfit =>
    cases hgrow
    rw [summaryBytesLeft] at hfit
    rcases hlaid with ⟨hbare, -⟩ | ⟨done, last, here, hlaying, hregions⟩
    · have hptr := hbare.ptr
      have hlimit := hbare.summaryLimit
      omega
    · have hlimit := hlaying.summaryLimit
      exact ⟨hstart, done, last, here, hlaying, hregions, by omega⟩
  · obtain ⟨-, hadd⟩ := Option.ite_none_left_eq_some.mp hgrow
    rcases hlaid with ⟨hbare, rfl⟩ | ⟨done, last, here, hlaying, rfl⟩
    · have hnew := hbare.addNewSummaryBlock hp hadd image
      have hstart' : grown.startBlockOffset = seg.startBlockOffset := by
        obtain ⟨added, hbuffer, ht⟩ := Option.map_eq_some_iff.mp hadd
        rw [hbare.noSummary] at ht
        rw [← ht]
        exact (block_added hbare.filled hbuffer image).1.start
      have hptr : grown.curSummaryPtr = segSummarySize + 0 := hnew.ptr
      exact ⟨hstart'.trans hstart, [], _, [], hnew, rfl, by omega⟩
    · obtain ⟨hnew, -, hstart', -⟩ := hlaying.addNewSummaryBlock hp hadd
      have hptr : grown.curSummaryPtr = segSummarySize + 0 := hnew.ptr
      exact ⟨hstart'.trans hstart, _, _, [], hnew, (append_nil _).symm, by omega⟩

theorem Bare.slowGrowSummary (h : Bare p seg) (timestamp : Nat) (memory : Buffer) :
    seg.slowGrowSummary p timestamp memory 1 (segSummaryHdrSize + minSummaryRegionSize) true ≠ none := by
  have hlimit := h.limit
  have hroom := h.room
  have hptr := h.ptr
  have hsum := h.summaryLimit
  have hfew : ¬(1 ≤ seg.blocksLeft ∧ segSummaryHdrSize + minSummaryRegionSize ≤ seg.summaryBytesLeft) := by
    rw [summaryBytesLeft, hptr, hsum]
    exact fun hboth => absurd hboth.2 (by decide)
  have hblocks : ¬(true = false ∨ 1 + 1 > seg.blocksLeft) := by
    rw [LfsSeg.blocksLeft]
    rintro (hfalse | hgt)
    · exact absurd hfalse (by decide)
    · omega
  have hadd : ¬seg.curBlockOffset + 1 > seg.curDataBlockLimit := by omega
  rw [LfsSeg.slowGrowSummary, if_neg hfew, if_neg hblocks, LfsSeg.addNewSummaryBlock, LfsSeg.slowAddDataBuffer]
  show Option.map _ (if seg.curBlockOffset + 1 > seg.curDataBlockLimit then _ else _) ≠ none
  rw [if_neg hadd]
  simp

theorem Laid.callModules (hp : p.Summaries) {timestamp : Int → Nat} {memory : Int → Buffer} (calls : List LayoutCall) :
    ∀ {moduleType : Nat} {seg : LfsSeg} {start : Int} {regions : List Region}, Laid p image seg start regions →
      (Bare p seg → moduleType < maxNumMods) →
      seg.callModules p timestamp memory calls moduleType ≠ .error .nil ∧
      ∀ full t more, seg.callModules p timestamp memory calls moduleType = .ok (full, t, more) →
        t.startBlockOffset = start ∧ ∃ done last here, Laying p image t done last here ∧ regions ++ more = done ++ here := by
  induction calls with
  | nil =>
    intro moduleType seg start regions h hbare
    have hlaying : ∀ full t more, (full, seg, []) = ((full, t, more) : Bool × LfsSeg × List Region) → ¬Bare p seg →
        t.startBlockOffset = start ∧ ∃ done last here, Laying p image t done last here ∧ regions ++ more = done ++ here := by
      intro full t more heq hno
      cases heq
      obtain ⟨done, last, here, hl, hregions⟩ := h.2.resolve_left (fun hb => hno hb.1)
      exact ⟨h.1, done, last, here, hl, by rw [append_nil, hregions]⟩
    rw [LfsSeg.callModules]
    split
    · next hlast =>
      refine ⟨by simp, fun full t more hok => ?_⟩
      obtain rfl := (Prod.mk.inj (Except.ok.inj hok)).1
      exact hlaying _ t more (Except.ok.inj hok) (fun hb => Nat.not_le.mpr (hbare hb) hlast)
    · split
      · next hnone =>
        refine ⟨by simp, fun full t more hok => ?_⟩
        obtain rfl := (Prod.mk.inj (Except.ok.inj hok)).1
        exact hlaying _ t more (Except.ok.inj hok) (fun hb => hb.slowGrowSummary _ _ (Option.isNone_iff_eq_none.mp hnone))
      · exact ⟨by simp, by simp⟩
  | cons call calls ih =>
    intro moduleType seg start regions h hbare
    rw [LfsSeg.callModules]
    split
    · exact ⟨by simp, by simp⟩
    next htype =>
    split
    · exact ⟨by simp, by simp⟩
    next grown hgrow =>
    obtain ⟨hstart, done, last, here, hlaying, rfl, hroom⟩ := h.slowGrowSummary hp hgrow
    obtain ⟨hnil, hcall⟩ := hlaying.callModule hp hroom (Nat.not_le.mp htype) call
    have hround : ∀ laid region rest, grown.callModule moduleType call = .ok (laid, region) →
        rest = (if call.full then
            if laid.summaryBytesLeft > minSummaryRegionSize then
              if calls.isEmpty then .ok (true, laid, []) else .error .unfit
            else laid.callModules p timestamp memory calls moduleType
          else laid.callModules p timestamp memory calls (moduleType + 1) : Except LayoutFault (Bool × LfsSeg × List Region)) →
        rest ≠ .error .nil ∧ ∀ full t more, rest = .ok (full, t, more) →
          t.startBlockOffset = start ∧ ∃ done' last here', Laying p image t done' last here' ∧
            done ++ here ++ region ++ more = done' ++ here' := by
      intro laid region rest hres heq
      rw [heq]
      obtain ⟨hlaid, hstart'⟩ := hcall laid region hres
      rw [hstart] at hstart'
      have hnext : Laid p image laid start (done ++ here ++ region) :=
        ⟨hstart', .inr ⟨done, last, here ++ region, hlaid, append_assoc _ _ _⟩⟩
      have hsome : ¬Bare p laid := by
        intro hb
        obtain ⟨j, hj, -⟩ := hlaid.current
        exact absurd (hb.noSummary.symm.trans hj) (by simp)
      -- whichever module comes next, the rest of the calls go on from here
      split
      · split
        · split
          · refine ⟨by simp, fun full t more hok => ?_⟩
            cases hok
            exact ⟨hstart', done, last, here ++ region, hlaid, by rw [append_nil, append_assoc]⟩
          · exact ⟨by simp, by simp⟩
        · exact ih hnext (fun hb => absurd hb hsome)
      · exact ih hnext (fun hb => absurd hb hsome)
    refine ⟨bind_ne_nil hnil ?_, fun full t more hok => ?_⟩
    · intro ⟨laid, region⟩ hres
      apply bind_ne_nil (hround laid region _ hres rfl).1
      simp [pure, Except.pure]
    obtain ⟨⟨laid, region⟩, hres, hrest⟩ := bind_eq_ok hok
    obtain ⟨⟨full', t', more'⟩, hmore, heq⟩ := bind_eq_ok hrest
    have hsame : (full', t', region ++ more') = (full, t, more) := Except.ok.inj heq
    cases hsame
    obtain ⟨hend, done', last', here', hl, hregions⟩ := (hround laid region _ hres rfl).2 _ _ _ hmore
    exact ⟨hend, done', last', here', hl, by rw [← append_assoc, hregions]⟩

/-! ### The end of the layout -/

theorem Laying.capped (hp : p.Summaries) (h : Laying p image seg done last here) {j : Nat} (hj : seg.curSegSummary = some j) :
    Laying p image (seg.editSummary j (setInt 16 seg.curSummaryPtr)) done last here ∧
      Summary p ((seg.editSummary j (setInt 16 seg.curSummaryPtr)).overlay image last) last here (-1) := by
  obtain ⟨i, hi, hat⟩ := h.current
  obtain rfl : i = j := Option.some.inj (hi.symm.trans hj)
  have hbounds := h.bounds
  have hsize : segSummarySize = 24 := rfl
  have hptr := h.ptr
  have hfits := h.fits
  have hshort := hp.short
  have hover := overlay_editSummary hat (setInt 16 seg.curSummaryPtr) image
  have hlast : (seg.editSummary i (setInt 16 seg.curSummaryPtr)).overlay image last =
      setInt 16 seg.curSummaryPtr (seg.overlay image last) := by rw [hover, update_self]
  have hmagic : word ((seg.editSummary i (setInt 16 seg.curSummaryPtr)).overlay image last) 0 = segSummaryMagic := by
    rw [hlast, setInt, word_setWord_of_disjoint (by omega), h.magic]
  have hnext : int ((seg.editSummary i (setInt 16 seg.curSummaryPtr)).overlay image last) 20 = -1 := by
    rw [hlast, int_setInt_of_disjoint (by omega), h.next]
  have hheaders : Headers ((seg.editSummary i (setInt 16 seg.curSummaryPtr)).overlay image last) segSummarySize last here := by
    rw [hlast]
    exact h.headers.congr (fun k hk _ => setInt_of_outside (by omega) _ _)
  refine ⟨⟨h.filled.edit (sameShape_editSummary _ _ _), h.nonneg, h.limit, h.within, h.numBlocks,
    ⟨i, hi, hat.editSummary i _⟩, ?_, h.behind, hmagic, hnext, hheaders, h.ptr, h.offset, h.summaryLimit, h.fits⟩,
    hmagic, ?_, hnext, hheaders, h.fits⟩
  · apply h.leads.congr
    intro k hk
    rw [hover, update_of_ne (Int.ne_of_lt hk)]
  · rw [hlast, int_setInt_self (by omega) (by omega), h.ptr]

theorem numBlocks_of_empty (h : seg.segIsEmpty = some true) : seg.numBlocks = 1 := by
  rw [LfsSeg.segIsEmpty] at h
  split at h
  · next hone => exact hone
  · exact absurd (Option.some.inj h) (by decide)

theorem Laying.regions_of_empty (h : Laying p image seg done last here)
    (hsum : Summary p (seg.overlay image last) last here (-1)) (hempty : seg.segIsEmpty = some true) : done ++ here = [] := by
  obtain ⟨j, hj, hat⟩ := h.current
  rw [LfsSeg.segIsEmpty] at hempty
  split at hempty
  · rw [LfsSeg.summaryBlock_over hj hat image] at hempty
    have hsize := of_decide_eq_true (Option.some.inj hempty)
    rw [hsum.size] at hsize
    have hbounds := h.bounds
    have hnum := h.numBlocks
    have hbehind := h.behind
    have hfirst : last = seg.startBlockOffset + 1 := by omega
    have hleads := h.leads
    rw [hfirst] at hleads
    have hhere : here = [] := by
      cases here with
      | nil => rfl
      | cons r rs =>
        have hcons : lengthOf (r :: rs) = r.length + lengthOf rs := rfl
        have hpos := length_pos r
        have hnonneg := lengthOf_nonneg rs
        omega
    rw [hleads.eq_nil, hhere]
    rfl
  · exact absurd (Option.some.inj hempty) (by decide)

/-- A layout leaves a chain behind the blocks that were there, and the place of the next write. -/
structure LaidOut (p : SuperBlock) (image : SegImage) (first : Int) (seg : LfsSeg) (next : Int) (regions : List Region) :
    Prop where
  start : seg.startBlockOffset = first
  empty : seg.segIsEmpty = some true → regions = [] ∧ (next = -1 ∨ next = first)
  chain : ∃ done last here, Leads p (seg.overlay image) (first + 1) done last ∧ last ≤ p.segSizeInBlocks ∧
    Summary p (seg.overlay image last) last here (-1) ∧ regions = done ++ here ∧
      (seg.segIsEmpty ≠ some true → next = -1 ∨ (here = [] ∧ next = last - 1 ∧ 0 ≤ next ∧ next + 2 ≤ p.segSizeInBlocks))

theorem Bare.doOutCallBacks (hp : p.Summaries) (h : Bare p seg) {wasteBlocks : Int} (hw : 1 ≤ wasteBlocks)
    (timestamp : Int → Nat) (memory : Int → Buffer) (calls : List LayoutCall) (image : SegImage) :
    seg.doOutCallBacks p wasteBlocks timestamp memory calls ≠ .error .nil ∧
    ∀ t next regions, seg.doOutCallBacks p wasteBlocks timestamp memory calls = .ok (t, next, regions) →
      LaidOut p image seg.startBlockOffset t next regions := by
  have hlaid : Laid p image seg seg.startBlockOffset [] := ⟨rfl, .inl ⟨h, rfl⟩⟩
  obtain ⟨hnil, hcalls⟩ : seg.callModules p timestamp memory calls 0 ≠ .error .nil ∧ ∀ full t more,
      seg.callModules p timestamp memory calls 0 = .ok (full, t, more) → t.startBlockOffset = seg.startBlockOffset ∧
        ∃ done last here, Laying p image t done last here ∧ [] ++ more = done ++ here :=
    hlaid.callModules hp calls (fun _ => by decide)
  have hend : ∀ full laid regions rest, seg.callModules p timestamp memory calls 0 = .ok (full, laid, regions) →
      rest = LfsSeg.capOff p wasteBlocks timestamp memory full laid regions →
      rest ≠ .error .nil ∧ ∀ t next more, rest = .ok (t, next, more) → LaidOut p image seg.startBlockOffset t next more := by
    intro full laid regions rest hres heq
    rw [heq]
    obtain ⟨hstart, done, last, here, hl, hregions⟩ := hcalls full laid regions hres
    rw [nil_append] at hregions
    obtain ⟨j, hj, hat⟩ := hl.current
    obtain ⟨hcapped, hsum⟩ := hl.capped hp hj
    rw [LfsSeg.capOff, hj]
    simp only
    obtain ⟨capped, hcap⟩ : ∃ capped, capped = laid.editSummary j (setInt 16 laid.curSummaryPtr) := ⟨_, rfl⟩
    rw [← hcap] at hcapped hsum ⊢
    have hstart' : capped.startBlockOffset = seg.startBlockOffset := by rw [hcap]; exact hstart
    have hbounds := hcapped.bounds
    have hwithin := hcapped.within
    have hbehind := hcapped.behind
    have hleads := hcapped.leads
    rw [hstart'] at hleads
    have hempty : capped.segIsEmpty = some true → regions = [] :=
      fun he => hregions.trans (hcapped.regions_of_empty hsum he)
    -- nothing is added behind the last summary block
    have hlast : ∀ next, (capped.segIsEmpty = some true → next = -1 ∨ next = seg.startBlockOffset) →
        (capped.segIsEmpty ≠ some true → next = -1) → LaidOut p image seg.startBlockOffset capped next regions :=
      fun next he hne => ⟨hstart', fun hb => ⟨hempty hb, he hb⟩, done, last, here, hleads, by omega, hsum, hregions,
        fun hb => .inl (hne hb)⟩
    split
    · refine ⟨by simp, fun t next more hok => ?_⟩
      obtain ⟨rfl, rfl, rfl⟩ := ok_triple hok
      exact hlast (-1) (fun _ => .inl rfl) (fun _ => rfl)
    split
    · next hemptySeg =>
      refine ⟨by simp, fun t next more hok => ?_⟩
      obtain ⟨rfl, rfl, rfl⟩ := ok_triple hok
      exact hlast _ (fun _ => .inr hstart') (fun hne => absurd hemptySeg hne)
    next hnotEmpty =>
    split
    · next hpartial =>
      rw [hcapped.limit] at hpartial
      split
      · next hnone =>
        have hfit : ¬capped.curBlockOffset + 1 > p.segSizeInBlocks := by omega
        rw [LfsSeg.addNewSummaryBlock, LfsSeg.slowAddDataBuffer, hcapped.limit] at hnone
        exact absurd hnone (by rw [if_neg (by exact hfit)]; simp)
      · next trailing hadd =>
        refine ⟨by simp, fun t next more hok => ?_⟩
        obtain ⟨rfl, rfl, rfl⟩ := ok_triple hok
        obtain ⟨htrail, hoffset, hsame, hblock⟩ := hcapped.addNewSummaryBlock hp hadd
        have hleads' := htrail.leads
        rw [hsame, hstart'] at hleads'
        have hroom := hp.room
        have hsize : segSummaryHdrSize = 8 := rfl
        have hlen : lengthOf [] = 0 := rfl
        have htrailing : Summary p (trailing.overlay image (capped.curBlockOffset + 1)) (capped.curBlockOffset + 1) [] (-1) := by
          refine ⟨htrail.magic, ?_, htrail.next, trivial, by omega⟩
          rw [hblock, LfsSeg.size_newSummary]
          rfl
        refine ⟨hsame.trans hstart', ?_, done ++ here, _, [], hleads', by omega, htrailing, ?_,
          fun _ => .inr ⟨rfl, by omega, by omega, by omega⟩⟩
        · intro hb
          have hone := numBlocks_of_empty hb
          have hnum := htrail.numBlocks
          omega
        · rw [append_nil, hregions]
    · refine ⟨by simp, fun t next more hok => ?_⟩
      obtain ⟨rfl, rfl, rfl⟩ := ok_triple hok
      exact hlast (-1) (fun _ => .inl rfl) (fun _ => rfl)
  refine ⟨bind_ne_nil hnil ?_, fun t next regions hok => ?_⟩
  · intro ⟨full, laid, regions⟩ hres
    exact (hend full laid regions _ hres rfl).1
  · obtain ⟨⟨full, laid, regions'⟩, hres, hrest⟩ := bind_eq_ok hok
    exact (hend full laid regions' _ hres rfl).2 t next regions hrest

end

/-! ## The writes of a segment -/

/-- Between two writes: the next begins where the chain leads to, and the chain is complete if a region is recorded. -/
structure StandingLog (p : SuperBlock) (log : LogSegment) (regions : List Region) : Prop where
  next : log.startBlock = -1 ∨
    (0 ≤ log.startBlock ∧ log.startBlock + 2 ≤ p.segSizeInBlocks ∧ Leads p log.image 1 regions (log.startBlock + 1))
  chain : regions ≠ [] → Chain p log.image regions

theorem StandingLog.writeSegment (hp : p.Summaries) {wasteBlocks : Int} (hw : 1 ≤ wasteBlocks) (segNum : Int)
    {log : LogSegment} {regions : List Region} (h : StandingLog p log regions) (write : SegmentWrite) :
    writeSegment p wasteBlocks segNum write log ≠ .error .nil ∧
    ∀ log' more, writeSegment p wasteBlocks segNum write log = .ok (log', more) → StandingLog p log' (regions ++ more) := by
  rw [Lfs.writeSegment]
  split
  · exact ⟨by simp, by simp⟩
  next hopen =>
  obtain ⟨h0, hroom, hleads⟩ := h.next.resolve_left hopen
  have hbare := bare_getSegStruct h0 hroom ⟨segNum, write.prevSeg, write.nextSeg⟩
  obtain ⟨hnil, hout⟩ := hbare.doOutCallBacks hp hw write.timestamp write.memory write.calls log.image
  refine ⟨bind_ne_nil hnil (fun _ _ => by simp [pure, Except.pure]), fun log' more hok => ?_⟩
  obtain ⟨⟨seg, next, more'⟩, hres, heq⟩ := bind_eq_ok hok
  have hpair : ((⟨if seg.segIsEmpty = some true then log.image else storeElements log.startBlock seg.elements log.image,
    next⟩ : LogSegment), more') = (log', more) := Except.ok.inj heq
  obtain ⟨rfl, rfl⟩ := Prod.mk.inj hpair
  have hlaid := hout seg next more' hres
  by_cases hempty : seg.segIsEmpty = some true
  · -- the segment stays as it was
    obtain ⟨rfl, hnext⟩ := hlaid.empty hempty
    rw [if_pos hempty, append_nil]
    refine ⟨?_, h.chain⟩
    rcases hnext with hend | hsame
    · exact .inl hend
    · obtain rfl : next = log.startBlock := hsame
      exact h.next
  · obtain ⟨done, last, here, hchain, hle, hsum, hmore, hnext⟩ := hlaid.chain
    have hover : storeElements log.startBlock seg.elements log.image = seg.overlay log.image := by
      rw [LfsSeg.overlay, hlaid.start]
      rfl
    have hbefore : Leads p (seg.overlay log.image) 1 regions (log.startBlock + 1) := by
      apply hleads.congr
      intro i hi
      rw [← hover]
      exact storeElements_of_le (by omega) _ _
    have hall : Leads p (seg.overlay log.image) 1 (regions ++ done) last := hbefore.trans hchain
    rw [if_neg hempty, hover]
    refine ⟨?_, fun _ => ⟨last, regions ++ done, here, hall, hle, hsum, by rw [hmore, append_assoc]⟩⟩
    rcases hnext hempty with hend | ⟨hhere, hnext, hpos, hfit⟩
    · exact .inl hend
    · refine .inr ⟨hpos, hfit, ?_⟩
      rw [hmore, hhere, append_nil, hnext, Int.sub_add_cancel]
      exact hall

theorem StandingLog.writeSegments (hp : p.Summaries) {wasteBlocks : Int} (hw : 1 ≤ wasteBlocks) (segNum : Int)
    (writes : List SegmentWrite) : ∀ {log : LogSegment} {regions : List Region}, StandingLog p log regions →
      writeSegments p wasteBlocks segNum writes log ≠ .error .nil ∧
      ∀ log' more, writeSegments p wasteBlocks segNum writes log = .ok (log', more) → StandingLog p log' (regions ++ more) := by
  induction writes with
  | nil =>
    intro log regions h
    refine ⟨by simp [Lfs.writeSegments, pure, Except.pure], fun log' more hok => ?_⟩
    obtain ⟨rfl, rfl⟩ := Prod.mk.inj (Except.ok.inj hok)
    rw [append_nil]
    exact h
  | cons write writes ih =>
    intro log regions h
    obtain ⟨hnil, hwrite⟩ := h.writeSegment hp hw segNum write
    rw [Lfs.writeSegments]
    refine ⟨bind_ne_nil hnil ?_, fun log' more hok => ?_⟩
    · intro ⟨log', more⟩ hres
      exact bind_ne_nil (ih (hwrite log' more hres)).1 (fun _ _ => by simp [pure, Except.pure])
    · obtain ⟨⟨log₁, more₁⟩, hres, hrest⟩ := bind_eq_ok hok
      obtain ⟨⟨log₂, more₂⟩, hres', heq⟩ := bind_eq_ok hrest
      have hpair : (log₂, more₁ ++ more₂) = (log', more) := Except.ok.inj heq
      obtain ⟨rfl, rfl⟩ := Prod.mk.inj hpair
      rw [← append_assoc]
      exact (ih (hwrite log₁ more₁ hres)).2 log₂ more₂ hres'

/-- A segment written in any number of writes is read back: every module gets its regions, in order. -/
theorem reads_back {p : SuperBlock} (hp : p.Summaries) {wasteBlocks : Int} (hw : 1 ≤ wasteBlocks) (segNum : Int)
    (image : SegImage) (writes : List SegmentWrite) :
    writeSegments p wasteBlocks segNum writes ⟨image, 0⟩ ≠ .error .nil ∧
    ∀ log regions, writeSegments p wasteBlocks segNum writes ⟨image, 0⟩ = .ok (log, regions) → regions ≠ [] →
      ∀ {σ : Type} (clean : σ → Region → Bool × σ) (s : σ),
        cleanSegment clean p log.image s = some (visit clean regions s) := by
  have hblocks := hp.blocks
  have hstart : StandingLog p ⟨image, 0⟩ [] :=
    ⟨.inr ⟨Int.le_refl _, by show 0 + 2 ≤ p.segSizeInBlocks; omega, .here 1⟩, fun hne => absurd rfl hne⟩
  obtain ⟨hnil, hok⟩ := hstart.writeSegments hp hw segNum writes
  exact ⟨hnil, fun log regions hres hne σ clean s => ((hok log regions hres).chain hne).read clean hp s⟩

/-- The regions as they come. -/
def collect (regions : List Region) (region : Region) : Bool × List Region := (false, regions ++ [region])

/-- A write in which the modules make these calls. -/
def writeOf (calls : List LayoutCall) : SegmentWrite where
  prevSeg := -1
  nextSeg := -1
  calls := calls
  timestamp := fun _ => 0
  memory := fun _ => zeros

theorem oneSegment_summaries : (oneSegment 9).Summaries :=
  ⟨by decide, by decide, by decide, by decide, by decide⟩

/-- A call that adds nothing, one that adds a block and two bytes, and one that adds a byte. -/
def nothing : LayoutCall := ⟨[], [], false⟩
def oneBlock : LayoutCall := ⟨[[zeros]], [1, 2], false⟩
def oneByte : LayoutCall := ⟨[], [3], false⟩

/-- A partial write, an empty one, and one more. -/
theorem three_writes_read_back :
    ∃ log, writeSegments (oneSegment 9) 1 0
        [writeOf [oneBlock, nothing, nothing], writeOf [nothing, nothing, nothing], writeOf [nothing, oneByte, oneBlock]]
        ⟨fun _ => zeros, 0⟩ = .ok (log, [⟨0, [1, 2], 1, 1⟩, ⟨1, [3], 3, 0⟩, ⟨2, [1, 2], 3, 1⟩]) ∧
      cleanSegment collect (oneSegment 9) log.image [] =
        some (false, [⟨0, [1, 2], 1, 1⟩, ⟨1, [3], 3, 0⟩, ⟨2, [1, 2], 3, 1⟩]) := by
  obtain ⟨log, hlog⟩ : ∃ log, writeSegments (oneSegment 9) 1 0
      [writeOf [oneBlock, nothing, nothing], writeOf [nothing, nothing, nothing], writeOf [nothing, oneByte, oneBlock]]
      ⟨fun _ => zeros, 0⟩ = .ok (log, [⟨0, [1, 2], 1, 1⟩, ⟨1, [3], 3, 0⟩, ⟨2, [1, 2], 3, 1⟩]) := ⟨_, rfl⟩
  exact ⟨log, hlog, (reads_back oneSegment_summaries (by decide) 0 _ _).2 log _ hlog (by simp) collect []⟩

/-- The segment is closed before any write, and what was there before is read: a region nobody recorded. -/
theorem stale_regions :
    ∃ image log region, writeSegments (oneSegment 9) 1 0 [writeOf [⟨[], [], true⟩]] ⟨image, 0⟩ = .ok (log, []) ∧
      cleanSegment collect (oneSegment 9) log.image [] = some (false, [region]) := by
  obtain ⟨r, hr⟩ : ∃ r : Region, r = ⟨1, [7], 1, 0⟩ := ⟨_, rfl⟩
  obtain ⟨b, hb⟩ : ∃ b, b = storeHeader r 24 (setBytes (24 + segSummaryHdrSize) r.bytes
      (setInt 16 33 (newSummary onlySegment 0 zeros))) := ⟨_, rfl⟩
  obtain ⟨hheader, hbelow⟩ := header_stored 24 (setInt 16 33 (newSummary onlySegment 0 zeros))
    (show r.moduleType < 65536 by rw [hr]; decide) (by rw [hr]; decide) (Int.le_of_eq (by rw [hr])) (by rw [hr]; decide)
  rw [← hb] at hheader hbelow
  have hsum : Summary (oneSegment 9) b 1 [r] (-1) := by
    refine ⟨?_, ?_, ?_, ⟨hheader, by rw [hr], trivial⟩, by rw [hr]; decide⟩
    · rw [word_congr (fun k h1 h2 => hbelow k (by omega)), setInt, word_setWord_of_disjoint (by decide), magic_newSummary]
    · rw [int_congr (fun k h1 h2 => hbelow k (by omega)), int_setInt_self (by decide) (by decide), hr]
      rfl
    · rw [int_congr (fun k h1 h2 => hbelow k (by omega)), int_setInt_of_disjoint (by decide), next_newSummary]
  have hchain : Chain (oneSegment 9) (fun _ => b) [r] := ⟨1, [], [r], .here 1, by decide, hsum, rfl⟩
  obtain ⟨seg, hseg, hempty⟩ : ∃ seg, (getSegStruct (oneSegment 9) onlySegment 0).doOutCallBacks (oneSegment 9) 1
      (fun _ => 0) (fun _ => zeros) [⟨[], [], true⟩] = .ok (seg, -1, []) ∧ seg.segIsEmpty = some true := by
    refine ⟨_, rfl, ?_⟩
    show some (decide (int (setInt 16 24 (newSummary onlySegment 0 zeros)) 16 = segSummarySize)) = some true
    rw [int_setInt_self (by decide) (by decide)]
    rfl
  have hwrite : writeSegment (oneSegment 9) 1 0 (writeOf [⟨[], [], true⟩]) ⟨fun _ => b, 0⟩ = .ok (⟨fun _ => b, -1⟩, []) := by
    rw [writeSegment, if_neg (show ¬(0 : Int) = -1 by decide)]
    show Except.bind ((getSegStruct (oneSegment 9) onlySegment 0).doOutCallBacks (oneSegment 9) 1 (fun _ => 0)
      (fun _ => zeros) [⟨[], [], true⟩]) _ = _
    rw [hseg]
    show Except.ok ((⟨if seg.segIsEmpty = some true then _ else _, -1⟩ : LogSegment), []) = _
    rw [if_pos hempty]
  refine ⟨fun _ => b, ⟨fun _ => b, -1⟩, r, ?_, ?_⟩
  · rw [writeSegments, hwrite]
    rfl
  · rw [hchain.read collect oneSegment_summaries]
    rfl

end SpriteKernel.Lfs
