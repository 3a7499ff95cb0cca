import SpriteKernel.Lfs.SegUsage
import SpriteKernel.Lib.Machine
import Mathlib.Order.Nat

/- Whether there is clean space to write to (`LfsSegUsageEnoughClean`), and whether the cleaner makes more
   (`SegmentCleanProc`, `lfsSeg.c`). Byte counts are products in signed 32-bit ints; sums of sizes are taken to fit.
   The clean-in and clean-out routines are an environment: what a segment holds goes by its place in the array. -/
namespace SpriteKernel.Lfs

open List

open Machine

/-! ## Clean space -/

/-- `LfsSegUsageEnoughClean`. -/
def SegUsage.enoughClean (dirtyBytes : Int) (u : SegUsage) : Bool × SegUsage :=
  let segsAvailable := int32 (u.checkPoint.numClean - u.params.minNumClean)
  let cleaningThreshold := int32 (segsAvailable - lfsMinCleanThreshold)
  let u' := if int32 (cleaningThreshold * u.params.segmentSize) < dirtyBytes then u.segCleanStart else u
  (decide (int32 (segsAvailable * u.params.segmentSize) > dirtyBytes), u')

def SegUsage.bytesAvailable (u : SegUsage) : Int := (u.checkPoint.numClean - u.params.minNumClean) * u.params.segmentSize

/-- The product has not run into the sign bit from below, nor from above into a positive number. -/
def SegUsage.BytesFit (u : SegUsage) : Prop :=
  u.bytesAvailable < 2147483648 ∧ (-2147483648 ≤ u.bytesAvailable ∨ int32 u.bytesAvailable ≤ 0)

theorem enoughClean_eq (u : SegUsage) (d : Int) : (u.enoughClean d).1 = decide (int32 u.bytesAvailable > d) := by
  have hwrap : int32 (int32 (u.checkPoint.numClean - u.params.minNumClean) * u.params.segmentSize) = int32 u.bytesAvailable :=
    Int.bmod_mul_bmod
  simp only [SegUsage.enoughClean, hwrap]

/-- **Admission.** The test for clean space is exact if and only if the bytes available fit. -/
theorem enoughClean_exact_iff (u : SegUsage) :
    ((∀ d, 0 ≤ d → IsInt32 d → ((u.enoughClean d).1 = true ↔ u.bytesAvailable > d)) ↔ u.BytesFit) ∧
      ∀ more d : Int, 0 ≤ more → 0 ≤ d → 0 ≤ u.params.segmentSize → u.BytesFit →
        (u.setCheckPoint { u.checkPoint with numClean := u.checkPoint.numClean + more }).BytesFit → (u.enoughClean d).1 = true →
        ((u.setCheckPoint { u.checkPoint with numClean := u.checkPoint.numClean + more }).enoughClean d).1 = true := by
  have hexact : ∀ (v : SegUsage) (d : Int), 0 ≤ d → v.BytesFit → ((v.enoughClean d).1 = true ↔ v.bytesAvailable > d) := by
    intro v d hd hfit
    rw [enoughClean_eq, decide_eq_true_eq]
    obtain ⟨hlt, hle | hneg⟩ := hfit
    · rw [int32_of_fits hle hlt]
    · by_cases hle : -2147483648 ≤ v.bytesAvailable
      · rw [int32_of_fits hle hlt]
      · constructor <;> intro <;> omega
  refine ⟨⟨fun h => ⟨?_, ?_⟩, fun hfit d hd _ => hexact u d hd hfit⟩, ?_⟩
  · -- the most there can be to write
    by_contra hlarge
    have hmost := (h 2147483647 (by decide) (by unfold IsInt32; decide)).2 (by omega)
    rw [enoughClean_eq, decide_eq_true_eq] at hmost
    have hlt := int32_lt u.bytesAvailable
    omega
  · by_contra hneg
    have hnone := (h 0 (by decide) (by unfold IsInt32; decide)).1
    rw [enoughClean_eq, decide_eq_true_eq] at hnone
    omega
  · intro more d hmore hd hsize hfit hfit' henough
    rw [hexact _ d hd hfit']
    rw [hexact _ d hd hfit] at henough
    have hgrow : u.bytesAvailable ≤ (u.setCheckPoint { u.checkPoint with numClean := u.checkPoint.numClean + more }).bytesAvailable := by
      unfold SegUsage.bytesAvailable
      exact Int.mul_le_mul_of_nonneg_right (by simp; omega) hsize
    omega

/-- A file system of segments of half a megabyte, of which 100 are kept clean. -/
def halfMegSegs (numClean : Int) : SegUsage where
  params := ⟨12, 0, 524288, 8192, 100, 1, 4, 4096⟩
  checkPoint := ⟨0, numClean, 0, 0, 0, 0, 0, -1, -1⟩
  timeOfLastWrite := 0
  entry := fun _ => ⟨0, 0, false, false⟩
  blockIndex := fun _ => nilDiskAddr

/-- One more clean segment, and there is no room. -/
theorem enoughClean_exact_fails :
    ((halfMegSegs 4195).enoughClean 0).1 = true ∧ ((halfMegSegs 4196).enoughClean 0).1 = false ∧
      (halfMegSegs 4196).bytesAvailable > 0 := by
  decide

/-! ## Cleaning -/

def lfsMinNumberToClean : Int := 10

/-- What callbacks do, and who waits. `size` and `numCacheBlocksUsed` go by the place in the array, `numWritten` by
    the pass. -/
structure CleanEnv where
  error : Nat → Bool := fun _ => false
  size : Nat → Int := fun _ => 0
  numCacheBlocksUsed : Nat → Int := fun _ => 0
  numWritten : Nat → Int := fun _ => 0
  /-- Whether a checkpoint or a write-back waits, in a pass at a segment -/
  writeBackWait : Nat → Nat → Bool := fun _ _ => false
  /-- Whether a checkpoint waits at the end of a pass -/
  checkPointWait : Nat → Bool := fun _ => false

/-- What one pass has read in: `segNo` is the next segment. -/
structure CleanIn where
  segNo : Nat
  numCleaned : Int := 0
  totalSize : Int := 0
  cacheBlocksInUse : Int := 0
  deriving DecidableEq

structure CleanPasses where
  segNo : Nat := 0
  segsGen : Int := 0
  totalNumWritten : Int := 0
  passes : Nat := 0
  deriving DecidableEq

section Cleaner

variable (c : SegUsage.SegsToClean) (segSize cacheBlocksReserved : Int) (env : CleanEnv)

def minNumberToClean : Int := max c.minNeededToClean lfsMinNumberToClean

/-- No room in the cache, or none on the disk, or enough is clean for those who wait. -/
def stopsAt (e : SegListEntry) (waits : Bool) (p : CleanIn) : Bool :=
  decide (p.cacheBlocksInUse + e.activeBytes.tdiv 4096 > cacheBlocksReserved) ||
    decide (p.totalSize + e.activeBytes > int32 (segSize * c.maxAvailToWrite)) ||
    (waits && decide (int32 (p.numCleaned * segSize - p.totalSize) > int32 (segSize * minNumberToClean c)))

def CleanIn.read (p : CleanIn) : CleanIn where
  segNo := p.segNo + 1
  numCleaned := if env.error p.segNo then p.numCleaned else p.numCleaned + 1
  totalSize := p.totalSize + env.size p.segNo
  cacheBlocksInUse := p.cacheBlocksInUse + env.numCacheBlocksUsed p.segNo

/-- The `for` loop of a pass, with the segments from `segNo` on. -/
def cleanIn (pass : Nat) : List SegListEntry → CleanIn → CleanIn
  | [], p => p
  | e :: segs, p =>
    if stopsAt c segSize cacheBlocksReserved e (env.writeBackWait pass p.segNo) p then p
    else cleanIn pass segs (p.read env)

/-- The body of the `do` loop. -/
def cleanPass (s : CleanPasses) : CleanPasses :=
  let p := cleanIn c segSize cacheBlocksReserved env s.passes (c.segs.drop s.segNo) { segNo := s.segNo }
  let numWritten := if p.totalSize > 0 then env.numWritten s.passes else 0
  { segNo := p.segNo
    segsGen := s.segsGen + (p.numCleaned - numWritten)
    totalNumWritten := s.totalNumWritten + numWritten
    passes := s.passes + 1 }

/-- The condition of the `do` loop. -/
def cleansOn (s : CleanPasses) : Bool :=
  decide (s.segsGen ≤ minNumberToClean c) && decide (s.segNo < c.segs.length) &&
    decide (s.totalNumWritten < c.maxAvailToWrite) &&
    !(env.checkPointWait s.passes && decide (s.segsGen ≥ lfsMinNumberToClean))

/-- The `do` loop of `SegmentCleanProc`, for so many passes; `segNo` is then `numSegsCleaned`. -/
def cleanSegs : Nat → CleanPasses → Option CleanPasses
  | 0, _ => none
  | n + 1, s =>
    let s' := cleanPass c segSize cacheBlocksReserved env s
    if cleansOn c env s' then cleanSegs n s' else some s'

end Cleaner

/-! ## Progress -/

variable {c : SegUsage.SegsToClean} {segSize reserved : Int} {env : CleanEnv} {s : CleanPasses} {e : SegListEntry} {k : Nat}

/-- The segment has room for itself, in the cache and in the segments that may be written. -/
def fitsAlone (c : SegUsage.SegsToClean) (segSize reserved : Int) (e : SegListEntry) : Prop :=
  e.activeBytes.tdiv 4096 ≤ reserved ∧ e.activeBytes ≤ int32 (segSize * c.maxAvailToWrite)

/-- The callbacks find no errors, and what they count is not negative. -/
structure CleanEnv.Sound (env : CleanEnv) : Prop where
  error : ∀ k, env.error k = false
  size : ∀ k, 0 ≤ env.size k
  numWritten : ∀ pass, 0 ≤ env.numWritten pass

/-- The first segment is cleaned whoever waits, and no pass comes to a segment that has no room. -/
structure Cleanable (c : SegUsage.SegsToClean) (segSize reserved : Int) : Prop where
  first : ∀ e, c.segs.head? = some e → fitsAlone c segSize reserved e
  needed : 0 ≤ int32 (segSize * minNumberToClean c)
  rest : 0 < c.maxAvailToWrite → ∀ (k : Nat) e, c.segs[k]? = some e → ¬fitsAlone c segSize reserved e →
    minNumberToClean c + c.maxAvailToWrite ≤ (k : Int)

theorem stopsAt_start {w : Bool} : stopsAt c segSize reserved e w { segNo := k } = false ↔
      fitsAlone c segSize reserved e ∧ (w = true → 0 ≤ int32 (segSize * minNumberToClean c)) := by
  have hzero : int32 0 = 0 := by decide
  unfold stopsAt fitsAlone
  simp [hzero, and_assoc]

theorem cleanIn_counted (c : SegUsage.SegsToClean) (segSize reserved : Int) (hsound : env.Sound) (pass : Nat) (segs : List SegListEntry) (p : CleanIn) :
    p.segNo ≤ (cleanIn c segSize reserved env pass segs p).segNo ∧
      (cleanIn c segSize reserved env pass segs p).segNo ≤ p.segNo + segs.length ∧
      (cleanIn c segSize reserved env pass segs p).numCleaned - p.numCleaned =
        (cleanIn c segSize reserved env pass segs p).segNo - p.segNo := by
  induction segs generalizing p with
  | nil => simp [cleanIn]
  | cons e segs ih =>
    rw [cleanIn]
    split
    · simp
    · obtain ⟨hle, hlen, hcount⟩ := ih (p.read env)
      simp only [CleanIn.read, hsound.error] at hle hlen hcount
      simp only [CleanIn.read, hsound.error, length_cons]
      refine ⟨by omega, by omega, ?_⟩
      simp only [Bool.false_eq_true, if_false] at hcount ⊢
      omega

/-- What all passes together have cleaned has been written or is new. -/
structure CleanPasses.Counted (c : SegUsage.SegsToClean) (s : CleanPasses) : Prop where
  segsGen : s.segsGen + s.totalNumWritten = s.segNo
  segNo : s.segNo ≤ c.segs.length
  written : 0 ≤ s.totalNumWritten

theorem CleanPasses.Counted.cleanPass (hs : s.Counted c) (segSize reserved : Int) (hsound : env.Sound) :
    (Lfs.cleanPass c segSize reserved env s).Counted c ∧ s.segNo ≤ (Lfs.cleanPass c segSize reserved env s).segNo := by
  obtain ⟨hle, hlen, hcount⟩ :=
    cleanIn_counted c segSize reserved hsound s.passes (c.segs.drop s.segNo) { segNo := s.segNo }
  have hgen := hs.segsGen
  have hwritten := hs.written
  have hnow := hsound.numWritten s.passes
  rw [length_drop] at hlen
  dsimp only at hle hlen hcount
  have hbound := hs.segNo
  refine ⟨⟨?_, ?_, ?_⟩, hle⟩
  · simp only [Lfs.cleanPass]
    omega
  · simp only [Lfs.cleanPass]
    omega
  · simp only [Lfs.cleanPass]
    split <;> omega

theorem segNo_lt_cleanPass (hsound : env.Sound) (hneed : 0 ≤ int32 (segSize * minNumberToClean c))
    (he : c.segs[s.segNo]? = some e) (hfit : fitsAlone c segSize reserved e) :
    s.segNo < (cleanPass c segSize reserved env s).segNo := by
  obtain ⟨hk, rfl⟩ := List.getElem?_eq_some_iff.1 he
  have hstart := (stopsAt_start (w := env.writeBackWait s.passes s.segNo) (k := s.segNo)).2 ⟨hfit, fun _ => hneed⟩
  have hread := (cleanIn_counted c segSize reserved hsound s.passes (c.segs.drop (s.segNo + 1))
    (CleanIn.read env { segNo := s.segNo })).1
  simp only [cleanPass]
  rw [drop_eq_getElem_cons hk, cleanIn, if_neg (by simp [hstart])]
  exact hread

theorem cleanSegs_ends (h : Cleanable c segSize reserved) (hsound : env.Sound) {n : Nat} (hs : s.Counted c)
    (hn : c.segs.length ≤ s.segNo + n) (hlt : s.segNo < c.segs.length)
    (hon : s.segNo ≠ 0 → s.segsGen ≤ minNumberToClean c ∧ s.totalNumWritten < c.maxAvailToWrite) :
    ∃ s', cleanSegs c segSize reserved env n s = some s' ∧ 0 < s'.segNo := by
  induction n generalizing s with
  | zero => omega
  | succ n ih =>
    have hfit : fitsAlone c segSize reserved c.segs[s.segNo] := by
      by_cases hzero : s.segNo = 0
      · refine h.first _ ?_
        rw [List.head?_eq_getElem?, ← hzero]
        exact List.getElem?_eq_getElem hlt
      · by_contra hfit
        have hrest := h.rest (by have := hs.written; omega) _ _ (List.getElem?_eq_getElem hlt) hfit
        have hcount := hs.segsGen
        omega
    have hmore := segNo_lt_cleanPass hsound h.needed (List.getElem?_eq_getElem hlt) hfit
    obtain ⟨hs', -⟩ := hs.cleanPass segSize reserved hsound
    rw [cleanSegs]
    split
    next hagain =>
      simp only [cleansOn, Bool.and_eq_true, decide_eq_true_eq] at hagain
      exact ih hs' (by omega) hagain.1.1.2 fun _ => ⟨hagain.1.1.1, hagain.1.2⟩
    next => exact ⟨_, rfl, by omega⟩

theorem cleanSegs_stuck {s s' : CleanPasses} {n : Nat} (he : c.segs[s.segNo]? = some e)
    (hstop : ∀ pass, stopsAt c segSize reserved e (env.writeBackWait pass s.segNo) { segNo := s.segNo } = true)
    (h : cleanSegs c segSize reserved env n s = some s') : s'.segNo = s.segNo ∧
      cleansOn c env s' = false ∧ s'.segsGen = s.segsGen ∧ s'.totalNumWritten = s.totalNumWritten := by
  induction n generalizing s with
  | zero => cases h
  | succ n ih =>
    obtain ⟨hk, rfl⟩ := List.getElem?_eq_some_iff.1 he
    have hsame : cleanPass c segSize reserved env s = { s with passes := s.passes + 1 } := by
      simp only [cleanPass]
      rw [drop_eq_getElem_cons hk, cleanIn, if_pos (hstop _)]
      simp
    rw [cleanSegs, hsame] at h
    split at h
    next => exact ih (s := { s with passes := s.passes + 1 }) he hstop h
    next hend =>
      cases h
      exact ⟨rfl, by simpa using hend, rfl, rfl⟩

/-! ## No progress -/

/-- All segments turn out empty, but the one before `k` where something may be written for it. -/
def emptyBefore (c : SegUsage.SegsToClean) (k : Nat) : CleanEnv where
  size := fun j => if j + 1 = k ∧ 1 < c.maxAvailToWrite then 1 else 0
  numWritten := fun _ => c.maxAvailToWrite - 1

theorem emptyBefore_sound (hmax : 0 < c.maxAvailToWrite) : (emptyBefore c k).Sound := by
  refine ⟨fun _ => rfl, fun j => ?_, fun _ => ?_⟩
  · simp only [emptyBefore]
    split <;> omega
  · simp only [emptyBefore]
    omega

theorem cleanIn_emptyBefore (hk : k < c.segs.length) (hunfit : ¬fitsAlone c segSize reserved c.segs[k])
    (hfit : ∀ j (hj : j < c.segs.length), j < k → fitsAlone c segSize reserved c.segs[j]) (d j : Nat) (hd : j + d = k) :
    cleanIn c segSize reserved (emptyBefore c k) 0 (c.segs.drop j) ⟨j, j, if j = k ∧ 1 < c.maxAvailToWrite then 1 else 0, 0⟩ =
      ⟨k, k, if 1 < c.maxAvailToWrite then 1 else 0, 0⟩ := by
  induction d generalizing j with
  | zero =>
    obtain rfl : j = k := by omega
    have hstop : stopsAt c segSize reserved c.segs[j] ((emptyBefore c j).writeBackWait 0 j)
        ⟨j, j, if j = j ∧ 1 < c.maxAvailToWrite then 1 else 0, 0⟩ = true := by
      simp only [fitsAlone, Classical.not_and_iff_not_or_not, Int.not_le] at hunfit
      simp only [stopsAt, emptyBefore, Bool.or_eq_true, decide_eq_true_eq, Bool.false_and]
      split <;> omega
    rw [drop_eq_getElem_cons hk, cleanIn, if_pos hstop]
    simp
  | succ d ih =>
    have hj : j < c.segs.length := by omega
    obtain ⟨hcache, hdisk⟩ := hfit j hj (by omega)
    have hgo : stopsAt c segSize reserved c.segs[j] ((emptyBefore c k).writeBackWait 0 j)
        ⟨j, j, if j = k ∧ 1 < c.maxAvailToWrite then 1 else 0, 0⟩ = false := by
      simp only [stopsAt, emptyBefore, Bool.false_and, Bool.or_false, Bool.or_eq_false_iff, decide_eq_false_iff_not]
      omega
    rw [drop_eq_getElem_cons hj, cleanIn, if_neg (by simp [hgo]), ← ih (j + 1) (by omega)]
    simp only [CleanIn.read, emptyBefore]
    rw [if_neg (by omega : ¬(j = k ∧ 1 < c.maxAvailToWrite))]
    simp

theorem not_cleanSegs_emptyBefore {k n : Nat} (hmax : 0 < c.maxAvailToWrite) (hpos : 0 < k)
    (hk : k < c.segs.length) (hunfit : ¬fitsAlone c segSize reserved c.segs[k])
    (hfit : ∀ j (hj : j < c.segs.length), j < k → fitsAlone c segSize reserved c.segs[j])
    (hsmall : (k : Int) < minNumberToClean c + c.maxAvailToWrite) :
    cleanSegs c segSize reserved (emptyBefore c k) n {} ≠ some s := by
  intro h
  cases n with
  | zero => cases h
  | succ n =>
    have hin := cleanIn_emptyBefore hk hunfit hfit k 0 (by omega)
    rw [if_neg (by omega), Int.natCast_zero] at hin
    have hpass : cleanPass c segSize reserved (emptyBefore c k) {} = ⟨k, k - (c.maxAvailToWrite - 1), c.maxAvailToWrite - 1, 1⟩ := by
      have hwritten : (if (if 1 < c.maxAvailToWrite then (1 : Int) else 0) > 0 then c.maxAvailToWrite - 1 else 0) = c.maxAvailToWrite - 1 := by
        split <;> split at * <;> omega
      have hnum : (emptyBefore c k).numWritten 0 = c.maxAvailToWrite - 1 := rfl
      simp only [cleanPass, hin, hnum, hwritten, Int.zero_add]
    have hon : ∀ t : CleanPasses, t.segNo = k → t.segsGen = k - (c.maxAvailToWrite - 1) → t.totalNumWritten = c.maxAvailToWrite - 1 →
        cleansOn c (emptyBefore c k) t = true := by
      intro t hsegNo hgen hwritten
      simp only [cleansOn, emptyBefore, hsegNo, hgen, hwritten, Bool.and_eq_true, decide_eq_true_eq, Bool.false_and, Bool.not_false,
        and_true]
      omega
    rw [cleanSegs, hpass, if_pos (hon _ rfl rfl rfl)] at h
    have hstop : ∀ pass, stopsAt c segSize reserved c.segs[k] ((emptyBefore c k).writeBackWait pass k) { segNo := k } = true := by
      intro pass
      rw [← Bool.not_eq_false]
      exact fun hgo => hunfit (stopsAt_start.1 hgo).1
    obtain ⟨hsegNo, hend, hgen, hwritten⟩ := cleanSegs_stuck (List.getElem?_eq_getElem hk) hstop h
    rw [hon s hsegNo hgen hwritten] at hend
    cases hend

/-- Someone waits at every segment. -/
def alwaysWaited : CleanEnv where
  writeBackWait := fun _ _ => true

/-- **Progress of the cleaner.** A round ends and has cleaned a segment, if there are two to clean. -/
theorem segmentCleanProc_progress_iff (u : SegUsage) (maxNumSegsToClean : Nat) (now : Int) (fullClean : Bool) (reserved : Int)
    (htwo : 1 < (u.getSegsToClean maxNumSegsToClean now fullClean).1.segs.length) :
    (∀ env : CleanEnv, env.Sound → ∃ n s, cleanSegs (u.getSegsToClean maxNumSegsToClean now fullClean).1 u.params.segmentSize reserved
        env n {} = some s ∧ 0 < s.segNo) ↔
      Cleanable (u.getSegsToClean maxNumSegsToClean now fullClean).1 u.params.segmentSize reserved := by
  generalize (u.getSegsToClean maxNumSegsToClean now fullClean).1 = c at *
  generalize u.params.segmentSize = segSize
  have hhead : c.segs.head? = some c.segs[0] := by
    rw [List.head?_eq_getElem?]
    exact List.getElem?_eq_getElem (by omega)
  refine ⟨fun h => ?_, fun h env hsound => ?_⟩
  · have hfirst : fitsAlone c segSize reserved c.segs[0] ∧ 0 ≤ int32 (segSize * minNumberToClean c) := by
      obtain ⟨n, s, hrun, hclean⟩ := h alwaysWaited ⟨fun _ => rfl, fun _ => Int.le_refl 0, fun _ => Int.le_refl 0⟩
      by_contra hnot
      have hstop : ∀ pass, stopsAt c segSize reserved c.segs[0] (alwaysWaited.writeBackWait pass 0) { segNo := 0 } = true := by
        intro pass
        rw [← Bool.not_eq_false]
        intro hgo
        obtain ⟨hfit, hneed⟩ := stopsAt_start.1 hgo
        exact hnot ⟨hfit, hneed rfl⟩
      have hzero : s.segNo = 0 := (cleanSegs_stuck (s := {}) (List.getElem?_eq_getElem (by dsimp only; omega)) hstop hrun).1
      omega
    refine ⟨fun e he => ?_, hfirst.2, fun hmax k e he hunfit => ?_⟩
    · rw [hhead] at he
      cases he
      exact hfirst.1
    · by_contra hsmall
      -- the first one that has no room
      have hex : ∃ k, ∃ hk : k < c.segs.length, ¬fitsAlone c segSize reserved c.segs[k] := by
        obtain ⟨hk, rfl⟩ := List.getElem?_eq_some_iff.1 he
        exact ⟨k, hk, hunfit⟩
      classical
      obtain ⟨hlt, hnofit⟩ := Nat.find_spec hex
      have hleast : Nat.find hex ≤ k := by
        obtain ⟨hk, rfl⟩ := List.getElem?_eq_some_iff.1 he
        exact Nat.find_min' hex ⟨hk, hunfit⟩
      have hpos : 0 < Nat.find hex := by
        refine Nat.pos_of_ne_zero fun hzero => hnofit ?_
        simp only [hzero]
        exact hfirst.1
      have hbefore : ∀ j (hj : j < c.segs.length), j < Nat.find hex → fitsAlone c segSize reserved c.segs[j] := by
        intro j hj hlt
        by_contra hno
        exact Nat.find_min hex hlt ⟨hj, hno⟩
      obtain ⟨n, s, hrun, -⟩ := h _ (emptyBefore_sound (k := Nat.find hex) hmax)
      exact not_cleanSegs_emptyBefore hmax hpos hlt hnofit hbefore (by omega) hrun
  · refine ⟨c.segs.length, ?_⟩
    refine cleanSegs_ends h hsound ⟨rfl, Nat.zero_le _, Int.le_refl 0⟩ ?_ (by dsimp only; omega) fun hne => absurd rfl hne
    exact Nat.le_add_left _ _

def twoEmpty (numClean : Int) : SegUsage where
  params := ⟨12, 0, 524288, 3, 4, 1, 4, 4096⟩
  checkPoint := ⟨0, numClean, 2, 0, 0, 0, 0, -1, -1⟩
  timeOfLastWrite := 0
  entry := fun _ => ⟨0, 0, false, true⟩
  blockIndex := fun _ => nilDiskAddr

theorem segmentCleanProc_progress_iff_two :
    Cleanable ((twoEmpty 14).getSegsToClean 8 0 false).1 (twoEmpty 14).params.segmentSize 100 ∧
      ∀ env : CleanEnv, env.Sound → ∃ n s, cleanSegs ((twoEmpty 14).getSegsToClean 8 0 false).1 (twoEmpty 14).params.segmentSize 100
        env n {} = some s ∧ 0 < s.segNo := by
  have hsegs : ((twoEmpty 14).getSegsToClean 8 0 false).1.segs = [⟨1, 0, 0x7fffffff⟩, ⟨2, 0, 0x7fffffff⟩] := by decide
  have hfit : ∀ e ∈ ((twoEmpty 14).getSegsToClean 8 0 false).1.segs,
      fitsAlone ((twoEmpty 14).getSegsToClean 8 0 false).1 (twoEmpty 14).params.segmentSize 100 e := by
    unfold fitsAlone
    decide
  have hclean : Cleanable ((twoEmpty 14).getSegsToClean 8 0 false).1 (twoEmpty 14).params.segmentSize 100 := by
    refine ⟨fun e he => hfit e (mem_of_mem_head? he), by decide, fun _ k e he hunfit => ?_⟩
    exact absurd (hfit e (mem_of_getElem? he)) hunfit
  exact ⟨hclean, (segmentCleanProc_progress_iff (twoEmpty 14) 8 0 false 100 (by decide)).2 hclean⟩

/-- With five clean segments left nothing may be written, and the cleaner goes round again. -/
theorem segmentCleanProc_progress_fails :
    ((twoEmpty 5).getSegsToClean 8 0 false).1.segs = [⟨1, 0, 0x7fffffff⟩, ⟨2, 0, 0x7fffffff⟩] ∧
      cleanSegs ((twoEmpty 5).getSegsToClean 8 0 false).1 (twoEmpty 5).params.segmentSize 100 {} 1 {} = some ⟨0, 0, 0, 1⟩ ∧
        ((twoEmpty 5).getSegsToClean 8 0 false).1.minNeededToClean ≠ 0 := by
  decide

end SpriteKernel.Lfs
