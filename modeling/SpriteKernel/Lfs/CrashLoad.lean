import SpriteKernel.Lfs.CheckPoint

/- Loading a file system, after any content of the checkpoint areas and after a crash in the middle of a checkpoint.
   The load ends exactly if one of the two areas it tries has equal timestamps; with both torn it tries them in turn
   for ever. -/
namespace SpriteKernel.Lfs

open SpriteKernel Bytes

/-! ## Areas -/

/-- The timestamp behind the checkpoint can be read. -/
def Readable (io : LoadIO) (b : Buffer) : Prop :=
  hdrSize ≤ io.maxSize ∧ 0 ≤ trailerOffset b ∧ trailerOffset b + 4 ≤ io.maxSize

/-- The timestamps in front of and behind the checkpoint are the same. -/
def Matches (b : Buffer) : Prop := hdrTimestamp b = word b (trailerOffset b)

instance (io : LoadIO) (b : Buffer) : Decidable (Readable io b) := inferInstanceAs (Decidable (_ ∧ _ ∧ _))

instance (b : Buffer) : Decidable (Matches b) := inferInstanceAs (Decidable (_ = _))

/-- What becomes of an area after which the other is not tried. -/
def settle (io : LoadIO) (areas : Bool → Buffer) (area : Bool) : Except Fault Load :=
  if io.readArea area ≠ .success then io.lfsError (.ok ⟨io.readArea area, none, none⟩)
  else if ¬Readable io (areas area) then .error .outOfBounds
  else if ¬Matches (areas area) then .error .panic
  else attachCheckPoint io area (areas area)

/-- The load ends with this area. -/
def Ends (io : LoadIO) (areas : Bool → Buffer) (area : Bool) : Prop :=
  if io.readArea area = .success then
    Readable io (areas area) ∧ Matches (areas area) ∧
      ((io.installDomain (int (areas area) 76) (int (areas area) 88)).1 = .success →
        trailerOffset (areas area) + trailerSize + io.statsSize ≤ io.maxSize)
  else io.goesOn = true

/-- The load reports that the area is torn, and takes the other. -/
def Retries (io : LoadIO) (areas : Bool → Buffer) (area : Bool) : Prop :=
  io.readArea area = .success ∧ Readable io (areas area) ∧ ¬Matches (areas area) ∧ io.goesOn = true

/-- The area whose header is newer. -/
def newest (areas : Bool → Buffer) : Bool := decide (hdrTimestamp (areas false) < hdrTimestamp (areas true))

/-- The load comes to a result. -/
def Loads (io : LoadIO) (areas : Bool → Buffer) (r : Load) : Prop :=
  ∃ fuel, loadFileSystem io areas fuel = some (.ok r)

theorem attachCheckPoint_iff (io : LoadIO) (area : Bool) (b : Buffer) :
    (∃ r, attachCheckPoint io area b = .ok r) ↔
      ((io.installDomain (int b 76) (int b 88)).1 = .success →
        trailerOffset b + trailerSize + io.statsSize ≤ io.maxSize) := by
  unfold attachCheckPoint
  by_cases hinstall : (io.installDomain (int b 76) (int b 88)).1 = .success
  · simp only [hinstall, ne_eq, not_true_eq_false, if_false, true_implies]
    by_cases hstats : trailerOffset b + trailerSize + io.statsSize > io.maxSize
    · rw [if_pos hstats]
      exact ⟨fun ⟨_, h⟩ => absurd h (by simp), fun h => absurd h (by omega)⟩
    · rw [if_neg hstats]
      refine ⟨fun _ => by omega, fun _ => ?_⟩
      split
      · exact ⟨_, rfl⟩
      · exact ⟨_, rfl⟩
  · simp only [ne_eq, hinstall, not_false_eq_true, if_true, false_implies, iff_true]
    exact ⟨_, rfl⟩

variable {io : LoadIO} {area : Bool} {b : Buffer} {r : Load}

theorem attachCheckPoint_source (h : attachCheckPoint io area b = .ok r) : r.source = some (area, b) := by
  unfold attachCheckPoint at h
  simp only at h
  split at h
  · rw [← Except.ok.inj h]
  · split at h
    · exact absurd h (by simp)
    · split at h
      · rw [← Except.ok.inj h]
      · rw [← Except.ok.inj h]

theorem attachCheckPoint_loaded (hinstall : (io.installDomain (int b 76) (int b 88)).1 = .success)
    (hattach : io.segAttach b hdrSize (trailerOffset b - hdrSize) = .success)
    (h : attachCheckPoint io area b = .ok r) :
    ∃ cp, r.checkPoint = some cp ∧ cp.timestamp = (hdrTimestamp b + 1) % 4294967296 := by
  unfold attachCheckPoint at h
  simp only [hinstall, hattach, ne_eq, not_true_eq_false, if_false] at h
  split at h
  · exact absurd h (by simp)
  · rw [← Except.ok.inj h]
    exact ⟨_, rfl, rfl⟩

/-! ## Ending -/

theorem loadArea_succ (io : LoadIO) (areas : Bool → Buffer) (fuel : Nat) (area : Bool) :
    loadArea io areas (fuel + 1) area =
      if io.readArea area ≠ .success then some (io.lfsError (.ok ⟨io.readArea area, none, none⟩))
      else if ¬Readable io (areas area) then some (.error .outOfBounds)
      else if ¬Matches (areas area) then
        if io.goesOn then loadArea io areas fuel (!area) else some (.error .panic)
      else some (attachCheckPoint io area (areas area)) := by
  rfl

variable {areas : Bool → Buffer} {c : Buffer}

theorem loadArea_retries (h : Retries io areas area) (fuel : Nat) :
    loadArea io areas (fuel + 1) area = loadArea io areas fuel (!area) := by
  obtain ⟨hread, hreadable, hmatch, hgo⟩ := h
  rw [loadArea_succ, if_neg (not_not.mpr hread), if_neg (not_not.mpr hreadable), if_pos hmatch, if_pos hgo]

theorem loadArea_settle (h : ¬Retries io areas area) (fuel : Nat) :
    loadArea io areas (fuel + 1) area = some (settle io areas area) := by
  rw [loadArea_succ]
  unfold settle
  by_cases hread : io.readArea area = .success
  · rw [if_neg (not_not.mpr hread), if_neg (not_not.mpr hread)]
    by_cases hreadable : Readable io (areas area)
    · rw [if_neg (not_not.mpr hreadable), if_neg (not_not.mpr hreadable)]
      by_cases hmatch : Matches (areas area)
      · rw [if_neg (not_not.mpr hmatch), if_neg (not_not.mpr hmatch)]
      · have hgo : io.goesOn ≠ true := fun hgo => h ⟨hread, hreadable, hmatch, hgo⟩
        rw [if_pos hmatch, if_pos hmatch, if_neg hgo]
    · rw [if_pos hreadable, if_pos hreadable]
  · rw [if_pos hread, if_pos hread]

theorem settle_iff (area : Bool) : (∃ r, settle io areas area = .ok r) ↔ Ends io areas area := by
  unfold settle Ends
  by_cases hread : io.readArea area = .success
  · rw [if_neg (not_not.mpr hread), if_pos hread]
    by_cases hreadable : Readable io (areas area)
    · by_cases hmatch : Matches (areas area)
      · rw [if_neg (not_not.mpr hreadable), if_neg (not_not.mpr hmatch), ← attachCheckPoint_iff io area]
        exact ⟨fun h => ⟨hreadable, hmatch, h⟩, fun h => h.2.2⟩
      · rw [if_neg (not_not.mpr hreadable), if_pos hmatch]
        exact ⟨fun ⟨_, h⟩ => absurd h (by simp), fun h => absurd h.2.1 hmatch⟩
    · rw [if_pos hreadable]
      exact ⟨fun ⟨_, h⟩ => absurd h (by simp), fun h => absurd h.1 hreadable⟩
  · rw [if_pos hread, if_neg hread]
    unfold LoadIO.lfsError
    cases io.goesOn <;> simp

theorem Retries.not_ends (h : Retries io areas area) : ¬Ends io areas area := by
  intro hends
  unfold Ends at hends
  rw [if_pos h.1] at hends
  exact h.2.2.1 hends.2.1

theorem loadArea_iff (io : LoadIO) (areas : Bool → Buffer) (area : Bool) :
    (∃ fuel r, loadArea io areas fuel area = some (.ok r)) ↔
      Ends io areas area ∨ Retries io areas area ∧ Ends io areas (!area) := by
  by_cases hfirst : Retries io areas area
  · by_cases hother : Retries io areas (!area)
    · have hall : ∀ a, Retries io areas a := by
        intro a
        cases area <;> cases a
        · exact hfirst
        · exact hother
        · exact hother
        · exact hfirst
      have hnone : ∀ fuel a, loadArea io areas fuel a = none := by
        intro fuel
        induction fuel with
        | zero => exact fun a => rfl
        | succ fuel ih => exact fun a => by rw [loadArea_retries (hall a), ih]
      refine ⟨fun ⟨fuel, r, h⟩ => ?_, fun h => ?_⟩
      · rw [hnone] at h
        exact absurd h (by simp)
      · rcases h with h | ⟨-, h⟩
        · exact absurd h hfirst.not_ends
        · exact absurd h hother.not_ends
    · refine ⟨fun ⟨fuel, r, h⟩ => .inr ⟨hfirst, ?_⟩, fun h => ?_⟩
      · cases fuel with
        | zero => exact absurd h (by simp [loadArea])
        | succ fuel =>
          rw [loadArea_retries hfirst] at h
          cases fuel with
          | zero => exact absurd h (by simp [loadArea])
          | succ fuel =>
            rw [loadArea_settle hother] at h
            exact (settle_iff _).mp ⟨r, Option.some.inj h⟩
      · obtain ⟨r, hr⟩ := (settle_iff _).mpr (h.resolve_left hfirst.not_ends).2
        exact ⟨2, r, by rw [loadArea_retries hfirst, loadArea_settle hother, hr]⟩
  · refine ⟨fun ⟨fuel, r, h⟩ => .inl ?_, fun h => ?_⟩
    · cases fuel with
      | zero => exact absurd h (by simp [loadArea])
      | succ fuel =>
        rw [loadArea_settle hfirst] at h
        exact (settle_iff _).mp ⟨r, Option.some.inj h⟩
    · obtain ⟨r, hr⟩ := (settle_iff _).mpr (h.resolve_right (fun hr => hfirst hr.1))
      exact ⟨1, r, by rw [loadArea_settle hfirst, hr]⟩

def LoadEnds (io : LoadIO) (areas : Bool → Buffer) : Prop :=
  if io.readHdr false = .success ∧ io.readHdr true = .success then
    Ends io areas (newest areas) ∨ Retries io areas (newest areas) ∧ Ends io areas (!newest areas)
  else io.goesOn = true

theorem loads_iff (io : LoadIO) (areas : Bool → Buffer) : (∃ r, Loads io areas r) ↔ LoadEnds io areas := by
  unfold Loads LoadEnds loadFileSystem
  by_cases h0 : io.readHdr false = .success
  · by_cases h1 : io.readHdr true = .success
    · rw [if_pos ⟨h0, h1⟩, ← loadArea_iff]
      simp only [h0, h1, ne_eq, not_true_eq_false, if_false]
      exact exists_comm
    · simp only [h0, h1, ne_eq, not_true_eq_false, if_false, not_false_eq_true, if_true]
      unfold LoadIO.lfsError
      cases io.goesOn <;> simp
  · simp only [h0, ne_eq, not_false_eq_true, if_true]
    unfold LoadIO.lfsError
    cases io.goesOn <;> simp

/-! ## What the load goes on from -/

/-- The end of the statistics. -/
def extent (io : LoadIO) (c : Buffer) : Int := trailerOffset c + trailerSize + io.statsSize

/-- The load goes on from the checkpoint `c`. -/
def LoadsFrom (io : LoadIO) (areas : Bool → Buffer) (c : Buffer) : Prop :=
  ∃ area b r, Loads io areas r ∧ attachCheckPoint io area b = .ok r ∧ Same (extent io c) b c

def ReadsWell (io : LoadIO) : Prop := ∀ area, io.readHdr area = .success ∧ io.readArea area = .success

/-- The load takes this area, at once or as the second. -/
def Picks (io : LoadIO) (areas : Bool → Buffer) (area : Bool) : Prop :=
  newest areas = area ∨ newest areas = (!area) ∧ Retries io areas (!area)

theorem loads_settle_iff (hio : ReadsWell io) :
    Loads io areas r ↔ ∃ area, Picks io areas area ∧ ¬Retries io areas area ∧ settle io areas area = .ok r := by
  have hload : ∀ fuel, loadFileSystem io areas fuel = loadArea io areas fuel (newest areas) := by
    intro fuel
    unfold loadFileSystem newest
    rw [if_neg (not_not.mpr (hio false).1), if_neg (not_not.mpr (hio true).1)]
  unfold Loads Picks
  simp only [hload]
  constructor
  · rintro ⟨fuel, h⟩
    cases fuel with
    | zero => exact absurd h (by simp [loadArea])
    | succ fuel =>
      by_cases hfirst : Retries io areas (newest areas)
      · rw [loadArea_retries hfirst] at h
        have hends := ((loadArea_iff io areas (!newest areas)).mp ⟨fuel, r, h⟩)
        have hother : ¬Retries io areas (!newest areas) := by
          intro hother
          rcases hends with hends | ⟨-, hends⟩
          · exact hother.not_ends hends
          · rw [Bool.not_not] at hends
            exact hfirst.not_ends hends
        refine ⟨!newest areas, .inr ⟨by rw [Bool.not_not], by rwa [Bool.not_not]⟩, hother, ?_⟩
        cases fuel with
        | zero => exact absurd h (by simp [loadArea])
        | succ fuel =>
          rw [loadArea_settle hother] at h
          exact Option.some.inj h
      · rw [loadArea_settle hfirst] at h
        exact ⟨newest areas, .inl rfl, hfirst, Option.some.inj h⟩
  · rintro ⟨area, hpick, hno, h⟩
    rcases hpick with rfl | ⟨hnew, hretry⟩
    · exact ⟨1, by rw [loadArea_settle hno, h]⟩
    · refine ⟨2, ?_⟩
      rw [hnew, loadArea_retries hretry, Bool.not_not, loadArea_settle hno, h]

theorem settle_of_matches (hio : ReadsWell io) (hr : Readable io (areas area)) (hm : Matches (areas area)) :
    settle io areas area = attachCheckPoint io area (areas area) := by
  unfold settle
  rw [if_neg (not_not.mpr (hio area).2), if_neg (not_not.mpr hr), if_neg (not_not.mpr hm)]

theorem settle_ok (hio : ReadsWell io) (h : settle io areas area = .ok r) : Readable io (areas area) ∧ Matches (areas area) ∧
      attachCheckPoint io area (areas area) = .ok r := by
  have hends := (settle_iff area).mp ⟨r, h⟩
  unfold Ends at hends
  rw [if_pos (hio area).2] at hends
  refine ⟨hends.1, hends.2.1, ?_⟩
  rwa [settle_of_matches hio hends.1 hends.2.1] at h

/-- A checkpoint that can be gone on from. -/
structure Good (io : LoadIO) (c : Buffer) : Prop where
  readable : Readable io c
  same : Matches c
  fits : extent io c ≤ io.maxSize

theorem Good.of_same (hstats : 0 ≤ io.statsSize) (h : Good io c)
    (hs : Same (extent io c) b c) : Good io b ∧ hdrTimestamp b = hdrTimestamp c ∧ trailerOffset b = trailerOffset c := by
  obtain ⟨⟨hhdr, h0, htrailer⟩, hmatch, hfits⟩ := h
  have hext : trailerOffset c + 8 ≤ extent io c := by
    unfold extent trailerSize
    omega
  have hstamp : hdrTimestamp b = hdrTimestamp c := hs.word (Int.le_refl 0) (by omega)
  have hoff : trailerOffset b = trailerOffset c := by
    unfold trailerOffset
    rw [hs.int (by decide) (by omega)]
  have hword : word b (trailerOffset c) = word c (trailerOffset c) := hs.word h0 (by omega)
  refine ⟨⟨⟨hhdr, ?_, ?_⟩, ?_, ?_⟩, hstamp, hoff⟩
  · rw [hoff]
    exact h0
  · rw [hoff]
    exact htrailer
  · unfold Matches
    rw [hoff, hstamp, hword]
    exact hmatch
  · unfold extent
    rw [hoff]
    exact hfits

theorem Good.loads (hio : ReadsWell io) (h : Good io (areas area)) (hpick : Picks io areas area) :
    ∃ r, Loads io areas r ∧ attachCheckPoint io area (areas area) = .ok r := by
  obtain ⟨r, hr⟩ := (attachCheckPoint_iff io area (areas area)).mpr (fun _ => h.fits)
  refine ⟨r, (loads_settle_iff hio).mpr ⟨area, hpick, fun hretry => hretry.2.2.1 h.same, ?_⟩, hr⟩
  rw [settle_of_matches hio h.readable h.same, hr]

/-! ## Histories -/

def CheckPointCall.Writes (call : CheckPointCall) : Prop := call.segStatus = .success ∧ 0 ≤ call.size

/-- The timestamp does not start again from 0. -/
def CheckPointCall.Fresh (call : CheckPointCall) (cp : LfsCheckPoint) : Prop :=
  cp.timestamp + call.otherStamps + 1 < 4294967296

/-- Where the trailer goes there is not its timestamp, if only the first `blocks` blocks are written. -/
def CheckPointCall.Noticed (io : LoadIO) (call : CheckPointCall) (blocks : Int) (lfs : LoadedLfs) : Prop :=
  word (call.write io blocks lfs lfs.checkPoint.nextArea) (call.size + hdrSize) ≠ call.timestamp lfs.checkPoint

/-- A file system is loaded and checkpointed: the state, and the last checkpoint completed. Timestamps do not
    restart; a failed write does not pass for a checkpoint. -/
inductive History (io : LoadIO) : LoadedLfs → Buffer → Prop where
  | load {areas : Bool → Buffer} {r : Load} {area : Bool} {b : Buffer} {cp : LfsCheckPoint} :
      Loads io areas r → r.source = some (area, b) → r.checkPoint = some cp → hdrTimestamp b + 1 < 4294967296 →
      History io ⟨cp, areas⟩ b
  | skip {lfs lfs' : LoadedLfs} {last : Buffer} {call : CheckPointCall} {status : ReturnStatus} :
      History io lfs last → ¬call.Writes → checkPointFileSystem io call lfs = .ok (status, lfs') →
      History io lfs' last
  | complete {lfs lfs' : LoadedLfs} {last : Buffer} {call : CheckPointCall} :
      History io lfs last → call.Writes → call.Fresh lfs.checkPoint → call.writeStatus = .success →
      checkPointFileSystem io call lfs = .ok (.success, lfs') → History io lfs' (call.image io lfs.checkPoint)
  | fail {lfs lfs' : LoadedLfs} {last : Buffer} {call : CheckPointCall} {status : ReturnStatus} :
      History io lfs last → call.Writes → call.Fresh lfs.checkPoint → call.writeStatus ≠ .success →
      (call.written ≤ 0 ∨ call.Noticed io call.written lfs) →
      checkPointFileSystem io call lfs = .ok (status, lfs') → History io lfs' last

/-- Between two calls the area not written next has the last checkpoint, and the load would take it. -/
structure Standing (io : LoadIO) (lfs : LoadedLfs) (last : Buffer) : Prop where
  maxSize : lfs.checkPoint.maxSize = io.maxSize
  good : Good io last
  held : Same (extent io last) (lfs.areas (!lfs.checkPoint.nextArea)) last
  stamp : hdrTimestamp last ≤ lfs.checkPoint.timestamp
  picked : Picks io lfs.areas (!lfs.checkPoint.nextArea)

/-- What a super block fixes sensibly. -/
structure SoundLayout (io : LoadIO) : Prop where
  stats : 0 ≤ io.statsSize
  block : hdrSize ≤ io.params.blockSize
  maxSize : io.maxSize < 2147483648

theorem newest_of_lt (h : hdrTimestamp (areas (!area)) < hdrTimestamp (areas area)) : newest areas = area := by
  cases area with
  | false => exact decide_eq_false (Nat.lt_asymm h)
  | true => exact decide_eq_true h

/-! ## What is written -/

variable {call : CheckPointCall}

theorem image_facts (hl : SoundLayout io) (hw : call.Writes)
    (hfit : call.bytes io ≤ io.maxSize) (cp : LfsCheckPoint) :
    hdrTimestamp (call.image io cp) = call.timestamp cp ∧ trailerOffset (call.image io cp) = call.size + hdrSize ∧
      Good io (call.image io cp) := by
  obtain ⟨-, hsize⟩ := hw
  have hstats := hl.stats
  have hmax := hl.maxSize
  have hlt : call.timestamp cp < 4294967296 := Nat.mod_lt _ (by decide)
  unfold CheckPointCall.bytes at hfit
  have hbase : ∀ k : Int, k < call.size + hdrSize + trailerSize → call.image io cp k =
      setWord (call.size + hdrSize + 4) 0 (setWord (call.size + hdrSize) (call.timestamp cp)
        (setWord 84 call.seconds (setWord 8 1 (setInt 4 (call.size + hdrSize + trailerSize)
          (setWord 0 (call.timestamp cp) (fun k => if k < hdrSize then cp.buffer k else call.regions k)))))) k :=
    fun k hk => if_neg (fun h => by omega)
  unfold hdrSize trailerSize at *
  have hstamp : hdrTimestamp (call.image io cp) = call.timestamp cp := by
    unfold hdrTimestamp
    rw [word_congr (fun k _ hk => hbase k (by omega)), word_setWord_of_disjoint (by omega),
      word_setWord_of_disjoint (by omega), word_setWord_of_disjoint (by omega), word_setWord_of_disjoint (by omega)]
    unfold setInt
    rw [word_setWord_of_disjoint (by omega), word_setWord_self hlt]
  have hoff : trailerOffset (call.image io cp) = call.size + 92 := by
    have hint : int (call.image io cp) 4 = call.size + 92 + 8 := by
      rw [int_congr (fun k _ hk => hbase k (by omega))]
      have hkeep : ∀ i v b, (i : Int) + 4 ≤ 4 ∨ 8 ≤ i → int (setWord i v b) 4 = int b 4 := by
        intro i v b hi
        unfold int
        rw [word_setWord_of_disjoint (by omega)]
      rw [hkeep _ _ _ (by omega), hkeep _ _ _ (by omega), hkeep _ _ _ (by omega), hkeep _ _ _ (by omega),
        int_setInt_self (by omega) (by omega)]
    unfold trailerOffset trailerSize
    omega
  have htrailer : word (call.image io cp) (call.size + 92) = call.timestamp cp := by
    rw [word_congr (fun k _ hk => hbase k (by omega)), word_setWord_of_disjoint (by omega), word_setWord_self hlt]
  refine ⟨hstamp, hoff, ⟨?_, ?_, ?_⟩, ?_, ?_⟩
  · unfold hdrSize
    omega
  · omega
  · omega
  · unfold Matches
    rw [hstamp, hoff, htrailer]
  · unfold extent trailerSize
    omega

theorem blocksToBytes_bytesToBlocks (p : SuperBlock) (bytes : Int) : bytes ≤ p.blocksToBytes (p.bytesToBlocks bytes) := by
  have hpos : (0 : Int) < 2 ^ p.blockSizeShift := Int.pow_pos (by decide)
  unfold SuperBlock.blocksToBytes SuperBlock.bytesToBlocks SuperBlock.blockSize
  rw [Int.shiftLeft_eq, Int.shiftRight_eq_div_pow]
  push_cast
  have hdiv := Int.lt_ediv_add_one_mul_self (bytes + (2 ^ p.blockSizeShift - 1)) hpos
  rw [Int.add_mul] at hdiv
  omega

variable {blocks : Int} {p : SuperBlock}

theorem blocksToBytes_pos (h : 0 < blocks) : p.blockSize ≤ p.blocksToBytes blocks := by
  have hpos : (0 : Int) < 2 ^ p.blockSizeShift := Int.pow_pos (by decide)
  unfold SuperBlock.blocksToBytes SuperBlock.blockSize
  rw [Int.shiftLeft_eq]
  have hle : 1 * (2 : Int) ^ p.blockSizeShift ≤ blocks * 2 ^ p.blockSizeShift :=
    Int.mul_le_mul_of_nonneg_right h (Int.le_of_lt hpos)
  omega

theorem blocksToBytes_nonpos (h : blocks ≤ 0) : p.blocksToBytes blocks ≤ 0 := by
  have hpos : (0 : Int) < 2 ^ p.blockSizeShift := Int.pow_pos (by decide)
  unfold SuperBlock.blocksToBytes
  rw [Int.shiftLeft_eq]
  exact Int.mul_nonpos_of_nonpos_of_nonneg h (Int.le_of_lt hpos)

theorem write_next (io : LoadIO) (call : CheckPointCall) (blocks : Int) (lfs : LoadedLfs) :
    call.write io blocks lfs lfs.checkPoint.nextArea = overwrite (io.params.blocksToBytes blocks)
      (call.image io lfs.checkPoint) (lfs.areas lfs.checkPoint.nextArea) := by
  exact Function.update_self _ _ _

theorem write_other (io : LoadIO) (call : CheckPointCall) (blocks : Int) (lfs : LoadedLfs) :
    call.write io blocks lfs (!lfs.checkPoint.nextArea) = lfs.areas (!lfs.checkPoint.nextArea) := by
  exact Function.update_of_ne (by simp) _ _

variable {lfs : LoadedLfs} {cp : LfsCheckPoint}

theorem write_nothing (h : blocks ≤ 0) (n : Int) :
    Same n (call.write io blocks lfs lfs.checkPoint.nextArea) (lfs.areas lfs.checkPoint.nextArea) := by
  intro k h0 _
  have hn := blocksToBytes_nonpos (p := io.params) h
  rw [write_next, overwrite_of_le (by omega)]

theorem write_header (hl : SoundLayout io) (h : 0 < blocks) : Same hdrSize (call.write io blocks lfs lfs.checkPoint.nextArea) (call.image io lfs.checkPoint) := by
  have hn := blocksToBytes_pos (p := io.params) h
  have hb := hl.block
  rw [write_next]
  exact same_overwrite (by omega) _ _

theorem write_all (hext : extent io (call.image io lfs.checkPoint) = call.bytes io) :
    Same (extent io (call.image io lfs.checkPoint)) (call.write io (call.blocks io) lfs lfs.checkPoint.nextArea)
      (call.image io lfs.checkPoint) := by
  rw [write_next, hext]
  exact same_overwrite (blocksToBytes_bytesToBlocks io.params (call.bytes io)) _ _

/-! ## Between two calls -/

theorem standing_load (hio : ReadsWell io) (hr : Loads io areas r) (hs : r.source = some (area, b)) (hc : r.checkPoint = some cp)
    (hfresh : hdrTimestamp b + 1 < 4294967296) : Standing io ⟨cp, areas⟩ b := by
  obtain ⟨area', hpick, -, hsettle⟩ := (loads_settle_iff hio).mp hr
  obtain ⟨hread, hmatch, hattach⟩ := settle_ok hio hsettle
  have hsource := attachCheckPoint_source hattach
  rw [hs, Option.some.injEq, Prod.mk.injEq] at hsource
  obtain ⟨rfl, rfl⟩ := hsource
  unfold attachCheckPoint at hattach
  simp only at hattach
  split at hattach
  · rw [← Except.ok.inj hattach] at hc
    exact absurd hc (by simp)
  · split at hattach
    · exact absurd hattach (by simp)
    · next hstats =>
      split at hattach
      · rw [← Except.ok.inj hattach] at hc
        exact absurd hc (by simp)
      · rw [← Except.ok.inj hattach, Option.some.injEq] at hc
        rw [← hc]
        refine ⟨rfl, ⟨hread, hmatch, Int.not_lt.mp hstats⟩, ?_, ?_, ?_⟩
        · rw [Bool.not_not]
          exact fun _ _ _ => rfl
        · change _ ≤ (hdrTimestamp (areas area) + 1) % 4294967296
          omega
        · rw [Bool.not_not]
          exact hpick

variable {last : Buffer}

theorem Standing.other (hl : SoundLayout io) (h : Standing io lfs last) :
    Good io (lfs.areas (!lfs.checkPoint.nextArea)) ∧
      hdrTimestamp (lfs.areas (!lfs.checkPoint.nextArea)) = hdrTimestamp last := by
  obtain ⟨hgood, hstamp, -⟩ := h.good.of_same hl.stats h.held
  exact ⟨hgood, hstamp⟩

theorem CheckPointCall.Fresh.timestamp (h : call.Fresh cp) :
    call.timestamp cp = cp.timestamp + call.otherStamps + 1 := Nat.mod_eq_of_lt h

theorem write_facts (hl : SoundLayout io) (lfs : LoadedLfs) (hw : call.Writes)
    (hfit : call.bytes io ≤ io.maxSize) (hb : 0 < blocks) :
    hdrTimestamp (call.write io blocks lfs lfs.checkPoint.nextArea) = call.timestamp lfs.checkPoint ∧
      trailerOffset (call.write io blocks lfs lfs.checkPoint.nextArea) = call.size + hdrSize := by
  obtain ⟨hstamp, hoff, -⟩ := image_facts hl hw hfit lfs.checkPoint
  have hhdr : Same hdrSize (call.write io blocks lfs lfs.checkPoint.nextArea) (call.image io lfs.checkPoint) :=
    write_header hl hb
  refine ⟨?_, ?_⟩
  · rw [← hstamp]
    exact hhdr.word (Int.le_refl 0) (by decide)
  · rw [← hoff]
    unfold trailerOffset
    rw [hhdr.int (by decide) (by decide)]

theorem Standing.newest_write (hl : SoundLayout io) (h : Standing io lfs last) (hw : call.Writes) (hfresh : call.Fresh lfs.checkPoint)
    (hfit : call.bytes io ≤ io.maxSize) (hb : 0 < blocks) :
    newest (call.write io blocks lfs) = lfs.checkPoint.nextArea := by
  have hstamp := h.stamp
  refine newest_of_lt ?_
  rw [write_other, (h.other hl).2]
  rw [(write_facts hl lfs hw hfit hb).1, hfresh.timestamp]
  omega

theorem retries_of_noticed (hio : ReadsWell io) (hl : SoundLayout io) (hw : call.Writes) (hfit : call.bytes io ≤ io.maxSize) (hb : 0 < blocks)
    (hgo : io.goesOn = true) (hnot : call.Noticed io blocks lfs) :
    Retries io (call.write io blocks lfs) lfs.checkPoint.nextArea := by
  obtain ⟨-, hoff, hgood⟩ := image_facts hl hw hfit lfs.checkPoint
  obtain ⟨hstamp, hoff'⟩ := write_facts hl lfs hw hfit hb
  have hread := hgood.readable
  unfold Readable at hread
  rw [hoff] at hread
  refine ⟨(hio _).2, ?_, fun hmatch => ?_, hgo⟩
  · unfold Readable
    rw [hoff']
    exact hread
  · unfold Matches at hmatch
    rw [hoff', hstamp] at hmatch
    exact hnot hmatch.symm

theorem picks_of_same {areas' : Bool → Buffer} (h : ∀ a n, Same n (areas' a) (areas a)) (hpick : Picks io areas area) : Picks io areas' area := by
  have hword : ∀ a i, 0 ≤ i → word (areas' a) i = word (areas a) i :=
    fun a i hi => (h a (i + 4)).word hi (Int.le_refl _)
  have hoff : ∀ a, trailerOffset (areas' a) = trailerOffset (areas a) := by
    intro a
    unfold trailerOffset
    rw [(h a 8).int (by decide) (by decide)]
  have hnew : newest areas' = newest areas := by
    unfold newest hdrTimestamp
    rw [hword _ _ (Int.le_refl 0), hword _ _ (Int.le_refl 0)]
  have hretry : ∀ a, Retries io areas a → Retries io areas' a := by
    rintro a ⟨h1, h2, h3, h4⟩
    refine ⟨h1, ?_, fun hm => h3 ?_, h4⟩
    · unfold Readable
      rw [hoff]
      exact h2
    · unfold Matches hdrTimestamp at hm ⊢
      rw [hoff, hword _ _ (Int.le_refl 0), hword _ _ h2.2.1] at hm
      exact hm
  unfold Picks
  rw [hnew]
  exact hpick.imp_right (fun ⟨h1, h2⟩ => ⟨h1, hretry _ h2⟩)

theorem Standing.picks_write (hio : ReadsWell io) (hl : SoundLayout io) (h : Standing io lfs last) (hw : call.Writes) (hfresh : call.Fresh lfs.checkPoint)
    (hfit : call.bytes io ≤ io.maxSize) (hnot : blocks ≤ 0 ∨ io.goesOn = true ∧ call.Noticed io blocks lfs) :
    Picks io (call.write io blocks lfs) (!lfs.checkPoint.nextArea) := by
  by_cases hb : 0 < blocks
  · obtain ⟨hgo, hno⟩ := hnot.resolve_left (by omega)
    refine .inr ⟨?_, ?_⟩
    · rw [Bool.not_not]
      exact h.newest_write hl hw hfresh hfit hb
    · rw [Bool.not_not]
      exact retries_of_noticed hio hl hw hfit hb hgo hno
  · refine picks_of_same (fun a n => ?_) h.picked
    by_cases ha : a = lfs.checkPoint.nextArea
    · rw [ha]
      exact write_nothing (by omega) n
    · rw [show a = !lfs.checkPoint.nextArea from Bool.eq_not.mpr ha, write_other]
      exact fun _ _ _ => rfl

variable {lfs' : LoadedLfs} {status : ReturnStatus}

theorem checkPointFileSystem_writes (hw : call.Writes) (h : checkPointFileSystem io call lfs = .ok (status, lfs')) :
    call.bytes io ≤ lfs.checkPoint.maxSize ∧
      ((call.writeStatus = .success ∧ lfs' = ⟨{ lfs.checkPoint with
          timestamp := call.timestamp lfs.checkPoint, nextArea := !lfs.checkPoint.nextArea
          buffer := call.header io lfs.checkPoint }, call.write io (call.blocks io) lfs⟩) ∨
        (call.writeStatus ≠ .success ∧ io.goesOn = true ∧ lfs' = ⟨{ lfs.checkPoint with
          timestamp := call.timestamp lfs.checkPoint, buffer := call.header io lfs.checkPoint },
          call.write io call.written lfs⟩)) := by
  unfold checkPointFileSystem at h
  have hwrites : ¬(call.segStatus ≠ .success ∨ call.size < 0) := by
    rintro (hs | hs)
    · exact hs hw.1
    · exact absurd hs (by have := hw.2; omega)
  simp only [if_neg hwrites] at h
  by_cases hfit : call.bytes io > lfs.checkPoint.maxSize
  · rw [if_pos hfit] at h
    exact absurd h (by simp)
  · rw [if_neg hfit] at h
    refine ⟨by omega, ?_⟩
    by_cases hs : call.writeStatus = .success
    · rw [if_pos hs] at h
      exact .inl ⟨hs, (Prod.mk.inj (Except.ok.inj h)).2.symm⟩
    · rw [if_neg hs] at h
      unfold LoadIO.lfsError at h
      by_cases hgo : io.goesOn = true
      · rw [if_pos hgo] at h
        exact .inr ⟨hs, hgo, (Prod.mk.inj (Except.ok.inj h)).2.symm⟩
      · rw [if_neg hgo] at h
        exact absurd h (by simp)

theorem Standing.complete (hl : SoundLayout io) (h : Standing io lfs last) (hw : call.Writes)
    (hfresh : call.Fresh lfs.checkPoint) (hs : call.writeStatus = .success) (hrun : checkPointFileSystem io call lfs = .ok (status, lfs')) :
    Standing io lfs' (call.image io lfs.checkPoint) := by
  obtain ⟨hfit, hcase⟩ := checkPointFileSystem_writes hw hrun
  rw [h.maxSize] at hfit
  obtain ⟨hstamp, hoff, hgood⟩ := image_facts hl hw hfit lfs.checkPoint
  obtain ⟨-, rfl⟩ := hcase.resolve_right (fun hc => hc.1 hs)
  have hext : extent io (call.image io lfs.checkPoint) = call.bytes io := by
    unfold extent CheckPointCall.bytes
    rw [hoff]
  have hblocks : 0 < call.blocks io := by
    by_contra hle
    have hbytes := blocksToBytes_bytesToBlocks io.params (call.bytes io)
    have hn := blocksToBytes_nonpos (p := io.params) (Int.not_lt.mp hle)
    have hpos : hdrSize ≤ call.bytes io := by
      have hstats := hl.stats
      have hsize := hw.2
      unfold CheckPointCall.bytes trailerSize
      omega
    unfold CheckPointCall.blocks hdrSize at *
    omega
  refine ⟨h.maxSize, hgood, ?_, Nat.le_of_eq hstamp, ?_⟩
  · rw [Bool.not_not]
    exact write_all hext
  · rw [Bool.not_not]
    exact .inl (h.newest_write hl hw hfresh hfit hblocks)

theorem Standing.fail (hio : ReadsWell io) (hl : SoundLayout io) (h : Standing io lfs last) (hw : call.Writes) (hfresh : call.Fresh lfs.checkPoint)
    (hs : call.writeStatus ≠ .success) (hnot : call.written ≤ 0 ∨ call.Noticed io call.written lfs)
    (hrun : checkPointFileSystem io call lfs = .ok (status, lfs')) : Standing io lfs' last := by
  obtain ⟨hfit, hcase⟩ := checkPointFileSystem_writes hw hrun
  rw [h.maxSize] at hfit
  obtain ⟨-, hgo, rfl⟩ := hcase.resolve_left (fun hc => hs hc.1)
  refine ⟨h.maxSize, h.good, ?_, ?_, h.picks_write hio hl hw hfresh hfit (hnot.imp_right (fun hn => ⟨hgo, hn⟩))⟩
  · change Same _ (call.write io call.written lfs (!lfs.checkPoint.nextArea)) _
    rw [write_other]
    exact h.held
  · have hle := h.stamp
    have hnew := hfresh.timestamp
    change _ ≤ call.timestamp lfs.checkPoint
    omega

theorem standing_of_history (hio : ReadsWell io) (hl : SoundLayout io) (h : History io lfs last) : Standing io lfs last := by
  induction h with
  | load hr hs hc hfresh => exact standing_load hio hr hs hc hfresh
  | @skip lfs lfs' last call status _ hw hrun ih =>
    have hskip : call.segStatus ≠ .success ∨ call.size < 0 := by
      by_cases hstatus : call.segStatus = .success
      · exact .inr (Int.not_le.mp (fun hsize => hw ⟨hstatus, hsize⟩))
      · exact .inl hstatus
    unfold checkPointFileSystem at hrun
    simp only [if_pos hskip] at hrun
    rw [← (Prod.mk.inj (Except.ok.inj hrun)).2]
    exact ih
  | complete _ hw hfresh hs hrun ih => exact ih.complete hl hw hfresh hs hrun
  | fail _ hw hfresh hs hnot hrun ih => exact ih.fail hio hl hw hfresh hs hnot hrun

/-! ## The crash -/

theorem loadsFrom_of_picks (hio : ReadsWell io) (hl : SoundLayout io) (hgood : Good io c) (hheld : Same (extent io c) (areas area) c) (hpick : Picks io areas area) :
    LoadsFrom io areas c := by
  obtain ⟨hgood', -, -⟩ := hgood.of_same hl.stats hheld
  obtain ⟨r, hr, hattach⟩ := hgood'.loads hio hpick
  exact ⟨area, areas area, r, hr, hattach, hheld⟩

theorem loadsFrom_iff (hio : ReadsWell io) (hl : SoundLayout io) (h : Standing io lfs last) (hw : call.Writes) (hfresh : call.Fresh lfs.checkPoint)
    (hfit : call.bytes io ≤ io.maxSize) (blocks : Int) :
    LoadsFrom io (call.write io blocks lfs) (call.image io lfs.checkPoint) ∨
        LoadsFrom io (call.write io blocks lfs) last ↔
      blocks ≤ 0 ∨ Same (call.bytes io) (call.write io blocks lfs lfs.checkPoint.nextArea)
        (call.image io lfs.checkPoint) ∨ io.goesOn = true ∧ call.Noticed io blocks lfs := by
  obtain ⟨hstamp, hoff, hgood⟩ := image_facts hl hw hfit lfs.checkPoint
  have hext : extent io (call.image io lfs.checkPoint) = call.bytes io := by
    unfold extent CheckPointCall.bytes
    rw [hoff]
  have hlast : ∀ areas, areas = call.write io blocks lfs → Picks io areas (!lfs.checkPoint.nextArea) →
      LoadsFrom io areas last := by
    rintro areas rfl hpick
    refine loadsFrom_of_picks hio hl h.good ?_ hpick
    rw [write_other]
    exact h.held
  constructor
  · intro hfrom
    by_contra hno
    rw [not_or, not_or] at hno
    obtain ⟨hb, hwhole, hnot⟩ := hno
    have hb' : 0 < blocks := by omega
    have hnew := h.newest_write hl hw hfresh hfit hb'
    obtain ⟨hts, htrailer⟩ := write_facts hl lfs hw hfit hb'
    -- what the load went on from is an area it picked
    have hpicked : ∀ c, LoadsFrom io (call.write io blocks lfs) c → ∃ area,
        Picks io (call.write io blocks lfs) area ∧ Same (extent io c) (call.write io blocks lfs area) c := by
      rintro c ⟨area, b, r, hr, hattach, hsame⟩
      obtain ⟨area', hpick, -, hsettle⟩ := (loads_settle_iff hio).mp hr
      have hsource := attachCheckPoint_source (settle_ok hio hsettle).2.2
      rw [attachCheckPoint_source hattach, Option.some.injEq, Prod.mk.injEq] at hsource
      obtain ⟨rfl, rfl⟩ := hsource
      exact ⟨area, hpick, hsame⟩
    have hnext : ∀ area, Picks io (call.write io blocks lfs) area → area = lfs.checkPoint.nextArea := by
      rintro area (hfirst | ⟨hsecond, -, -, hmatch, hgo⟩)
      · rw [← hfirst, hnew]
      · rw [← hsecond, hnew] at hmatch
        unfold Matches at hmatch
        rw [hts, htrailer] at hmatch
        exact absurd ⟨hgo, fun hsame => hmatch hsame.symm⟩ hnot
    rcases hfrom with hfrom | hfrom
    · obtain ⟨area, hpick, hsame⟩ := hpicked _ hfrom
      rw [hnext area hpick, hext] at hsame
      exact hwhole hsame
    · obtain ⟨area, hpick, hsame⟩ := hpicked _ hfrom
      rw [hnext area hpick] at hsame
      obtain ⟨-, hold, -⟩ := h.good.of_same hl.stats hsame
      have hle := h.stamp
      have hgt := hfresh.timestamp
      omega
  · rintro (hb | hwhole | hnot)
    · exact .inr (hlast _ rfl (h.picks_write hio hl hw hfresh hfit (.inl hb)))
    · by_cases hb : blocks ≤ 0
      · exact .inr (hlast _ rfl (h.picks_write hio hl hw hfresh hfit (.inl hb)))
      · refine .inl (loadsFrom_of_picks hio hl hgood (by rw [hext]; exact hwhole) (.inl ?_))
        exact h.newest_write hl hw hfresh hfit (by omega)
    · exact .inr (hlast _ rfl (h.picks_write hio hl hw hfresh hfit (.inr hnot)))

/-- A file system with checkpoints of at most two blocks of 512 bytes. -/
def twoBlocks : LoadIO where
  params := ⟨9, 0, 16384, 3, 1, 1, 341, 4096⟩
  maxCheckPointBlocks := 2
  statsSize := 64
  readHdr := fun _ => .success
  readArea := fun _ => .success
  installDomain := fun domainNumber _ => (.success, domainNumber)
  segAttach := fun _ _ _ => .success
  seconds := 0
  spriteID := 1
  goesOn := true

/-- A checkpoint of 200 bytes, with the timestamps it has in front of and behind it. -/
def checkPointOf (front back : Nat) : Buffer := setWord 192 back (setInt 4 200 (setWord 0 front (fun _ => 0)))

/-- A call that adds nothing to the checkpoint. -/
def emptyCall : CheckPointCall where
  cleaner := false
  segStatus := .success
  size := 0
  regions := fun _ => 0
  otherStamps := 0
  seconds := 0
  stats := fun _ => 0
  writeStatus := .success
  written := 1

/-- One checkpoint, and an area that was never written. -/
def oneCheckPoint (area : Bool) : Buffer := if area then checkPointOf 0 0 else checkPointOf 1 1

end SpriteKernel.Lfs
