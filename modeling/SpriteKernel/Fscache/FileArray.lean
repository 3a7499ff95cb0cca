import SpriteKernel.Fscache.FileWrite

/- Whatever is done to a cached file, it is the array of bytes that the same steps make, as long as each
   of them is one that does what it does to an array. -/
namespace SpriteKernel.Fscache

open List
open Bytes Growing Pieces Transition
namespace CachedFile
variable {f g : CachedFile} {l l' : List UInt8} {k offset size : Int} {n : Nat}

/-! ### Reads -/

theorem Refines.readAhead (h : f.Refines l) (hk : 0 ≤ k) : (f.readAhead k).Refines l := by
  have hsize := h.size
  unfold CachedFile.readAhead
  split
  · exact h
  · exact h.fetch hk (by omega)

def toRead (f : CachedFile) (blockNum offset size : Int) : Int :=
  let toRead := if blockOf (offset + size - 1) > blockNum then (blockNum + 1) * fsBlockSize - offset else size
  if toRead > f.lastByte - offset + 1 then f.lastByte - offset + 1 else toRead

theorem readBlock_eq : f.readBlock k offset size =
    ((f.fetch k).1, f.toRead k offset size, bytesFrom (f.fetch k).2.data (offset % fsBlockSize) (f.toRead k offset size).toNat) := rfl

theorem readLoop_beyond (h : f.lastByte < offset) : readLoop n f k offset size = (f, [], size) := by
  cases n with
  | zero => rfl
  | succ n => exact if_neg (by omega)

theorem Refines.bytesFrom_fetch (h : f.Refines l) (hk : 0 ≤ k) (hko : k * fsBlockSize ≤ offset)
    (hto : offset + n ≤ (k + 1) * fsBlockSize) (hin : offset + n ≤ l.length) (hlt : offset < (k + 1) * fsBlockSize) :
    bytesFrom (f.fetch k).2.data (offset % fsBlockSize) n = readAt l offset.toNat n := by
  have h0 : 0 ≤ offset := by
    unfold fsBlockSize at *
    omega
  have hlen : (bytesFrom (f.fetch k).2.data (offset % fsBlockSize) n).length = n := length_bytesFrom _ _ _
  apply ext_getD (z := 0)
  · rw [hlen, length_readAt]
    omega
  · intro i hi
    rw [hlen] at hi
    have hmod : offset % fsBlockSize + i < fsBlockSize ∧ 0 ≤ offset % fsBlockSize + i ∧
        k * fsBlockSize + (offset % fsBlockSize + i) = offset + i := by
      unfold fsBlockSize at *
      omega
    rw [getD_readAt hi, getD_eq_getElem _ _ (by rw [hlen]; exact hi)]
    simp only [bytesFrom, getElem_map, getElem_range]
    rw [h.fetch_data hk hmod.2.1 hmod.1 (by omega), hmod.2.2]
    unfold byteAt
    congr 1
    omega

theorem Refines.readLoop_refines (h : f.Refines l) (hk : 0 ≤ k) (hko : (l.length : Int) ≤ offset ∨ k * fsBlockSize ≤ offset)
    (hn : n = (blockOf (offset + size - 1) - k + 1).toNat) : (readLoop n f k offset size).1.Refines l := by
  induction n generalizing f k offset size with
  | zero => exact h
  | succ n ih =>
    have hsize := h.size
    unfold readLoop
    split
    next hin =>
      have hfetch : (f.fetch k).1.Refines l := h.fetch hk (by omega)
      rw [readBlock_eq]
      have hsum : offset + f.toRead k offset size + (size - f.toRead k offset size) = offset + size := by omega
      cases n with
      | zero => exact hfetch
      | succ n =>
        refine ih hfetch (by omega) ?_ (by rw [hsum]; omega)
        -- there is another block, so this one is read to its end, or to that of the file
        have hmore : blockOf (offset + size - 1) > k := by omega
        unfold toRead
        dsimp only
        rw [if_pos hmore]
        split
        · exact .inl (by omega)
        · exact .inr (by omega)
    next => exact h

theorem Refines.readLoop (h : f.Refines l) (hk : 0 ≤ k) (hko : k * fsBlockSize ≤ offset) (hoff : offset < (k + 1) * fsBlockSize)
    (hpos : 0 < size) (hn : n = (blockOf (offset + size - 1) - k + 1).toNat) (hfits : offset + size ≤ 4294967296) :
    (readLoop n f k offset size).2.1 = readAt l offset.toNat size.toNat ∧
      (readLoop n f k offset size).2.2 = size - (readAt l offset.toNat size.toNat).length := by
  induction n generalizing f k offset size with
  | zero =>
    rw [blockOf_eq (by unfold fsBlockSize at *; omega) (by omega)] at hn
    unfold fsBlockSize at *
    omega
  | succ n ih =>
    have hsize := h.size
    have h0 : 0 ≤ offset := by
      unfold fsBlockSize at *
      omega
    have hlast : blockOf (offset + size - 1) = (offset + size - 1) / fsBlockSize := blockOf_eq (by omega) (by omega)
    unfold CachedFile.readLoop
    split
    next hin =>
      have hfetch : (f.fetch k).1.Refines l := h.fetch hk (by omega)
      rw [readBlock_eq]
      dsimp only
      obtain ⟨w, hw⟩ : ∃ w, w = f.toRead k offset size := ⟨_, rfl⟩
      rw [← hw]
      unfold toRead at hw
      dsimp only at hw
      have hwpos : 0 < w ∧ w ≤ size ∧ offset + w ≤ (k + 1) * fsBlockSize ∧ offset + w ≤ l.length := by
        rw [hlast] at hw
        unfold fsBlockSize at *
        split at hw <;> split at hw <;> omega
      obtain ⟨hw0, hws, hto, hwl⟩ := hwpos
      have hbytes : bytesFrom (f.fetch k).2.data (offset % fsBlockSize) w.toNat = readAt l offset.toNat w.toNat :=
        h.bytesFrom_fetch hk hko (by omega) (by omega) hoff
      have hwlen : (readAt l offset.toNat w.toNat).length = w.toNat := by
        rw [length_readAt]
        omega
      have htwo : readAt l offset.toNat size.toNat =
          readAt l offset.toNat w.toNat ++ readAt l (offset + w).toNat (size - w).toNat := by
        rw [show size.toNat = w.toNat + (size - w).toNat by omega, readAt_add, show offset.toNat + w.toNat = (offset + w).toNat by omega]
      rw [hbytes, htwo, length_append, hwlen]
      by_cases hend : offset + w = l.length
      · -- this was the last byte of the file
        rw [readLoop_beyond (by rw [fetch_lastByte]; omega), readAt_of_le (o := (offset + w).toNat) (by omega)]
        refine ⟨rfl, ?_⟩
        show size - w = _
        rw [length_nil]
        omega
      · by_cases hmore : w = size
        · -- this was the last block
          obtain rfl : n = 0 := by
            rw [hlast] at hn hw
            unfold fsBlockSize at *
            split at hw <;> split at hw <;> omega
          subst hmore
          refine ⟨?_, ?_⟩
          · show _ ++ [] = _
            rw [show (w - w).toNat = 0 by omega]
            rfl
          · show w - w = _
            rw [show (w - w).toNat = 0 by omega]
            show w - w = w - ((w.toNat + 0 : Nat) : Int)
            omega
        · have hwk : offset + w = (k + 1) * fsBlockSize := by
            split at hw <;> split at hw <;> omega
          have hsum : offset + w + (size - w) = offset + size := by omega
          have hstep : (k + 1 + 1) * fsBlockSize = (k + 1) * fsBlockSize + fsBlockSize := by rw [Int.add_mul (k + 1), Int.one_mul]
          have hblock : 0 < fsBlockSize := by decide
          obtain ⟨hrest, hleft⟩ := @ih (f.fetch k).1 (k + 1) (offset + w) (size - w) hfetch (by omega) (by omega) (by omega)
            (by omega) (by rw [hsum]; omega) (by omega)
          rw [hrest, hleft]
          refine ⟨rfl, ?_⟩
          push_cast
          omega
    next hout =>
      rw [readAt_of_le (by omega)]
      exact ⟨rfl, by simp⟩

theorem blockOf_le (h0 : 0 ≤ offset) (hlt : offset < 4294967296) :
    0 ≤ blockOf offset ∧ blockOf offset * fsBlockSize ≤ offset ∧ offset < (blockOf offset + 1) * fsBlockSize := by
  rw [blockOf_eq h0 hlt]
  unfold fsBlockSize
  omega

theorem Refines.read_refines (h : f.Refines l) (offset len : Nat) : (f.read offset len).1.Refines l := by
  have hsize := h.size
  have hfits := h.fits
  unfold CachedFile.read
  split
  · exact h
  · obtain ⟨hk, hko, -⟩ := @blockOf_le offset (by omega) (by omega)
    exact h.readLoop_refines hk (.inr hko) rfl

/-- A read of no bytes at the beginning takes the last block for the one before the first, and reads them all. -/
theorem Refines.read_nothing (h : f.Refines l) (hne : 0 < l.length) : (f.read 0 0).2.1 ≠ [] := by
  have hsize := h.size
  unfold CachedFile.read
  rw [if_neg (by omega)]
  obtain ⟨n, hn⟩ : ∃ n, (blockOf (0 + 0 - 1) - blockOf 0 + 1).toNat = n + 1 := ⟨1048575, by decide⟩
  dsimp only
  rw [hn]
  unfold CachedFile.readLoop
  rw [if_pos (by omega), readBlock_eq]
  have hpos : 0 < (f.toRead (blockOf 0) 0 0).toNat := by
    have hmore : blockOf (0 + 0 - 1) > blockOf 0 := by decide
    have hblock : (blockOf 0 + 1) * fsBlockSize = 4096 := by decide
    unfold toRead
    dsimp only
    split <;> omega
  intro hnil
  have hlen := congrArg List.length hnil
  rw [length_append, length_bytesFrom, length_nil] at hlen
  omega

/-- A read inside the file gets what the array has, unless it is one of no bytes at the beginning. -/
theorem Refines.read {offset len : Nat} (h : f.Refines l) (hin : offset < l.length) (hlen : len < 2147483648) :
    (f.read offset len).2.1 = readAt l offset len ∧ (f.read offset len).2.2 = min len (l.length - offset) ↔
      ¬ (offset = 0 ∧ len = 0) := by
  have hsize := h.size
  have hfits := h.fits
  refine ⟨fun ⟨hbytes, _⟩ ⟨ho, hl⟩ => ?_, fun hnot => ?_⟩
  · subst ho hl
    exact h.read_nothing hin hbytes
  obtain ⟨hk, hko, hoff⟩ := @blockOf_le offset (by omega) (by omega)
  have hmin : ((min len (l.length - offset) : Nat) : Int) = (readAt l offset len).length := by rw [length_readAt]
  unfold CachedFile.read
  rw [if_neg (by omega)]
  dsimp only
  obtain hzero | hpos := Nat.eq_zero_or_pos len
  · subst hzero
    have hlast : blockOf (offset + (0 : Nat) - 1) = (offset - 1 : Int) / fsBlockSize := by
      exact blockOf_eq (by omega) (by omega)
    have hfirst : blockOf offset = (offset : Int) / fsBlockSize := blockOf_eq (by omega) (by omega)
    have hone : (blockOf (offset + (0 : Nat) - 1) - blockOf offset + 1).toNat ≤ 1 ∧ ¬ blockOf (offset + (0 : Nat) - 1) > blockOf offset := by
      rw [hlast, hfirst]
      unfold fsBlockSize
      omega
    obtain ⟨n, hn⟩ : ∃ n, n = (blockOf (offset + (0 : Nat) - 1) - blockOf offset + 1).toNat := ⟨_, rfl⟩
    rw [← hn] at hone ⊢
    match n, hone with
    | 0, _ => exact ⟨rfl, rfl⟩
    | 1, hone =>
      have hread : f.toRead (blockOf offset) offset (0 : Nat) = 0 := by
        unfold toRead
        rw [if_neg hone.2, if_neg (by omega)]
        rfl
      unfold CachedFile.readLoop
      rw [if_pos (by omega), readBlock_eq, hread]
      exact ⟨rfl, rfl⟩
  · obtain ⟨hbytes, hleft⟩ := @Refines.readLoop f l _ offset len _ h hk hko hoff (by omega) rfl (by omega)
    rw [hbytes, hleft, Int.toNat_natCast, Int.toNat_natCast]
    exact ⟨rfl, by omega⟩

/-! ### Runs -/

/-- The file as it is opened: none of it is in the cache, and the backend has all of it. -/
structure Opened (f : CachedFile) (l : List UInt8) : Prop where
  size : f.lastByte + 1 = l.length
  fits : (l.length : Int) < 2147483648
  first : f.firstByte = -1
  empty : ∀ k, f.cache k = none
  stored : ∀ k i, 0 ≤ k → 0 ≤ i → i < fsBlockSize → f.blockRead k i = byteAt l (k * fsBlockSize + i)

theorem Opened.refines (h : Opened f l) : f.Refines l := by
  have hnone : ∀ k b, f.cache k ≠ some b := by
    intro k b hb
    rw [h.empty] at hb
    cases hb
  refine ⟨h.size, h.fits, .inl h.first, fun k b hb => ?_, fun k b i hb => ?_, fun k i hk h0 h1 _ => h.stored k i hk h0 h1,
    fun k b hb => ?_⟩
  · exact absurd hb (hnone k b)
  · exact absurd hb (hnone k b)
  · exact absurd hb (hnone k b)

/-- Offsets and lengths are `int`s, and so is where a write ends. -/
def InRange (f : CachedFile) : FileStep → Prop
  | .write append offset _ len _ => (if append then f.lastByte + 1 else offset) + (len : Int) < 2147483648
  | _ => True

/-- Only a write can fail to do what it does to an array. -/
def StepPlain (f : CachedFile) : FileStep → Prop
  | .write append offset _ len _ => f.WritesPlain (if append then f.lastByte + 1 else offset) len
  | _ => True

theorem Refines.step {a : FileStep} (h : f.Refines l) (hp : f.StepPlain a) (hs : f.step a = some g) : g.Refines (arrayStep l a) := by
  cases a with
  | write append offset buffer len frames =>
    cases hs
    exact h.write hp
  | trunc len =>
    cases hs
    exact h.trunc len
  | read offset len =>
    cases hs
    exact h.read_refines offset len
  | readAhead blockNum =>
    cases hs
    exact h.readAhead (by omega)
  | evict blockNum => exact h.evict hs
  | writeBack blockNum => exact h.writeBack hs

theorem Refines.run {s t : CachedFile × List UInt8} (h : s.1.Refines s.2) (hr : Run fileStep (fun s a => s.1.StepPlain a) s t) :
    t.1.Refines t.2 := by
  have hstep : ∀ u a v, u.1.Refines u.2 → u.1.StepPlain a → fileStep u a = some v → v.1.Refines v.2 := by
    intro u a v hu hc hs
    obtain ⟨g, hg, rfl⟩ := Option.map_eq_some_iff.1 hs
    exact hu.step hc hg
  exact hr.invariant hstep h

def IsArray (s : CachedFile × List UInt8) : Prop :=
  s.1.lastByte + 1 = s.2.length ∧ ∀ offset len : Nat, offset < s.2.length → len < 2147483648 →
    (s.1.read offset len).2.1 = readAt s.2 offset len ∧ (s.1.read offset len).2.2 = min len (s.2.length - offset)

def bufferOf (bytes : List UInt8) : Buffer := fun i => bytes.getD i.toNat 0

def emptyFile : CachedFile := ⟨-1, -1, fun _ => none, fun _ => none⟩

theorem opened_emptyFile : Opened emptyFile [] := ⟨rfl, by decide, rfl, fun _ => rfl, fun _ _ _ _ _ => rfl⟩

/-- Three bytes are written, two of them are cut off, and one is written beyond where they were. -/
def cutAndExtended : List FileStep :=
  [.write false 0 (bufferOf [1, 2, 3]) 3 fun _ _ => 0, .trunc 1, .write false 4 (bufferOf [9]) 1 fun _ _ => 0]

instance (f : CachedFile) : (a : FileStep) → Decidable (f.InRange a)
  | .write _ _ _ _ _ => inferInstanceAs (Decidable (_ < _))
  | .trunc _ => .isTrue trivial
  | .read _ _ => .isTrue trivial
  | .readAhead _ => .isTrue trivial
  | .evict _ => .isTrue trivial
  | .writeBack _ => .isTrue trivial

/-- The bytes that were cut off are read again. -/
theorem cut_bytes_read : ¬ ∀ f l s, Opened f l → Run fileStep (fun s a => s.1.InRange a) (f, l) s → IsArray s := by
  intro hall
  have h : ((exec (guarded (fun s a => s.1.InRange a) fileStep) (emptyFile, []) cutAndExtended).any fun s =>
      s.2.length = 5 ∧ (s.1.read 0 5).2.1 = [1, 2, 3, 0, 9] ∧ readAt s.2 0 5 = [1, 0, 0, 0, 9]) = true := by decide +kernel
  obtain ⟨s, hs, hp⟩ := (Option.any_eq_true _ _).1 h
  obtain ⟨hlen, hread, harray⟩ := of_decide_eq_true hp
  have hbytes : (s.1.read 0 5).2.1 = readAt s.2 0 5 :=
    ((hall _ _ s opened_emptyFile (run_of_guarded _ _ _ hs)).2 0 5 (by omega) (by decide)).1
  rw [hread, harray] at hbytes
  exact absurd hbytes (by decide)

/-- A cached file is an array of bytes, where writes are plain and no read of no bytes is at the beginning. -/
theorem file_is_array {s : CachedFile × List UInt8} (h : Opened f l) (hr : Run fileStep (fun s a => s.1.StepPlain a) (f, l) s) :
    s.1.lastByte + 1 = s.2.length ∧ ∀ offset len : Nat, offset < s.2.length → len < 2147483648 →
      ((s.1.read offset len).2.1 = readAt s.2 offset len ∧ (s.1.read offset len).2.2 = min len (s.2.length - offset) ↔
        ¬ (offset = 0 ∧ len = 0)) := by
  have hs : s.1.Refines s.2 := h.refines.run hr
  exact ⟨hs.size, fun offset len hin hlen => hs.read hin hlen⟩

/-- A byte is written beyond the first block, and what is after the second byte is cut off. -/
theorem file_is_array_extended : ∃ s : CachedFile × List UInt8, s.2.length = 2 ∧ s.1.lastByte + 1 = s.2.length ∧
    ((s.1.read 0 4).2.1 = readAt s.2 0 4 ∧ (s.1.read 0 4).2.2 = min 4 (s.2.length - 0)) := by
  have hw : emptyFile.StepPlain (.write false 5000 (bufferOf [7]) 1 fun _ _ => 0) := by
    refine ⟨by decide, fun _ k b i hb => ?_, fun hl => ?_⟩
    · cases hb
    · cases hl
  have h₀ : Run fileStep (fun s a => s.1.StepPlain a) (emptyFile, []) (emptyFile, []) := Run.refl _ _
  have hr := (h₀.snoc hw rfl).snoc (l := .trunc 2) (by trivial) rfl
  obtain ⟨hsize, hread⟩ := file_is_array opened_emptyFile hr
  have hlen : (arrayStep (arrayStep [] (.write false 5000 (bufferOf [7]) 1 fun _ _ => 0)) (.trunc 2)).length = 2 := by decide +kernel
  exact ⟨_, hlen, hsize, (hread 0 4 (by show 0 < List.length _; rw [hlen]; decide) (by decide)).2 (by decide)⟩

end CachedFile
end SpriteKernel.Fscache
