import SpriteKernel.Fscache.FileRefines
import SpriteKernel.Lib.Pieces

/- A write puts its bytes in the array, block by block. Where it begins beyond the end of the file, what
   the cached blocks have between the end and the write must be zeros. -/
namespace SpriteKernel.Fscache

open Function
open Bytes Growing Pieces
namespace CachedFile
variable {f g : CachedFile} {l l' : List UInt8} {k j i w offset size lastFileBlock : Int} {b : CacheBlock} {n : Nat}
  {buffer : Buffer} {frames : Int → Buffer}

/-- Between the end of the file and an offset there are only zeros in the cache. -/
def Tidy (f : CachedFile) (offset : Int) : Prop :=
  ∀ k b i, f.cache k = some b → 0 ≤ i → i < fsBlockSize → f.lastByte < k * fsBlockSize + i → k * fsBlockSize + i < offset →
    b.data i = 0

theorem getD_bytesFrom {m : Nat} (hi : 0 ≤ i) (hlt : i < m) : (bytesFrom buffer 0 m).getD i.toNat 0 = buffer i := by
  rw [List.getD_eq_getElem _ _ (by rw [length_bytesFrom]; omega)]
  simp only [bytesFrom, List.getElem_map, List.getElem_range]
  congr 1
  omega

/-- What an array comes to have when `w` bytes are written to it. -/
structure Wrote (l l' : List UInt8) (offset w : Int) (buffer : Buffer) : Prop where
  length : (l'.length : Int) = if (l.length : Int) < offset + w then offset + w else l.length
  byte : ∀ x, 0 ≤ x → byteAt l' x = if offset ≤ x ∧ x < offset + w then buffer (x - offset) else byteAt l x

theorem wrote_writeAt (h0 : 0 ≤ offset) (hw : 0 < w ∨ w = 0 ∧ offset ≤ l.length) :
    Wrote l (writeAt 0 l offset.toNat (bytesFrom buffer 0 w.toNat)) offset w buffer := by
  obtain hpos | ⟨rfl, hle⟩ := hw
  · have hlen : (bytesFrom buffer 0 w.toNat).length = w.toNat := length_bytesFrom _ _ _
    have hne : bytesFrom buffer 0 w.toNat ≠ [] := by
      intro heq
      rw [heq, List.length_nil] at hlen
      omega
    refine ⟨?_, fun x hx => ?_⟩
    · rw [length_writeAt hne, hlen]
      split <;> omega
    · unfold byteAt
      rw [getD_writeAt hne, hlen]
      by_cases hin : offset ≤ x ∧ x < offset + w
      · rw [if_pos hin, if_pos (by omega), show x.toNat - offset.toNat = (x - offset).toNat by omega, getD_bytesFrom (by omega) (by omega)]
      · rw [if_neg hin, if_neg (by omega)]
  · refine ⟨?_, fun x _ => ?_⟩
    · rw [show bytesFrom buffer 0 (0 : Int).toNat = [] from rfl, writeAt_nil, if_neg (by omega)]
    · rw [show bytesFrom buffer 0 (0 : Int).toNat = [] from rfl, writeAt_nil, if_neg (by omega)]

/-- Allocating storage changes nothing that is read. -/
theorem allocate_same (f : CachedFile) (k : Int) :
    (f.allocate k).1.firstByte = f.firstByte ∧ (f.allocate k).1.lastByte = f.lastByte ∧ (f.allocate k).1.cache = f.cache ∧
      ∀ j, (f.allocate k).1.blockRead j = f.blockRead j := by
  unfold allocate
  cases hs : f.store k with
  | some d => exact ⟨rfl, rfl, rfl, fun _ => rfl⟩
  | none =>
    refine ⟨rfl, rfl, rfl, fun j => ?_⟩
    unfold blockRead
    dsimp only
    by_cases hj : j = k
    · subst hj
      rw [update_self, hs]
      rfl
    · rw [update_of_ne hj]

theorem allocate_new (h : (f.allocate k).2 = true) : f.blockRead k = fun _ => 0 := by
  unfold allocate at h
  unfold blockRead
  cases hs : f.store k with
  | some d =>
    rw [hs] at h
    cases h
  | none => rfl

section
variable (h : f.Refines l)
include h

theorem Refines.allocate (k : Int) : (f.allocate k).1.Refines l := by
  obtain ⟨hfirst, hlast, hcache, hread⟩ := allocate_same f k
  refine ⟨by rw [hlast]; exact h.size, h.fits, by rw [hfirst]; exact h.first, by rw [hcache]; exact h.within,
    by rw [hcache]; exact h.cached, fun j i hj h0 h1 hclean => ?_, fun j b hj hd => ?_⟩
  · rw [hcache] at hclean
    rw [hread]
    exact h.stored j i hj h0 h1 hclean
  · rw [hcache] at hj
    rw [hread]
    exact h.dirty j b hj hd

theorem Refines.blockToWrite {frame : Buffer} {newBlock : Bool} (hk : 0 ≤ k) (h0 : 0 ≤ i) (h1 : i < fsBlockSize)
    (htidy : f.Tidy offset) (hnew : newBlock = true → f.blockRead k = fun _ => 0)
    (hend : k ≤ lastFileBlock ∨ (l.length : Int) ≤ k * fsBlockSize) (hpart : w ≠ fsBlockSize)
    (hin : k * fsBlockSize + i < l.length ∨ k * fsBlockSize + i < offset) :
    f.blockToWrite frame lastFileBlock k w newBlock i = byteAt l (k * fsBlockSize + i) := by
  have hsize := h.size
  unfold CachedFile.blockToWrite
  cases hb : f.cache k with
  | some b =>
    by_cases hlt : k * fsBlockSize + i < l.length
    · exact h.cached k b i hb h0 h1 hlt
    · rw [byteAt_of_le (by omega)]
      exact htidy k b i hb h0 h1 (by omega) (by omega)
  | none =>
    have hread : f.blockRead k i = byteAt l (k * fsBlockSize + i) :=
      h.stored k i hk h0 h1 fun b hb' => by rw [hb] at hb'; cases hb'
    rw [if_neg hpart]
    split
    next => exact hread
    next hnot =>
      -- a block after the end of the file, or one without storage
      by_cases hafter : (l.length : Int) ≤ k * fsBlockSize
      · rw [byteAt_of_le (by omega)]
      · cases hn : newBlock with
        | true => rw [← hread, hnew hn]
        | false => exact absurd ⟨hend.resolve_right hafter, hn⟩ hnot

theorem Refines.putBlock {data : Buffer} {last bs : Int} (hk : 0 ≤ k) (hko : k * fsBlockSize ≤ offset)
    (hoff : offset < (k + 1) * fsBlockSize) (hto : offset + w ≤ (k + 1) * fsBlockSize)
    (hw : 0 < w ∨ w = 0 ∧ k * fsBlockSize < offset ∧ offset ≤ l.length) (hfits : offset + w < 2147483648) (htidy : f.Tidy offset) (hl : Wrote l l' offset w buffer)
    (hdata : ∀ i, 0 ≤ i → i < fsBlockSize → k * fsBlockSize + i < l.length ∨ k * fsBlockSize + i < offset → w ≠ fsBlockSize →
      data i = byteAt l (k * fsBlockSize + i))
    (hlast : last + 1 = l'.length)
    (hbs : bs = if last + 1 - k * fsBlockSize > fsBlockSize then fsBlockSize else last + 1 - k * fsBlockSize) :
    Refines { f with
      lastByte := last
      cache := update f.cache k (some ⟨setBytes (offset % fsBlockSize) (bytesFrom buffer 0 w.toNat) data, bs, true⟩) } l' := by
  have hsize := h.size
  have hfit := h.fits
  have hlen := hl.length
  have hstep : (k + 1) * fsBlockSize = k * fsBlockSize + fsBlockSize := by rw [Int.add_mul, Int.one_mul]
  have hpos : 0 < fsBlockSize := by decide
  have hgrow : (l.length : Int) ≤ l'.length ∧ (l'.length : Int) ≤ max (l.length : Int) (offset + w) := by omega
  have hold : ∀ j b, update f.cache k (some ⟨setBytes (offset % fsBlockSize) (bytesFrom buffer 0 w.toNat) data, bs, true⟩) j =
      some b → (j = k ∧ b = ⟨setBytes (offset % fsBlockSize) (bytesFrom buffer 0 w.toNat) data, bs, true⟩) ∨ (j ≠ k ∧ f.cache j = some b) := fun _ _ => of_update_some
  -- another block has no part in the bytes that are written
  have hfar : ∀ j i, j ≠ k → 0 ≤ i → i < fsBlockSize → ¬ (offset ≤ j * fsBlockSize + i ∧ j * fsBlockSize + i < offset + w) := by
    intro j i hjk h0 h1 hin
    unfold fsBlockSize at *
    omega
  have hother : ∀ j i, j ≠ k → 0 ≤ j → 0 ≤ i → i < fsBlockSize → byteAt l' (j * fsBlockSize + i) = byteAt l (j * fsBlockSize + i) := by
    intro j i hjk hj h0 h1
    rw [hl.byte _ (by unfold fsBlockSize; omega), if_neg (hfar j i hjk h0 h1)]
  have hread : ∀ j, (blockRead { f with lastByte := last, cache := update f.cache k (some ⟨setBytes (offset % fsBlockSize) (bytesFrom buffer 0 w.toNat) data, bs, true⟩) } j) = f.blockRead j := fun _ => rfl
  refine ⟨hlast, ?_, h.first, fun j b hj => ?_, fun j b i hj h0 h1 hin => ?_, fun j i hj h0 h1 hclean => ?_, fun j b hj hd => ?_⟩
  · omega
  · obtain ⟨rfl, -⟩ | ⟨-, hj⟩ := hold j b hj
    · refine ⟨hk, ?_⟩
      obtain hw | ⟨hw, hlt, hle⟩ := hw
      · omega
      · omega
    · have hin := h.within j b hj
      omega
  · obtain ⟨rfl, rfl⟩ | ⟨hjk, hj⟩ := hold j b hj
    · have hmod : offset % fsBlockSize = offset - j * fsBlockSize := by
        unfold fsBlockSize at *
        omega
      dsimp only
      rw [setBytes, length_bytesFrom, hl.byte _ (by unfold fsBlockSize; omega)]
      by_cases hin' : offset ≤ j * fsBlockSize + i ∧ j * fsBlockSize + i < offset + w
      · rw [if_pos (by omega), if_pos hin', getD_bytesFrom (by omega) (by omega)]
        congr 1
        omega
      · rw [if_neg (by omega), if_neg hin']
        exact hdata i h0 h1 (by omega) fun heq => hin' (by omega)
    · have hj0 := (h.within j b hj).1
      rw [hother j i hjk hj0 h0 h1]
      by_cases hlt : j * fsBlockSize + i < l.length
      · exact h.cached j b i hj h0 h1 hlt
      · -- in the gap
        rw [byteAt_of_le (by omega)]
        refine htidy j b i hj h0 h1 (by omega) ?_
        have hnot := hfar j i hjk h0 h1
        omega
  · rw [hread]
    by_cases hjk : j = k
    · subst hjk
      have hdirty := hclean _ (update_self _ _ _)
      cases hdirty
    · rw [hother j i hjk hj h0 h1]
      refine h.stored j i hj h0 h1 fun b hb => hclean b ?_
      exact (update_of_ne hjk _ _).trans hb
  · obtain ⟨rfl, rfl⟩ | ⟨hjk, hj⟩ := hold j b hj
    · dsimp only
      refine ⟨by rw [hbs]; split <;> omega, by rw [hbs]; split <;> omega, fun i h0 hle h1 => ?_⟩
      have hafter : (l'.length : Int) ≤ j * fsBlockSize + i := by
        rw [hbs] at hle
        split at hle <;> omega
      rw [hread, byteAt_of_le hafter, h.beyond hk h0 h1 (by omega)]
    · obtain ⟨h₁, h₂, hrest⟩ := h.dirty j b hj hd
      have hj0 := (h.within j b hj).1
      refine ⟨h₁, by omega, fun i h0 hle h1 => ?_⟩
      rw [hread, hother j i hjk hj0 h0 h1]
      exact hrest i h0 hle h1

theorem Refines.writeBlock (hk : 0 ≤ k) (hko : k * fsBlockSize ≤ offset) (hoff : offset < (k + 1) * fsBlockSize)
    (hto : offset + w ≤ (k + 1) * fsBlockSize) (hw : 0 < w ∨ w = 0 ∧ k * fsBlockSize < offset ∧ offset ≤ l.length)
    (hfits : offset + w < 2147483648) (htidy : f.Tidy offset) (hend : k ≤ lastFileBlock ∨ (l.length : Int) ≤ k * fsBlockSize)
    (hl : Wrote l l' offset w buffer) : (f.writeBlock frames lastFileBlock k offset w buffer).Refines l' := by
  obtain ⟨-, hlast, hcache, hread⟩ := allocate_same f k
  have ha := h.allocate k
  have htidy' : (f.allocate k).1.Tidy offset := by
    unfold Tidy
    rw [hcache, hlast]
    exact htidy
  have hsize := h.size
  have hlen := hl.length
  refine ha.putBlock hk hko hoff hto hw hfits htidy' hl (fun i h0 h1 hin hpart => ?_) ?_ rfl
  · exact ha.blockToWrite hk h0 h1 htidy' (fun hn => (hread k).trans (allocate_new hn)) hend hpart hin
  · show (if offset + w - 1 > (f.allocate k).1.lastByte then offset + w - 1 else (f.allocate k).1.lastByte) + 1 = _
    split <;> omega

theorem tidy_of_le (hle : offset ≤ l.length) : f.Tidy offset := by
  intro k b i _ _ _ hafter hbefore
  have hsize := h.size
  omega

end

theorem blockOf_eq {x : Int} (h0 : 0 ≤ x) (h1 : x < 4294967296) : blockOf x = x / fsBlockSize := by
  unfold blockOf
  rw [Int.emod_eq_of_lt h0 h1]

theorem bytesFrom_tail_append (hw : 0 ≤ w) (hws : w ≤ size) :
    bytesFrom buffer 0 w.toNat ++ bytesFrom (tail w buffer) 0 (size - w).toNat = bytesFrom buffer 0 size.toNat := by
  apply List.ext_getElem
  · rw [List.length_append, length_bytesFrom, length_bytesFrom, length_bytesFrom]
    omega
  · intro i h₁ h₂
    rw [List.getElem_append]
    split
    next hlt => simp only [bytesFrom, List.getElem_map, List.getElem_range]
    next hlt =>
      simp only [bytesFrom, List.getElem_map, List.getElem_range, tail, List.length_map, List.length_range]
      rw [length_bytesFrom] at hlt
      congr 1
      omega

theorem Refines.writeLoop (n : Nat) (h : f.Refines l) (hk : 0 ≤ k) (hko : k * fsBlockSize ≤ offset) (hoff : offset < (k + 1) * fsBlockSize)
    (hsize : 0 < size) (hn : n = (blockOf (offset + size - 1) - k + 1).toNat) (hfits : offset + size < 2147483648)
    (htidy : f.Tidy offset) (hend : ∀ j, k ≤ j → j ≤ lastFileBlock ∨ (l.length : Int) ≤ j * fsBlockSize) :
    (CachedFile.writeLoop frames lastFileBlock n f k offset size buffer).1.Refines
        (writeAt 0 l offset.toNat (bytesFrom buffer 0 size.toNat)) ∧
      (CachedFile.writeLoop frames lastFileBlock n f k offset size buffer).2 = offset + size := by
  have hlast : blockOf (offset + size - 1) = (offset + size - 1) / fsBlockSize := blockOf_eq (by unfold fsBlockSize at *; omega) (by omega)
  have hstep : (k + 1) * fsBlockSize = k * fsBlockSize + fsBlockSize := by rw [Int.add_mul, Int.one_mul]
  induction n generalizing f l k offset size buffer with
  | zero =>
    unfold fsBlockSize at *
    omega
  | succ n ih =>
    unfold CachedFile.writeLoop
    obtain ⟨w, hw⟩ : ∃ w, w = toWrite k offset size := ⟨_, rfl⟩
    rw [← hw]
    unfold toWrite at hw
    have hmod : offset % fsBlockSize = offset - k * fsBlockSize := by
      unfold fsBlockSize at *
      omega
    have hwpos : 0 < w ∧ w ≤ size ∧ offset + w ≤ (k + 1) * fsBlockSize := by
      unfold fsBlockSize at *
      split at hw <;> omega
    obtain ⟨hw0, hws, hto⟩ := hwpos
    have hl : Wrote l (writeAt 0 l offset.toNat (bytesFrom buffer 0 w.toNat)) offset w buffer :=
      wrote_writeAt (by unfold fsBlockSize at *; omega) (.inl hw0)
    have hblock : (f.writeBlock frames lastFileBlock k offset w buffer).Refines _ :=
      h.writeBlock hk hko hoff hto (.inl hw0) (by omega) htidy (hend k (Int.le_refl _)) hl
    have hlen := hl.length
    by_cases hmore : w = size
    · obtain rfl : n = 0 := by
        unfold fsBlockSize at *
        split at hw <;> omega
      rw [hmore] at hblock ⊢
      exact ⟨hblock, rfl⟩
    · have hsum : offset + w + (size - w) = offset + size := by omega
      have hlast' : blockOf (offset + w + (size - w) - 1) = (offset + w + (size - w) - 1) / fsBlockSize := by rw [hsum]; exact hlast
      have hstep' : (k + 1 + 1) * fsBlockSize = (k + 1) * fsBlockSize + fsBlockSize := by rw [Int.add_mul (k + 1), Int.one_mul]
      have hn' : n = (blockOf (offset + w + (size - w) - 1) - (k + 1) + 1).toNat := by
        rw [hsum]
        omega
      have htidy' : (f.writeBlock frames lastFileBlock k offset w buffer).Tidy (offset + w) := tidy_of_le hblock (by omega)
      have hend' : ∀ j, k + 1 ≤ j → j ≤ lastFileBlock ∨
          ((writeAt 0 l offset.toNat (bytesFrom buffer 0 w.toNat)).length : Int) ≤ j * fsBlockSize := by
        intro j hj
        refine (hend j (by omega)).imp_right fun hle => ?_
        have hjk : (k + 1) * fsBlockSize ≤ j * fsBlockSize := Int.mul_le_mul_of_nonneg_right hj (by omega)
        omega
      obtain ⟨hrest, hoffset⟩ := ih hblock (by omega) (by omega) (by omega) (by omega) hn' (by omega) htidy' hend' hlast' hstep'
      have htwo : (offset + w).toNat = offset.toNat + (bytesFrom buffer 0 w.toNat).length := by
        rw [length_bytesFrom]
        unfold fsBlockSize at *
        omega
      rw [htwo, writeAt_writeAt, bytesFrom_tail_append (by omega) hws] at hrest
      exact ⟨hrest, by rw [hoffset]; exact hsum⟩

/-- A write of no bytes begins neither at 0 nor, inside a block, beyond the end; any other finds only zeros from the
    end on to where it begins. -/
structure WritesPlain (f : CachedFile) (offset len : Int) : Prop where
  fits : offset + len < 2147483648
  tidy : 0 < len → f.Tidy offset
  empty : len = 0 → offset ≠ 0 ∧ (offset ≤ f.lastByte + 1 ∨ offset % fsBlockSize = 0)

theorem Refines.withFirst (h : f.Refines l) : Refines { f with firstByte := 0 } l :=
  { h with first := .inr rfl }

/-- The last block of the file, as a write finds it. -/
theorem Refines.not_after (h : f.Refines l) (hk : 0 ≤ k) :
    k ≤ (if f.lastByte = -1 then -1 else blockOf f.lastByte) ∨ (l.length : Int) ≤ k * fsBlockSize := by
  have hsize := h.size
  have hfits := h.fits
  split
  next hnone => exact .inr (by unfold fsBlockSize; omega)
  next hsome =>
    rw [blockOf_eq (by omega) (by omega)]
    unfold fsBlockSize
    omega

theorem Refines.write {append : Bool} {o len : Nat} (h : f.Refines l)
    (hw : f.WritesPlain (if append then f.lastByte + 1 else o) len) :
    (f.write append o buffer len frames).1.Refines (writeAt 0 l (if append then l.length else o) (bytesFrom buffer 0 len)) := by
  have hsize := h.size
  obtain ⟨offset, hoffset⟩ : ∃ offset : Int, offset = if append then f.lastByte + 1 else (o : Int) := ⟨_, rfl⟩
  have hnat : (if append then l.length else o) = offset.toNat := by
    rw [hoffset]
    split <;> omega
  have h0 : 0 ≤ offset := by
    rw [hoffset]
    split <;> omega
  rw [← hoffset] at hw
  rw [hnat]
  have hfits := hw.fits
  have hfirst : blockOf offset = offset / fsBlockSize := blockOf_eq h0 (by omega)
  have hko : blockOf offset * fsBlockSize ≤ offset ∧ offset < (blockOf offset + 1) * fsBlockSize ∧ 0 ≤ blockOf offset := by
    rw [hfirst]
    unfold fsBlockSize
    omega
  obtain ⟨lastFileBlock, hlfb⟩ : ∃ k, k = if f.lastByte = -1 then -1 else blockOf f.lastByte := ⟨_, rfl⟩
  have hafter : ∀ j, 0 ≤ j → j ≤ lastFileBlock ∨ (l.length : Int) ≤ j * fsBlockSize := fun j hj => hlfb ▸ h.not_after hj
  suffices hloop : (CachedFile.writeLoop frames lastFileBlock
      (blockOf (offset + len - 1) - blockOf offset + 1).toNat f (blockOf offset) offset len buffer).1.Refines
        (writeAt 0 l offset.toNat (bytesFrom buffer 0 len)) by
    unfold CachedFile.write
    dsimp only
    rw [← hoffset, ← hlfb]
    split
    · exact hloop.withFirst
    · exact hloop
  obtain hlen | hlen := Nat.eq_zero_or_pos len
  · subst hlen
    obtain ⟨hne, hor⟩ := hw.empty rfl
    have hlast : blockOf (offset + (0 : Nat) - 1) = (offset - 1) / fsBlockSize := by
      rw [Int.natCast_zero, Int.add_zero]
      exact blockOf_eq (by omega) (by omega)
    by_cases hmod : offset % fsBlockSize = 0
    · have hnone : (blockOf (offset + (0 : Nat) - 1) - blockOf offset + 1).toNat = 0 := by
        unfold fsBlockSize at *
        omega
      rw [hnone]
      exact h
    · have hone : (blockOf (offset + (0 : Nat) - 1) - blockOf offset + 1).toNat = 1 := by
        unfold fsBlockSize at *
        omega
      have hzero : toWrite (blockOf offset) offset (0 : Nat) = 0 := by
        unfold toWrite
        rw [if_neg]
        · rfl
        · omega
      rw [hone]
      unfold CachedFile.writeLoop CachedFile.writeLoop
      rw [hzero]
      have hwrote : Wrote l l offset 0 buffer := by
        refine ⟨by rw [if_neg (by omega)], fun x _ => by rw [if_neg (by omega)]⟩
      refine h.writeBlock hko.2.2 hko.1 hko.2.1 (by omega) (.inr ⟨rfl, ?_, by omega⟩) (by omega) (tidy_of_le h (by omega))
        (hafter _ hko.2.2) hwrote
      unfold fsBlockSize at *
      omega
  · exact (h.writeLoop _ hko.2.2 hko.1 hko.2.1 (by omega) rfl (by omega) (hw.tidy (by omega))
      fun j hj => hafter j (by omega)).1

end CachedFile
end SpriteKernel.Fscache
