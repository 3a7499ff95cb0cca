import SpriteKernel.Fscache.CachedFile

/- The cached file is an array of bytes, as long as no write finds in the cached block in which the file
   ends what was there before a truncation: `Refines` says what the blocks in the cache, and those of
   the backend, have of the array. -/
namespace SpriteKernel.Fscache

open Function
open Bytes Growing

/-- The byte at an offset; beyond the end it is zero. -/
def byteAt (l : List UInt8) (x : Int) : UInt8 := l.getD x.toNat 0

theorem byteAt_of_le {l : List UInt8} {x : Int} (h : (l.length : Int) ≤ x) : byteAt l x = 0 := List.getD_eq_default _ _ (by omega)

theorem byteAt_take {l : List UInt8} {n : Nat} {x : Int} (h0 : 0 ≤ x) (h : x < n) : byteAt (l.take n) x = byteAt l x :=
  getD_take (by omega)

namespace CachedFile
variable {f g : CachedFile} {l l' : List UInt8} {k j i offset size : Int} {b : CacheBlock} {n : Nat}

structure Refines (f : CachedFile) (l : List UInt8) : Prop where
  size : f.lastByte + 1 = l.length
  fits : (l.length : Int) < 2147483648
  first : f.firstByte = -1 ∨ f.firstByte = 0
  within : ∀ k b, f.cache k = some b → 0 ≤ k ∧ k * fsBlockSize < l.length
  cached : ∀ k b i, f.cache k = some b → 0 ≤ i → i < fsBlockSize → k * fsBlockSize + i < l.length →
    b.data i = byteAt l (k * fsBlockSize + i)
  stored : ∀ k i, 0 ≤ k → 0 ≤ i → i < fsBlockSize → (∀ b, f.cache k = some b → b.dirty = false) →
    f.blockRead k i = byteAt l (k * fsBlockSize + i)
  dirty : ∀ k b, f.cache k = some b → b.dirty = true → b.blockSize ≤ fsBlockSize ∧ k * fsBlockSize + b.blockSize ≤ l.length ∧
    ∀ i, 0 ≤ i → b.blockSize ≤ i → i < fsBlockSize → f.blockRead k i = byteAt l (k * fsBlockSize + i)

/-- Beyond the end of the file the backend has zeros. -/
theorem Refines.beyond (h : f.Refines l) (hk : 0 ≤ k) (h0 : 0 ≤ i) (h1 : i < fsBlockSize) (hle : (l.length : Int) ≤ k * fsBlockSize + i) :
    f.blockRead k i = 0 := by
  rw [← byteAt_of_le hle]
  cases hb : f.cache k with
  | none => exact h.stored k i hk h0 h1 fun b hb' => by rw [hb] at hb'; cases hb'
  | some b =>
    cases hd : b.dirty with
    | false =>
      refine h.stored k i hk h0 h1 fun b' hb' => ?_
      rw [hb] at hb'
      exact Option.some.inj hb' ▸ hd
    | true =>
      obtain ⟨-, hle', hrest⟩ := h.dirty k b hb hd
      exact hrest i h0 (by omega) h1

theorem Refines.fetch (h : f.Refines l) (hk : 0 ≤ k) (hlt : k * fsBlockSize < l.length) : (f.fetch k).1.Refines l := by
  unfold CachedFile.fetch
  cases hb : f.cache k with
  | some b => exact h
  | none =>
    have hnone : ∀ b, f.cache k = some b → b.dirty = false := fun b hb' => by rw [hb] at hb'; cases hb'
    have hold : ∀ j b, update f.cache k (some { data := f.blockRead k, blockSize := -1, dirty := false }) j = some b →
        (j = k ∧ b = { data := f.blockRead k, blockSize := -1, dirty := false }) ∨ f.cache j = some b :=
      fun _ _ hj => (of_update_some hj).imp_right And.right
    refine ⟨h.size, h.fits, h.first, fun j b hj => ?_, fun j b i hj h0 h1 hin => ?_, fun j i hj h0 h1 hclean => ?_,
      fun j b hj hd => ?_⟩
    · obtain ⟨rfl, -⟩ | hj := hold j b hj
      · exact ⟨hk, hlt⟩
      · exact h.within j b hj
    · obtain ⟨rfl, rfl⟩ | hj := hold j b hj
      · exact h.stored j i hk h0 h1 hnone
      · exact h.cached j b i hj h0 h1 hin
    · by_cases hjk : j = k
      · subst hjk
        exact h.stored j i hj h0 h1 hnone
      · refine h.stored j i hj h0 h1 fun b hb' => hclean b ?_
        dsimp only
        rw [update_of_ne hjk]
        exact hb'
    · obtain ⟨rfl, rfl⟩ | hj := hold j b hj
      · cases hd
      · exact h.dirty j b hj hd

theorem Refines.fetch_data (h : f.Refines l) (hk : 0 ≤ k) (h0 : 0 ≤ i) (h1 : i < fsBlockSize) (hin : k * fsBlockSize + i < l.length) :
    (f.fetch k).2.data i = byteAt l (k * fsBlockSize + i) := by
  unfold CachedFile.fetch
  cases hb : f.cache k with
  | some b => exact h.cached k b i hb h0 h1 hin
  | none => exact h.stored k i hk h0 h1 fun b hb' => by rw [hb] at hb'; cases hb'

theorem fetch_lastByte : (f.fetch k).1.lastByte = f.lastByte := by
  unfold CachedFile.fetch
  split <;> rfl

theorem Refines.evict (h : f.Refines l) (hs : f.evict k = some g) : g.Refines l := by
  unfold CachedFile.evict at hs
  cases hb : f.cache k with
  | none =>
    rw [hb] at hs
    cases hs
  | some b =>
    rw [hb] at hs
    dsimp only at hs
    split at hs
    · cases hs
    next hclean =>
    cases hs
    have hold : ∀ j b', update f.cache k none j = some b' → j ≠ k ∧ f.cache j = some b' := fun _ _ => of_update_none
    refine ⟨h.size, h.fits, h.first, fun j b' hj => h.within j b' (hold j b' hj).2,
      fun j b' i hj h0 h1 hin => h.cached j b' i (hold j b' hj).2 h0 h1 hin, fun j i hj h0 h1 hd => ?_,
      fun j b' hj hd => h.dirty j b' (hold j b' hj).2 hd⟩
    refine h.stored j i hj h0 h1 fun b' hb' => ?_
    by_cases hjk : j = k
    · subst hjk
      rw [hb] at hb'
      exact Option.some.inj hb' ▸ Bool.eq_false_iff.2 hclean
    · refine hd b' ?_
      dsimp only
      rw [update_of_ne hjk]
      exact hb'

theorem Refines.writeBack (h : f.Refines l) (hs : f.writeBack k = some g) : g.Refines l := by
  unfold CachedFile.writeBack at hs
  cases hb : f.cache k with
  | none =>
    rw [hb] at hs
    cases hs
  | some b =>
    rw [hb] at hs
    obtain ⟨hd, hs⟩ := Option.ite_none_right_eq_some.1 hs
    cases hs
    obtain ⟨hsize, hle, hrest⟩ := h.dirty k b hb hd
    have hold : ∀ j b', update f.cache k (some { b with dirty := false }) j = some b' →
        (j = k ∧ b' = { b with dirty := false }) ∨ (j ≠ k ∧ f.cache j = some b') := fun _ _ => of_update_some
    obtain ⟨g, hg⟩ : ∃ g : CachedFile, g = { f with
      cache := update f.cache k (some { b with dirty := false })
      store := update f.store k (some (overwrite b.blockSize b.data (f.blockRead k))) } := ⟨_, rfl⟩
    have hself : g.blockRead k = overwrite b.blockSize b.data (f.blockRead k) := by
      rw [hg]
      unfold blockRead
      dsimp only
      rw [update_self]
      rfl
    have hother : ∀ j, j ≠ k → g.blockRead j = f.blockRead j := by
      intro j hj
      rw [hg]
      unfold blockRead
      dsimp only
      rw [update_of_ne hj]
    have hcache : g.cache = update f.cache k (some { b with dirty := false }) := by rw [hg]
    rw [← hg]
    refine ⟨by rw [hg]; exact h.size, h.fits, by rw [hg]; exact h.first, fun j b' hj => ?_, fun j b' i hj h0 h1 hin => ?_,
      fun j i hj h0 h1 hclean => ?_, fun j b' hj hd' => ?_⟩
    · rw [hcache] at hj
      obtain ⟨rfl, -⟩ | ⟨-, hj⟩ := hold j b' hj
      · exact h.within j b hb
      · exact h.within j b' hj
    · rw [hcache] at hj
      obtain ⟨rfl, rfl⟩ | ⟨-, hj⟩ := hold j b' hj
      · exact h.cached j b i hb h0 h1 hin
      · exact h.cached j b' i hj h0 h1 hin
    · by_cases hjk : j = k
      · subst hjk
        rw [hself]
        by_cases hi : i < b.blockSize
        · rw [overwrite_of_lt hi]
          exact h.cached j b i hb h0 h1 (by omega)
        · rw [overwrite_of_le (by omega)]
          exact hrest i h0 (by omega) h1
      · rw [hother j hjk]
        refine h.stored j i hj h0 h1 fun b' hb' => hclean b' ?_
        rw [hcache, update_of_ne hjk]
        exact hb'
    · rw [hcache] at hj
      obtain ⟨rfl, rfl⟩ | ⟨hjk, hj⟩ := hold j b' hj
      · cases hd'
      · rw [hother j hjk]
        exact h.dirty j b' hj hd'

/-! ### Truncation -/

theorem blockRead_truncate (h0 : 0 ≤ i) : (f.truncate n).blockRead k i = if k * fsBlockSize + i < n then f.blockRead k i else 0 := by
  unfold CachedFile.truncate blockRead
  dsimp only
  by_cases hk : k * fsBlockSize ≥ n
  · rw [if_pos hk, if_neg (by omega)]
    rfl
  · rw [if_neg hk]
    cases f.store k with
    | none =>
      split <;> rfl
    | some data => rfl

/-- What is left of the block, where the file comes to have `n` bytes. -/
def cutBlock (n : Nat) (k : Int) (b : CacheBlock) : CacheBlock :=
  if n ≤ (k + 1) * fsBlockSize then { b with blockSize := n - k * fsBlockSize } else b

/-- The blocks after the one in which the file comes to end are not in the cache any more. -/
theorem Refines.trunc_cache (h : f.Refines l) (hn : n < l.length) :
    (f.trunc n).lastByte + 1 = n ∧ ((f.trunc n).firstByte = -1 ∨ (f.trunc n).firstByte = 0) ∧
      ∀ k, (f.trunc n).cache k = if k * fsBlockSize < n then (f.cache k).map (cutBlock n k) else none := by
  have hsize := h.size
  have hfirst := h.first
  obtain ⟨firstBlock, hfb⟩ : ∃ firstBlock : Int, firstBlock = if (n : Int) = 0 then 0 else ((n : Int) - 1) / fsBlockSize + 1 := ⟨_, rfl⟩
  -- the first block that is invalidated is the first one wholly beyond the end
  have hcut : ∀ k, firstBlock ≤ k ↔ 0 ≤ k ∧ (n : Int) ≤ k * fsBlockSize := by
    rw [hfb]
    unfold fsBlockSize
    split <;> omega
  have hkey : ∀ g : CachedFile, g.cache = f.cache → ∀ k,
      (if firstBlock > 0 then (g.fileInvalidate firstBlock (f.lastByte / fsBlockSize)).blockTrunc (firstBlock - 1)
        (n - (firstBlock - 1) * fsBlockSize) else g.fileInvalidate firstBlock (f.lastByte / fsBlockSize)).cache k =
      if k * fsBlockSize < n then (f.cache k).map (cutBlock n k) else none := by
    intro g hg k
    have hk := hcut k
    have hk' := hcut (k + 1)
    have hinv : (g.fileInvalidate firstBlock (f.lastByte / fsBlockSize)).cache k = if k * fsBlockSize < n then f.cache k else none := by
      unfold fileInvalidate
      dsimp only
      rw [hg]
      cases hb : f.cache k with
      | none => split <;> split <;> rfl
      | some b =>
        obtain ⟨h0, hlt⟩ := h.within k b hb
        have hlast : k ≤ f.lastByte / fsBlockSize := by
          unfold fsBlockSize at hlt ⊢
          omega
        by_cases hkn : k * fsBlockSize < n
        · rw [if_pos hkn, if_neg (by omega)]
        · rw [if_neg hkn, if_pos (by omega)]
    have hcutBlock : ∀ b, f.cache k = some b → k * fsBlockSize < n → k ≠ firstBlock - 1 → cutBlock n k b = b := by
      intro b hb hkn hne
      have h0 := (h.within k b hb).1
      unfold cutBlock
      rw [if_neg (by omega)]
    split
    next hpos =>
      unfold blockTrunc
      dsimp only
      by_cases hkb : k = firstBlock - 1
      · subst hkb
        rw [update_self, hinv, if_pos (by omega), if_pos (by omega)]
        congr 1
        funext b
        unfold cutBlock
        rw [if_pos (by omega)]
      · rw [update_of_ne hkb, hinv]
        split
        next hkn =>
          cases hb : f.cache k with
          | none => rfl
          | some b => exact congrArg some (hcutBlock b hb hkn hkb).symm
        next => rfl
    next hzero =>
      rw [hinv]
      split
      next hkn =>
        cases hb : f.cache k with
        | none => rfl
        | some b => exact congrArg some (hcutBlock b hb hkn (by have := (h.within k b hb).1; omega)).symm
      next => rfl
  have hbytes : ∀ g : CachedFile, (if firstBlock > 0 then (g.fileInvalidate firstBlock (f.lastByte / fsBlockSize)).blockTrunc
      (firstBlock - 1) (n - (firstBlock - 1) * fsBlockSize) else g.fileInvalidate firstBlock (f.lastByte / fsBlockSize)).lastByte =
        g.lastByte ∧ (if firstBlock > 0 then (g.fileInvalidate firstBlock (f.lastByte / fsBlockSize)).blockTrunc
      (firstBlock - 1) (n - (firstBlock - 1) * fsBlockSize) else g.fileInvalidate firstBlock (f.lastByte / fsBlockSize)).firstByte =
        g.firstByte := by
    intro g
    split <;> exact ⟨rfl, rfl⟩
  unfold CachedFile.trunc truncate
  rw [if_pos (by omega), ← hfb]
  by_cases hb : (n : Int) - 1 < f.firstByte
  · rw [if_pos hb]
    refine ⟨?_, ?_, hkey _ rfl⟩
    · rw [(hbytes _).1]
      dsimp only
      omega
    · rw [(hbytes _).2]
      exact .inl rfl
  · rw [if_neg hb]
    refine ⟨?_, ?_, hkey _ rfl⟩
    · rw [(hbytes _).1]
      dsimp only
      omega
    · rw [(hbytes _).2]
      exact hfirst

theorem blockRead_trunc (h0 : 0 ≤ i) : (f.trunc n).blockRead k i = if k * fsBlockSize + i < n then f.blockRead k i else 0 := by
  have hstore : ∀ g : CachedFile, g.store = f.store → (g.truncate n).blockRead k i = if k * fsBlockSize + i < n then f.blockRead k i else 0 := by
    intro g hg
    rw [blockRead_truncate h0]
    unfold blockRead
    rw [hg]
  have hkeep : ∀ (g : CachedFile) (first last bs : Int), (if first > 0 then (g.fileInvalidate first last).blockTrunc (first - 1) bs
      else g.fileInvalidate first last).store = g.store := by
    intro g first last bs
    split <;> rfl
  apply hstore
  split
  · refine (hkeep _ _ _ _).trans ?_
    split <;> rfl
  · rfl

theorem Refines.trunc_of_le (h : f.Refines l) (hn : l.length ≤ n) : (f.trunc n).Refines l := by
  have hsize := h.size
  have hread : ∀ k i, 0 ≤ k → 0 ≤ i → i < fsBlockSize → (f.trunc n).blockRead k i = f.blockRead k i := by
    intro k i hk h0 h1
    rw [blockRead_trunc h0]
    split
    · rfl
    · exact (h.beyond hk h0 h1 (by omega)).symm
  have hsame : (f.trunc n).lastByte = f.lastByte ∧ (f.trunc n).firstByte = f.firstByte ∧ (f.trunc n).cache = f.cache := by
    unfold CachedFile.trunc truncate
    rw [if_neg (by omega)]
    exact ⟨rfl, rfl, rfl⟩
  obtain ⟨hlast, hfirst, hcache⟩ := hsame
  refine ⟨by rw [hlast]; exact hsize, h.fits, by rw [hfirst]; exact h.first, by rw [hcache]; exact h.within,
    by rw [hcache]; exact h.cached, fun k i hk h0 h1 hclean => ?_, fun k b hk hd => ?_⟩
  · rw [hread k i hk h0 h1]
    rw [hcache] at hclean
    exact h.stored k i hk h0 h1 hclean
  · rw [hcache] at hk
    obtain ⟨h₁, h₂, hrest⟩ := h.dirty k b hk hd
    refine ⟨h₁, h₂, fun i h0 hle h1 => ?_⟩
    rw [hread k i (h.within k b hk).1 h0 h1]
    exact hrest i h0 hle h1

theorem Refines.trunc (h : f.Refines l) (n : Nat) : (f.trunc n).Refines (l.take n) := by
  by_cases hn : ¬ n < l.length
  · rw [List.take_of_length_le (by omega)]
    exact h.trunc_of_le (by omega)
  replace hn : n < l.length := Classical.not_not.1 hn
  obtain ⟨hlast, hfirst, hcache⟩ := h.trunc_cache hn
  have hlen : (l.take n).length = n := List.length_take_of_le (by omega)
  have hat : ∀ x : Int, 0 ≤ x → x < n → byteAt (l.take n) x = byteAt l x := fun x h0 h1 => byteAt_take h0 h1
  -- a block that is left is one of those there were
  have hold : ∀ k b, (f.trunc n).cache k = some b → k * fsBlockSize < n ∧ ∃ b', f.cache k = some b' ∧ b = cutBlock n k b' := by
    intro k b hb
    rw [hcache] at hb
    obtain ⟨hkn, hb⟩ := Option.ite_none_right_eq_some.1 hb
    obtain ⟨b', hb', heq⟩ := Option.map_eq_some_iff.1 hb
    exact ⟨hkn, b', hb', heq.symm⟩
  have hcutData : ∀ k b, (cutBlock n k b).data = b.data ∧ (cutBlock n k b).dirty = b.dirty := by
    intro k b
    unfold cutBlock
    split <;> exact ⟨rfl, rfl⟩
  refine ⟨by rw [hlen]; exact hlast, by rw [hlen]; have := h.fits; omega, hfirst, fun k b hb => ?_, fun k b i hb h0 h1 hin => ?_,
    fun k i hk h0 h1 hclean => ?_, fun k b hb hd => ?_⟩
  · obtain ⟨hkn, b', hb', -⟩ := hold k b hb
    rw [hlen]
    exact ⟨(h.within k b' hb').1, hkn⟩
  · rw [hlen] at hin
    obtain ⟨-, b', hb', rfl⟩ := hold k b hb
    have hk := (h.within k b' hb').1
    rw [hat _ (by unfold fsBlockSize; omega) hin, (hcutData k b').1]
    exact h.cached k b' i hb' h0 h1 (by omega)
  · rw [blockRead_trunc h0]
    split
    next hin =>
      rw [hat _ (by unfold fsBlockSize; omega) hin]
      refine h.stored k i hk h0 h1 fun b' hb' => ?_
      have hclean' := hclean (cutBlock n k b') (by rw [hcache, if_pos (by omega), hb']; rfl)
      exact (hcutData k b').2.symm.trans hclean'
    next hout => exact (byteAt_of_le (by rw [hlen]; omega)).symm
  · obtain ⟨hkn, b', hb', rfl⟩ := hold k b hb
    rw [(hcutData k b').2] at hd
    obtain ⟨h₁, h₂, hrest⟩ := h.dirty k b' hb' hd
    have hk := (h.within k b' hb').1
    have hstep : (k + 1) * fsBlockSize = k * fsBlockSize + fsBlockSize := by rw [Int.add_mul, Int.one_mul]
    by_cases hlastBlock : (n : Int) ≤ (k + 1) * fsBlockSize
    · have hbs : (cutBlock n k b').blockSize = n - k * fsBlockSize := by
        unfold cutBlock
        rw [if_pos hlastBlock]
      refine ⟨by omega, by omega, fun i h0 hle h1 => ?_⟩
      rw [blockRead_trunc h0, if_neg (by omega), byteAt_of_le (by rw [hlen]; omega)]
    · have hbs : cutBlock n k b' = b' := by
        unfold cutBlock
        rw [if_neg hlastBlock]
      rw [hbs]
      refine ⟨h₁, by omega, fun i h0 hle h1 => ?_⟩
      rw [blockRead_trunc h0, if_pos (by omega), hat _ (by unfold fsBlockSize; omega) (by omega)]
      exact hrest i h0 hle h1

end CachedFile
end SpriteKernel.Fscache
