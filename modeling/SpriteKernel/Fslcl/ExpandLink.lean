import SpriteKernel.Fslcl.Update
import SpriteKernel.Lib.Pieces
import Mathlib.Logic.Function.Basic

/- Symbolic links in a path (`ExpandLink`, fslclLookup.c). The name that remains is shifted to where the text of the
   link will end, which may be to the left or to the right in the buffer it is in. Memory is a buffer by address. -/
namespace SpriteKernel.Fslcl

open List Function
open Bytes

/-- A string and the NUL behind it are at an address. -/
def StringAt (m : Buffer) (p : Int) (s : Name) : Prop := bytesFrom m p (s.length + 1) = s ++ [0]

def shiftLeft : Nat → Int → Int → Buffer → Option Buffer
  | 0, _, _, _ => none
  | fuel + 1, src, dst, m =>
    let m := update m dst (m src)
    if m src = 0 then some m else shiftLeft fuel (src + 1) (dst + 1) m

/-- The loop to the end of the name. -/
def toEnd (m : Buffer) : Nat → Int → Int → Option (Int × Int)
  | 0, _, _ => none
  | fuel + 1, src, dst => if m src ≠ 0 then toEnd m fuel (src + 1) (dst + 1) else some (src, dst)

/-- The loop that shifts right, from the end of the name. -/
def shiftRight (cur : Int) : Nat → Int → Int → Buffer → Option (Int × Buffer)
  | 0, _, _, _ => none
  | fuel + 1, src, dst, m =>
    if src ≥ cur then shiftRight cur fuel (src - 1) (dst - 1) (update m dst (m src)) else some (dst, m)

/-- The remaining name and the slash before it are put where a link of so many characters ends. -/
def shiftName (fuel : Nat) (linkNameLength cur offset nameBuffer : Int) (m : Buffer) : Option Buffer :=
  let dst := nameBuffer + linkNameLength
  if m cur = 0 then some (update m dst 0)
  else if linkNameLength < offset then shiftLeft fuel cur (dst + 1) (update m dst 47)
  else
    match toEnd m fuel cur (dst + 1) with
    | none => none
    | some (src, dst) =>
      match shiftRight cur (fuel + 1) src dst m with
      | none => none
      | some (dst, m) => some (update m dst 47)

/-- `ExpandLink`, for the contents and the `lastByte` of the link. `none` inside is FS_FILE_NOT_FOUND. -/
def expandLink (fuel : Nat) (link : Buffer) (lastByte cur offset nameBuffer : Int) (m : Buffer) : Option (Option Buffer) :=
  if lastByte < 0 then some none
  else
    match shiftName fuel lastByte cur offset nameBuffer m with
    | none => none
    -- `Fscache_Read` of the text
    | some m => some (some (setBytes nameBuffer (bytesFrom link 0 lastByte.toNat) m))

variable {m : Buffer} {src dst cur offset nameBuffer size : Int} {fuel : Nat} {s R L : Name}

theorem setBytes_cons (i : Int) (c : UInt8) (bs : List UInt8) (b : Buffer) :
    setBytes i (c :: bs) b = setBytes (i + 1) bs (update b i c) := by
  funext k
  unfold setBytes
  rw [length_cons]
  by_cases hk : k = i
  · subst hk
    rw [if_pos (by omega), if_neg (by omega), update_self, Int.sub_self]
    rfl
  · rw [update_of_ne hk]
    refine if_ctx_congr (by omega) (fun h => ?_) fun _ => rfl
    obtain ⟨n, hn⟩ : ∃ n, (k - i).toNat = n + 1 := ⟨(k - i).toNat - 1, by omega⟩
    rw [hn, getD_cons_succ, show (k - (i + 1)).toNat = n by omega]

theorem update_setBytes {i k : Int} (h : k < i) (c : UInt8) (bs : List UInt8) (b : Buffer) :
    update (setBytes i bs b) k c = setBytes i bs (update b k c) := by
  funext j
  by_cases hj : j = k
  · subst hj
    rw [update_self, setBytes_of_outside (by omega), update_self]
  · unfold setBytes
    rw [update_of_ne hj, update_of_ne hj]

theorem setBytes_append (i : Int) (as bs : List UInt8) (b : Buffer) :
    setBytes i as (setBytes (i + as.length) bs b) = setBytes i (as ++ bs) b := by
  induction as generalizing i b with
  | nil => rw [nil_append, length_nil, Int.natCast_zero, Int.add_zero, setBytes_nil]
  | cons a as ih =>
    have hat : i + ((a :: as).length : Int) = i + 1 + as.length := by rw [length_cons]; omega
    rw [cons_append, setBytes_cons, setBytes_cons, ← ih, hat, update_setBytes (by omega)]

theorem bytesFrom_cons (b : Buffer) (i : Int) (n : Nat) : bytesFrom b i (n + 1) = b i :: bytesFrom b (i + 1) n := by
  unfold bytesFrom
  rw [range_succ_eq_map, map_cons, map_map, Int.natCast_zero, Int.add_zero]
  refine congrArg _ (map_congr_left fun k _ => congrArg b ?_)
  omega

section
variable (h : StringAt m src s)
include h

/-- The name is where a store does not reach. -/
theorem StringAt.update {c : UInt8} (hdst : dst < src ∨ src + s.length < dst) :
    StringAt (update m dst c) src s := by
  unfold StringAt
  rw [← h]
  exact bytesFrom_congr fun k _ _ => update_of_ne (by omega) _ _

theorem shiftLeft_eq (hs : ∀ c ∈ s, c ≠ 0) (hfuel : s.length < fuel)
    (hdst : dst ≤ src ∨ src + s.length < dst) : shiftLeft fuel src dst m = some (setBytes dst (s ++ [0]) m) := by
  induction s generalizing fuel src dst m with
  | nil =>
    obtain ⟨fuel, rfl⟩ : ∃ n, fuel = n + 1 := ⟨fuel - 1, by omega⟩
    have hzero : m src = 0 := by
      have := h
      rw [StringAt, bytesFrom_cons] at this
      exact (cons.inj this).1
    have hread : update m dst (m src) src = 0 := by
      by_cases heq : src = dst
      · rw [heq, update_self, ← heq, hzero]
      · rw [update_of_ne heq, hzero]
    unfold shiftLeft
    rw [if_pos hread, nil_append, setBytes_cons, setBytes_nil, hzero]
  | cons c s ih =>
    obtain ⟨fuel, rfl⟩ : ∃ n, fuel = n + 1 := ⟨fuel - 1, by rw [length_cons] at hfuel; omega⟩
    rw [length_cons] at hfuel hdst
    rw [StringAt, length_cons, bytesFrom_cons, cons_append] at h
    obtain ⟨hc, hrest⟩ := cons.inj h
    have hread : update m dst (m src) src = c := by
      by_cases heq : src = dst
      · rw [heq, update_self, ← heq, hc]
      · rw [update_of_ne heq, hc]
    unfold shiftLeft
    rw [if_neg (hread ▸ hs c mem_cons_self), cons_append, setBytes_cons, ← hc]
    exact ih (StringAt.update hrest (by omega)) (fun c hmem => hs c (mem_cons_of_mem _ hmem)) (by omega) (by omega)

theorem toEnd_eq (hs : ∀ c ∈ s, c ≠ 0) (hfuel : s.length < fuel) :
    toEnd m fuel src dst = some (src + s.length, dst + s.length) := by
  induction s generalizing fuel src dst with
  | nil =>
    obtain ⟨fuel, rfl⟩ : ∃ n, fuel = n + 1 := ⟨fuel - 1, by omega⟩
    rw [StringAt, bytesFrom_cons] at h
    have hzero : ¬ m src ≠ 0 := not_not.2 (cons.inj h).1
    unfold toEnd
    rw [if_neg hzero, length_nil, Int.natCast_zero, Int.add_zero, Int.add_zero]
  | cons c s ih =>
    obtain ⟨fuel, rfl⟩ : ∃ n, fuel = n + 1 := ⟨fuel - 1, by rw [length_cons] at hfuel; omega⟩
    rw [length_cons] at hfuel
    rw [StringAt, length_cons, bytesFrom_cons, cons_append] at h
    obtain ⟨hc, hrest⟩ := cons.inj h
    unfold toEnd
    rw [if_pos (hc ▸ hs c mem_cons_self), ih hrest (fun c hmem => hs c (mem_cons_of_mem _ hmem)) (by omega), length_cons]
    congr 2 <;> omega

end

theorem shiftRight_eq {n : Nat} (hfuel : n < fuel) (hdst : cur ≤ dst ∨ dst + n ≤ cur) :
    shiftRight cur fuel (cur + n - 1) (dst + n - 1) m = some (dst - 1, setBytes dst (bytesFrom m cur n) m) := by
  induction n generalizing fuel m with
  | zero =>
    obtain ⟨fuel, rfl⟩ : ∃ n, fuel = n + 1 := ⟨fuel - 1, by omega⟩
    unfold shiftRight
    rw [if_neg (by omega), Int.natCast_zero, Int.add_zero]
    exact congrArg (fun b => some (dst - 1, b)) (setBytes_nil dst m).symm
  | succ n ih =>
    obtain ⟨fuel, rfl⟩ : ∃ n, fuel = n + 1 := ⟨fuel - 1, by omega⟩
    have hsrc : cur + ((n + 1 : Nat) : Int) - 1 = cur + n := by omega
    have hto : dst + ((n + 1 : Nat) : Int) - 1 = dst + n := by omega
    have hkeep : bytesFrom (update m (dst + n) (m (cur + n))) cur n = bytesFrom m cur n :=
      bytesFrom_congr fun k _ _ => update_of_ne (by omega) _ _
    unfold shiftRight
    rw [hsrc, hto, if_pos (by omega), ih (by omega) (by omega), hkeep, bytesFrom_succ, ← setBytes_append, Pieces.length_bytesFrom,
      setBytes_cons, setBytes_nil]

/-- The remaining name is in the buffer itself, or clear of it. -/
def Placed (cur offset nameBuffer size : Int) (R : Name) : Prop :=
  cur = nameBuffer + offset ∧ 0 ≤ offset ∨ cur + R.length < nameBuffer ∨ nameBuffer + size ≤ cur

/-- What is behind the text of the link. -/
def behind (R : Name) : Name := if R = [] then [0] else 47 :: (R ++ [0])

theorem shiftName_eq {n : Int} (h : StringAt m cur R) (hR : ∀ c ∈ R, c ≠ 0) (hfuel : R.length < fuel) (hn : 0 ≤ n)
    (hplaced : Placed cur offset nameBuffer size R) (hfits : n + 1 + R.length < size) :
    shiftName fuel n cur offset nameBuffer m = some (setBytes (nameBuffer + n) (behind R) m) := by
  unfold shiftName behind
  cases R with
  | nil =>
    rw [StringAt, bytesFrom_cons] at h
    rw [if_pos (cons.inj h).1, if_pos rfl, setBytes_cons, setBytes_nil]
  | cons c R =>
    have hfirst := h
    rw [StringAt, length_cons, bytesFrom_cons, cons_append] at hfirst
    rw [if_neg ((cons.inj hfirst).1 ▸ hR c mem_cons_self), if_neg (cons_ne_nil c R), setBytes_cons]
    rw [Placed, length_cons] at hplaced
    rw [length_cons] at hfits
    split
    · -- to the left: the slash is before what is still to be read
      exact shiftLeft_eq (h.update (by rw [length_cons]; omega)) hR hfuel (by rw [length_cons]; omega)
    · rw [toEnd_eq h hR hfuel]
      have hright := @shiftRight_eq m (nameBuffer + n + 1) cur (fuel + 1) ((c :: R).length + 1) (Nat.succ_lt_succ hfuel)
        (by rw [length_cons]; omega)
      have hend : ∀ p : Int, p + (((c :: R).length + 1 : Nat) : Int) - 1 = p + (c :: R).length := fun p => by omega
      rw [hend, hend, h] at hright
      simp only [hright]
      rw [← update_setBytes (by omega), show nameBuffer + n + 1 - 1 = nameBuffer + n by omega]

end SpriteKernel.Fslcl
