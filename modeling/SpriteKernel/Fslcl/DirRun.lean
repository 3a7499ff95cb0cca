import SpriteKernel.Fslcl.DirMap

/- Directories over whole runs of insertions and deletions. -/
namespace SpriteKernel.Fslcl

open List Function
open Bytes

/-- The number of a file. -/
structure FileNumber (number : Int) : Prop where
  notZero : number ≠ 0
  low : -2147483648 ≤ number
  high : number < 2147483648

/-- A component of a path name, where names are shorter than `max` (FS_MAX_NAME_LENGTH). -/
structure Component (max : Nat) (component : Name) : Prop where
  notEmpty : component ≠ []
  short : component.length < max
  plain : ∀ c ∈ component, c ≠ 0 ∧ c ≠ 47

variable {max : Nat}

theorem Component.noNul {component : Name} (h : Component max component) : ∀ c ∈ component, c ≠ 0 :=
  fun c hc => (h.plain c hc).1

theorem Component.fits {component : Name} (h : Component max component)
    (hmax : dirRecLength max ≤ dirBlockSize) : dirRecLength component.length ≤ dirBlockSize := by
  have hs := h.short
  unfold dirRecLength at hmax ⊢
  rw [Int.tdiv_eq_ediv_of_nonneg (Int.natCast_nonneg _)] at hmax ⊢
  omega

/-- The map of a new directory. -/
def newMap (current parent : Int) : Name → Option Int :=
  update (update (fun _ => none) [46] (some current)) [46, 46] (some parent)

theorem emptyDirBlock_lengths (junk : Buffer) : recordLength (emptyDirBlock junk) 0 = 12 ∧
    nameLength (emptyDirBlock junk) 0 = 1 ∧ recordLength (emptyDirBlock junk) 12 = 500 ∧
    nameLength (emptyDirBlock junk) 12 = 2 := by
  have hb : emptyDirBlock junk = setBytes 20 [46, 46, 0] (setShort 16 500 (setShort 18 2 (setInt 12 2
    (setBytes 8 [46, 0] (setShort 4 12 (setShort 6 1 (setInt 0 2 junk))))))) := rfl
  unfold recordLength nameLength
  rw [hb]
  refine ⟨?_, ?_, ?_, ?_⟩ <;>
    simp (disch := decide) only [Int.reduceAdd, short_setBytes_of_disjoint, short_setShort_of_disjoint,
      short_setInt_of_disjoint, short_setShort_self]

variable {current parent : Int}

theorem newRecords (junk : Buffer) (hc : FileNumber current) (hp : FileNumber parent) :
    ∃ b, writeNewDirectory junk current parent = ⟨b, 512⟩ ∧
      (recordLength b 0 = 12 ∧ Record b 0 ∧ view b 0 = some ([46], current)) ∧
      recordLength b 12 = 500 ∧ Record b 12 ∧ view b 12 = some ([46, 46], parent) := by
  obtain ⟨hlen₀, hname₀, hlen₁, hname₁⟩ := emptyDirBlock_lengths junk
  obtain ⟨e, he⟩ : ∃ e, e = emptyDirBlock junk := ⟨_, rfl⟩
  have hbytes : (e 8 = 46 ∧ e 9 = 0) ∧ e 20 = 46 ∧ e 21 = 46 ∧ e 22 = 0 := he ▸ ⟨⟨rfl, rfl⟩, rfl, rfl, rfl⟩
  rw [← he] at hlen₀ hname₀ hlen₁ hname₁
  -- the numbers are written over those of the empty directory, and the rest stays
  have hkeep : ∀ j, 4 ≤ j ∧ j + 2 ≤ 12 ∨ 16 ≤ j → short (setInt 12 parent (setInt 0 current e)) j = short e j := fun j hj => by
    rw [short_setInt_of_disjoint (by omega), short_setInt_of_disjoint (by omega)]
  have hbyte : ∀ k, 4 ≤ k ∧ k < 12 ∨ 16 ≤ k → setInt 12 parent (setInt 0 current e) k = e k := fun k hk => by
    rw [setInt_of_outside (by omega), setInt_of_outside (by omega)]
  have hnum₀ : fileNumber (setInt 12 parent (setInt 0 current e)) 0 = current :=
    (int_setInt_of_disjoint (by decide) _ _).trans (int_setInt_self hc.low hc.high _ _)
  have hlen₇ : recordLength (setInt 0 current e) 0 = 12 := (short_setInt_of_disjoint (by decide) _ _).trans hlen₀
  rw [recordLength, ← hkeep _ (by decide)] at hlen₀ hlen₁
  rw [nameLength, ← hkeep _ (by decide)] at hname₀ hname₁
  rw [← hbyte 8 (by decide), ← hbyte 9 (by decide), ← hbyte 20 (by decide), ← hbyte 21 (by decide),
    ← hbyte 22 (by decide)] at hbytes
  obtain ⟨hb₀, hb₁, hb₂⟩ := hbytes
  refine ⟨setInt 12 parent (setInt 0 current e), ?_, ⟨hlen₀, ?_⟩, hlen₁, ?_⟩
  · unfold writeNewDirectory
    dsimp only
    rw [← he, hlen₇]
    rfl
  · refine record_of hnum₀ hc.notZero hname₀ ?_ ?_ ⟨fun h => (by cases h), dot_ne_zero⟩ ?_ ?_
    · simpa [bytesFrom, range_succ] using hb₀.1
    · exact hb₀.2
    · exact Int.le_trans (by decide) (Int.le_of_eq hlen₀.symm)
    · exact Int.le_trans (Int.le_of_eq (congrArg _ hlen₀)) (by decide)
  · refine record_of (int_setInt_self hp.low hp.high _ _) hp.notZero hname₁ ?_ ?_ ⟨fun h => (by cases h), dotDot_ne_zero⟩ ?_ ?_
    · simpa [bytesFrom, range_succ] using ⟨hb₁, hb₂.1⟩
    · exact hb₂.2
    · exact Int.le_trans (by decide) (Int.le_of_eq hlen₁.symm)
    · exact Int.le_trans (Int.le_of_eq (congrArg _ hlen₁)) (by decide)

theorem newDirectory (junk : Buffer) (hc : FileNumber current) (hp : FileNumber parent) :
    Represents (writeNewDirectory junk current parent) [0, 12] (newMap current parent) := by
  obtain ⟨b, hb, ⟨hlen₀, hrec₀, hview₀⟩, hlen₁, hrec₁, hview₁⟩ := newRecords junk hc hp
  have hentries : entries b [0, 12] = [([46], current), ([46, 46], parent)] := by
    unfold entries
    rw [filterMap_cons, hview₀, filterMap_cons, hview₁, filterMap_nil]
  have htiled : Tiled b [0, 12] 0 512 := by
    refine ⟨rfl, hrec₀, ?_⟩
    rw [hlen₀]
    refine ⟨rfl, hrec₁, ?_⟩
    change Tiled b [] (12 + recordLength b 12) 512
    rw [hlen₁]
    rfl
  rw [hb]
  refine ⟨htiled, rfl, ?_⟩
  · rw [hentries]
    have hnone : Binds ([] ++ []) fun _ => none := ⟨nodup_nil, fun _ _ => by simp⟩
    have hdot : Binds ([([46], current)] ++ []) (update (fun _ => none) [46] (some current)) := hnone.insert rfl
    exact hdot.insert rfl

/-- Successful calls of InsertComponent and DeleteComponent. A name inserted was not found before. -/
inductive Run (max : Nat) : Directory → (Name → Option Int) → Prop
  | new (junk : Buffer) (current parent : Int) : FileNumber current → FileNumber parent →
      Run max (writeNewDirectory junk current parent) (newMap current parent)
  | insert {d d' : Directory} {m : Name → Option Int} (component : Name) (number off : Int) : Run max d m →
      Component max component → FileNumber number → m component = none →
      d.insertComponent component number = some (d', off) → Run max d' (update m component (some number))
  | delete {d d' : Directory} {m : Name → Option Int} (component : Name) (off : Option Int) : Run max d m →
      Component max component → d.deleteComponent component = some (off, d') →
      Run max d' (update m component none)

theorem Run.represents {d : Directory} {m : Name → Option Int} (hmax : dirRecLength max ≤ dirBlockSize)
    (h : Run max d m) : ∃ rs, Represents d rs m := by
  induction h with
  | new junk current parent hc hp => exact ⟨_, newDirectory junk hc hp⟩
  | insert component number off _ hcomp hnum hm hins ih =>
    obtain ⟨rs, hr⟩ := ih
    obtain ⟨off', d', rs', heq, hr'⟩ := hr.insert hm ⟨hcomp.notEmpty, hcomp.noNul⟩
      (hcomp.fits hmax) hnum.notZero hnum.low hnum.high
    rw [hins, Option.some.injEq, Prod.mk.injEq] at heq
    rw [heq.1]
    exact ⟨rs', hr'⟩
  | delete component off _ hcomp hdel ih =>
    obtain ⟨rs, hr⟩ := ih
    obtain ⟨off', d', rs', heq, -, -, hr'⟩ := hr.delete hcomp.noNul
    rw [hdel, Option.some.injEq, Prod.mk.injEq] at heq
    rw [heq.2]
    exact ⟨rs', hr'⟩

end SpriteKernel.Fslcl
