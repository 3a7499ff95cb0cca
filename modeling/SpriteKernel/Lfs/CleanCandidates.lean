import SpriteKernel.Lfs.SegUsage
import SpriteKernel.Lib.Best
import Mathlib.Data.List.Nodup

/- Which segments `LfsGetSegsToClean` returns: as many of the dirty ones, but for the current one, as there
   is room for, those of the highest priority first. A segment that is marked both clean and dirty is
   among them. -/
namespace SpriteKernel.Lfs.SegUsage

open List

variable {u v : SegUsage} {max n : Nat} {now : Int} {held : Option SmemEntry} {segs : List SegListEntry}

/-- The dirty segments, but the current one, among the first `n` -/
def dirtySegs (u : SegUsage) (n : Nat) : List Int :=
  ((List.range n).map Int.ofNat).filter fun i => decide (i ≠ u.checkPoint.currentSegment) && (u.entry i).dirty

/-- What the array says of a segment. -/
def listed (u : SegUsage) (now segNum : Int) : SegListEntry :=
  ⟨segNum, (u.entry segNum).activeBytes, u.priorityOf now (u.entry segNum)⟩

/-- The array holds the dirty segments of the highest priorities, as they are in `u`. -/
structure Holds (max : Nat) (now : Int) (u : SegUsage) (segs : List SegListEntry) : Prop where
  length : segs.length = min max (u.dirtySegs u.params.numberSegments).length
  distinct : (segs.map SegListEntry.segNumber).Nodup
  dirty : ∀ e ∈ segs, e.segNumber ∈ u.dirtySegs u.params.numberSegments ∧ e = u.listed now e.segNumber
  sorted : segs.Pairwise fun d e => e.priority ≤ d.priority
  leftOut : ∀ i ∈ u.dirtySegs u.params.numberSegments, i ∉ segs.map SegListEntry.segNumber →
    ∀ e ∈ segs, u.priorityOf now (u.entry i) ≤ e.priority

/-! ## The scan -/

/-- The state after the first `n` segments have been looked at. -/
structure Scanned (max : Nat) (now : Int) (u : SegUsage) (n : Nat) (segs : List SegListEntry) (held : Option SmemEntry)
    (v : SegUsage) : Prop where
  params : v.params = u.params
  current : v.checkPoint.currentSegment = u.checkPoint.currentSegment
  held : ∀ e, held = some e → e.modified = false
  clean : ∀ i, (v.entry i).clean = (u.entry i).clean
  dirty : ∀ i, (v.entry i).clean = true → (v.entry i).dirty = (u.entry i).dirty
  best : ∃ all, Best.Sorted SegListEntry.priority all ∧ all.Perm ((v.dirtySegs n).map (v.listed now)) ∧ segs = all.take max

theorem fetch_unmodified {segNum : Int} (hv : u.params.validSegmentNum segNum) (hheld : ∀ e, held = some e → e.modified = false) :
    ∃ e, u.fetch segNum held = (some e, u) ∧ e.modified = false := by
  unfold fetch
  rw [if_neg (not_not.2 hv)]
  cases held with
  | none => exact ⟨⟨u.blockOf segNum, false⟩, rfl, rfl⟩
  | some e =>
    have he := hheld e rfl
    dsimp only
    split
    · exact ⟨e, rfl, he⟩
    · simp [release, he]

theorem dirtySegs_succ : u.dirtySegs (n + 1) = u.dirtySegs n ++
    if (n : Int) ≠ u.checkPoint.currentSegment ∧ (u.entry n).dirty = true then [(n : Int)] else [] := by
  unfold dirtySegs
  rw [range_succ, map_append, filter_append, map_singleton, filter_singleton]
  simp

theorem mem_dirtySegs {i : Int} : i ∈ u.dirtySegs n ↔ (0 ≤ i ∧ i < n) ∧ i ≠ u.checkPoint.currentSegment ∧ (u.entry i).dirty = true := by
  unfold dirtySegs
  rw [mem_filter]
  simp only [mem_map, mem_range, Bool.and_eq_true, decide_eq_true_eq]
  refine and_congr_left fun _ => ⟨?_, fun h => ⟨i.toNat, by omega, Int.toNat_of_nonneg h.1⟩⟩
  rintro ⟨k, hk, rfl⟩
  simp [hk]

theorem nodup_dirtySegs : (u.dirtySegs n).Nodup :=
  (List.Nodup.map (fun _ _ => Int.ofNat.inj) nodup_range).filter _

theorem dirtySegs_congr (hp : v.params = u.params) (hc : v.checkPoint.currentSegment = u.checkPoint.currentSegment)
    (he : ∀ i : Int, i < n → v.entry i = u.entry i) : (v.dirtySegs n).map (v.listed now) = (u.dirtySegs n).map (u.listed now) := by
  have hsame : v.dirtySegs n = u.dirtySegs n := by
    refine filter_congr fun i hi => ?_
    obtain ⟨k, hk, rfl⟩ := mem_map.1 hi
    rw [hc, he _ (by simpa using hk)]
  rw [hsame]
  refine map_congr_left fun i hi => ?_
  unfold listed priorityOf
  rw [hp, he i (mem_dirtySegs.1 hi).1.2]

theorem Scanned.enter {w : SegUsage} {e : SmemEntry} (h : Scanned max now u n segs held v)
    (hcur : v.checkPoint.currentSegment ≠ n) (hp : w.params = v.params) (hc : w.checkPoint.currentSegment = v.checkPoint.currentSegment)
    (hentry : ∀ i : Int, i ≠ n → w.entry i = v.entry i) (hclean : (w.entry n).clean = (v.entry n).clean)
    (hdirty : (w.entry n).clean = true → (w.entry n).dirty = (v.entry n).dirty) (he : e.modified = false) :
    Scanned max now u (n + 1) (if (w.entry n).dirty then insertByPriority max (w.listed now n) segs else segs) (some e) w := by
  have hkeep : ∀ i, (w.entry i).clean = (v.entry i).clean ∧ ((w.entry i).clean = true → (w.entry i).dirty = (v.entry i).dirty) := by
    intro i
    by_cases hi : i = n
    · rw [hi]
      exact ⟨hclean, hdirty⟩
    · rw [hentry i hi]
      exact ⟨rfl, fun _ => rfl⟩
  refine ⟨hp.trans h.params, hc.trans h.current, ?_, fun i => (hkeep i).1.trans (h.clean i), fun i hi => ?_, ?_⟩
  · rintro _ ⟨⟩
    exact he
  · exact ((hkeep i).2 hi).trans (h.dirty i ((hkeep i).1 ▸ hi))
  · obtain ⟨all, hsorted, hperm, rfl⟩ := h.best
    have hold : (w.dirtySegs n).map (w.listed now) = (v.dirtySegs n).map (v.listed now) :=
      dirtySegs_congr hp hc fun i hi => hentry i (by omega)
    rw [dirtySegs_succ, map_append, hold]
    have hne : (n : Int) ≠ w.checkPoint.currentSegment := by
      rw [hc]
      exact hcur.symm
    by_cases hd : (w.entry n).dirty = true
    · rw [if_pos hd, if_pos ⟨hne, hd⟩]
      refine ⟨Best.insert SegListEntry.priority (w.listed now n) all, hsorted.insert, ?_, hsorted.insert_take max⟩
      refine Best.perm_insert.trans ((hperm.cons _).trans ?_)
      exact (perm_append_singleton _ _).symm
    · rw [if_neg hd, if_neg fun hx => hd hx.2, map_nil, append_nil]
      exact ⟨all, hsorted, hperm, rfl⟩

theorem Scanned.considerSeg (h : Scanned max now u n segs held v) (hn : n < u.params.numberSegments) :
    ∃ segs' held' v', SegUsage.considerSeg max now n (segs, held, v) = (segs', held', v') ∧ Scanned max now u (n + 1) segs' held' v' := by
  unfold SegUsage.considerSeg
  dsimp only
  split
  next hcur =>
    -- the current segment is passed over
    refine ⟨segs, held, v, rfl, h.params, h.current, h.held, h.clean, h.dirty, ?_⟩
    rw [dirtySegs_succ, if_neg fun hx => hx.1 hcur.symm, append_nil]
    exact h.best
  next hcur =>
    have hvalid : v.params.validSegmentNum n := by
      rw [h.params]
      exact ⟨by omega, by exact_mod_cast hn⟩
    obtain ⟨e, hfetch, he⟩ := fetch_unmodified hvalid h.held
    rw [hfetch]
    refine ⟨_, _, _, rfl, ?_⟩
    split
    next hflags =>
      rw [Bool.and_eq_true, Bool.not_eq_true', Bool.or_eq_false_iff] at hflags
      refine h.enter hcur rfl rfl (fun i hi => setEntry_entry_of_ne hi _ _) ?_ (fun hcl => ?_) he
      · rw [setEntry_entry_self]
      · rw [setEntry_entry_self] at hcl
        exact absurd (hflags.1.1.symm.trans hcl) (by decide)
    next => exact h.enter hcur rfl rfl (fun _ _ => rfl) rfl (fun _ => rfl) he

theorem scanned_range (u : SegUsage) (max : Nat) (now : Int) (hn : n ≤ u.params.numberSegments) :
    ∃ segs held v, (List.range n).foldl (fun h (segNum : Nat) => SegUsage.considerSeg max now segNum h) ([], none, u) = (segs, held, v) ∧
      Scanned max now u n segs held v := by
  induction n with
  | zero =>
    refine ⟨[], none, u, rfl, rfl, rfl, ?_, fun _ => rfl, fun _ _ => rfl, [], List.Pairwise.nil, ?_, (take_nil).symm⟩
    · exact fun _ h => nomatch h
    · exact List.Perm.nil
  | succ n ih =>
    obtain ⟨segs, held, v, heq, h⟩ := ih (by omega)
    rw [range_succ, foldl_append, heq]
    exact h.considerSeg hn

/-- **The best candidates** are returned to be cleaned, each once and sorted, and no clean ones. -/
theorem segsToClean_best (u : SegUsage) (max : Nat) (now : Int) (fullClean : Bool) :
    Holds max now (u.getSegsToClean max now fullClean).2 (u.getSegsToClean max now fullClean).1.segs ∧
      ((∀ i, (u.entry i).clean = true → (u.entry i).dirty = false) → ∀ e ∈ (u.getSegsToClean max now fullClean).1.segs,
        ((u.getSegsToClean max now fullClean).2.entry e.segNumber).clean = false) := by
  obtain ⟨segs, held, v, heq, h⟩ := scanned_range u max now (Nat.le_refl u.params.numberSegments)
  have hrelease : v.releaseHeld held = v := by
    unfold releaseHeld
    split
    next e => simp [release, h.held e rfl]
    next => rfl
  have hsegs : (u.getSegsToClean max now fullClean).1.segs = segs := by
    unfold getSegsToClean
    rw [heq]
  have hleft : (u.getSegsToClean max now fullClean).2 = v := by
    unfold getSegsToClean
    rw [heq]
    exact hrelease
  rw [hsegs, hleft]
  obtain ⟨all, hsorted, hperm, rfl⟩ := h.best
  rw [← h.params] at hperm
  have hmem : ∀ e ∈ all, e.segNumber ∈ v.dirtySegs v.params.numberSegments ∧ e = v.listed now e.segNumber := by
    intro e he
    obtain ⟨i, hi, rfl⟩ := mem_map.1 (hperm.mem_iff.1 he)
    exact ⟨hi, rfl⟩
  have hnodup : (all.map SegListEntry.segNumber).Nodup := by
    have hnames := hperm.map SegListEntry.segNumber
    rw [map_map] at hnames
    exact hnames.nodup_iff.2 (List.Nodup.map (fun _ _ hij => hij) nodup_dirtySegs)
  refine ⟨⟨?_, ?_, fun e he => hmem e (mem_of_mem_take he), hsorted.sublist (take_sublist _ _), fun i hi hnot e he => ?_⟩,
    fun hboth e he => ?_⟩
  · rw [length_take, hperm.length_eq, length_map]
  · exact hnodup.sublist ((take_sublist _ _).map _)
  · have hall : v.listed now i ∈ all := hperm.mem_iff.2 (mem_map.2 ⟨i, hi, rfl⟩)
    refine hsorted.le_of_not_mem_take hall (fun hin => hnot ?_) he
    exact mem_map.2 ⟨_, hin, rfl⟩
  · have hdirty := (mem_dirtySegs.1 (hmem e (mem_of_mem_take he)).1).2.2
    refine Bool.eq_false_iff.2 fun hclean => ?_
    rw [h.dirty _ hclean, hboth _ ((h.clean _).symm.trans hclean)] at hdirty
    cases hdirty

/-- Two segments, of which the second is not the current one and has these marks. -/
def secondMarked (clean dirty : Bool) : SegUsage where
  params := ⟨12, 0, 8192, 2, 0, 1, 4, 4096⟩
  checkPoint := ⟨0, 0, 1, 0, 0, 0, 0, -1, -1⟩
  timeOfLastWrite := 0
  entry := fun i => if i = 1 then ⟨0, 0, clean, dirty⟩ else ⟨8192, 0, false, false⟩
  blockIndex := fun _ => nilDiskAddr

theorem segsToClean_best_second :
    (∀ i, ((secondMarked false true).entry i).clean = true → ((secondMarked false true).entry i).dirty = false) ∧
      ∀ e ∈ ((secondMarked false true).getSegsToClean 4 0 false).1.segs,
        (((secondMarked false true).getSegsToClean 4 0 false).2.entry e.segNumber).clean = false := by
  have hmarks : ∀ i, ((secondMarked false true).entry i).clean = true → ((secondMarked false true).entry i).dirty = false := by
    intro i hi
    simp only [secondMarked] at hi
    split at hi <;> cases hi
  exact ⟨hmarks, (segsToClean_best (secondMarked false true) 4 0 false).2 hmarks⟩

/-- A segment that is marked both clean and dirty is returned to be cleaned. -/
theorem segsToClean_best_fails :
    ¬ ∀ (u : SegUsage) (max : Nat) (now : Int) (fullClean : Bool), ∀ e ∈ (u.getSegsToClean max now fullClean).1.segs,
      ((u.getSegsToClean max now fullClean).2.entry e.segNumber).clean = false := by
  intro h
  have hclean := h (secondMarked true true) 4 0 false ⟨1, 0, 0x7fffffff⟩ (by decide)
  exact absurd hclean (by decide)

end SpriteKernel.Lfs.SegUsage
