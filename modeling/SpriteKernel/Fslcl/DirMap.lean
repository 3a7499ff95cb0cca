import SpriteKernel.Fslcl.Update
import Mathlib.Data.List.Nodup
import Mathlib.Logic.Function.Basic

/- A directory is a finite map from names to file numbers. -/
namespace SpriteKernel.Fslcl

open Function List
open Bytes

/-- A list of bindings, one for each name, and the map that it is. -/
structure Binds (es : List (Name × Int)) (m : Name → Option Int) : Prop where
  distinct : (es.map Prod.fst).Nodup
  bound : ∀ name number, m name = some number ↔ (name, number) ∈ es

namespace Binds
variable {l r : List (Name × Int)} {m : Name → Option Int} {name : Name} {number : Int}

theorem not_mem (h : Binds l m) (hm : m name = none) (k : Int) : (name, k) ∉ l := by
  intro hk
  rw [(h.bound name k).2 hk] at hm
  nomatch hm

theorem insert (h : Binds (l ++ r) m) (hm : m name = none) :
    Binds (l ++ (name, number) :: r) (update m name (some number)) := by
  have hnew : name ∉ (l ++ r).map Prod.fst := by
    intro hn
    obtain ⟨⟨n', k⟩, hk, rfl⟩ := mem_map.1 hn
    exact h.not_mem hm k hk
  have hperm : (l ++ (name, number) :: r).Perm ((name, number) :: (l ++ r)) := perm_middle
  constructor
  · rw [(hperm.map Prod.fst).nodup_iff, map_cons]
    exact nodup_cons.2 ⟨hnew, h.distinct⟩
  · intro n' k
    rw [hperm.mem_iff, mem_cons, Prod.mk.injEq]
    by_cases hn : n' = name
    · subst hn
      rw [update_self, Option.some.injEq]
      constructor
      · exact fun hk => .inl ⟨rfl, hk.symm⟩
      · rintro (⟨-, hk⟩ | hk)
        · exact hk.symm
        · exact absurd hk (h.not_mem hm k)
    · rw [update_of_ne hn, h.bound]
      simp [hn]

theorem erase (h : Binds (l ++ (name, number) :: r) m) : Binds (l ++ r) (update m name none) := by
  have hperm : (l ++ (name, number) :: r).Perm ((name, number) :: (l ++ r)) := perm_middle
  have hd := h.distinct
  rw [(hperm.map Prod.fst).nodup_iff, map_cons] at hd
  obtain ⟨hnew, hd⟩ := nodup_cons.1 hd
  refine ⟨hd, fun n' k => ?_⟩
  by_cases hn : n' = name
  · subst hn
    rw [update_self]
    constructor
    · nofun
    · exact fun hk => absurd (mem_map.2 ⟨(n', k), hk, rfl⟩) hnew
  · rw [update_of_ne hn, h.bound, hperm.mem_iff, mem_cons, Prod.mk.injEq]
    simp [hn]

end Binds

/-- A directory file, its records, and the map that it is. -/
structure Represents (d : Directory) (rs : List Int) (m : Name → Option Int) : Prop where
  tiled : Tiled d.data rs 0 d.size
  chunks : d.size % dirBlockSize = 0
  binds : Binds (entries d.data rs) m

/-! ## How the walks compare names -/

variable {b : Buffer} {p number : Int} {component : Name}

theorem sameChars_iff : sameChars component b p = true ↔ bytesFrom b p component.length = component := by
  induction component generalizing p with
  | nil => simp [sameChars, bytesFrom]
  | cons c cs ih =>
    have hcons : bytesFrom b p (c :: cs).length = b p :: bytesFrom b (p + 1) cs.length := by
      simp only [bytesFrom, length_cons, range_succ_eq_map, map_cons, map_map]
      congr 1
      · exact congrArg b (Int.add_zero p)
      apply map_congr_left
      intro k _
      simp only [Function.comp]
      congr 1
      omega
    unfold sameChars
    rw [hcons, List.cons.injEq]
    split_ifs with hc
    · rw [ih]
      exact ⟨fun h => ⟨hc.symm, h⟩, fun h => h.2⟩
    · exact ⟨fun h => (by cases h), fun h => absurd h.1.symm hc⟩

theorem strcmpEq_iff : strcmpEq component b p = true ↔ sameChars component b p = true ∧ b (p + component.length) = 0 := by
  induction component generalizing p with
  | nil => simp [strcmpEq, sameChars]
  | cons c cs ih =>
    have hend : p + ((c :: cs).length : Int) = p + 1 + cs.length := by
      simp only [length_cons]
      omega
    unfold strcmpEq sameChars
    rw [hend]
    split_ifs with hc
    · exact ih
    · simp

theorem view_some : view b p = some (component, number) ↔
    fileNumber b p ≠ 0 ∧ fileNumber b p = number ∧ bytesFrom b (p + 8) (nameLength b p).toNat = component := by
  unfold view
  split_ifs with h
  · simp [h, and_comm]
  · simp [h]

theorem view_iff (hr : Record b p) : view b p = some (component, fileNumber b p) ↔
    fileNumber b p ≠ 0 ∧ nameLength b p = component.length ∧ sameChars component b (p + 8) = true := by
  rw [view_some, sameChars_iff]
  constructor
  · rintro ⟨hu, -, hbytes⟩
    have hlen : (component.length : Int) = nameLength b p := by
      rw [← hbytes]
      simp only [bytesFrom, length_map, length_range]
      exact Int.toNat_of_nonneg (Int.le_trans (by decide) (hr.named hu))
    refine ⟨hu, hlen.symm, ?_⟩
    rw [← hlen, Int.toNat_natCast] at hbytes
    exact hbytes
  · rintro ⟨hu, hlen, hbytes⟩
    rw [hlen, Int.toNat_natCast]
    exact ⟨hu, rfl, hbytes⟩

theorem mem_bytesFrom {i : Int} {n : Nat} {k : Int} (h0 : i ≤ k) (hk : k < i + n) : b k ∈ bytesFrom b i n := by
  refine mem_map.2 ⟨(k - i).toNat, mem_range.2 (by omega), ?_⟩
  congr 1
  omega

theorem dot_ne_zero : ∀ c ∈ ([46] : Name), c ≠ 0 := forall_mem_singleton.2 (by decide)

theorem dotDot_ne_zero : ∀ c ∈ ([46, 46] : Name), c ≠ 0 := forall_mem_cons.2 ⟨by decide, dot_ne_zero⟩

theorem strcmp_iff (hr : Record b p) (hu : fileNumber b p ≠ 0) (hc : ∀ c ∈ component, c ≠ 0) :
    strcmpEq component b (p + 8) = true ↔ view b p = some (component, fileNumber b p) := by
  rw [view_iff hr, strcmpEq_iff]
  obtain ⟨n, hn⟩ : ∃ n : Nat, nameLength b p = n :=
    ⟨_, (Int.toNat_of_nonneg (Int.le_trans (by decide) (hr.named hu))).symm⟩
  have hnul := hr.nul hu
  have hchars := hr.chars hu
  rw [hn] at hnul hchars ⊢
  constructor
  · rintro ⟨hs, h0⟩
    refine ⟨hu, ?_, hs⟩
    rw [sameChars_iff] at hs
    rcases Nat.lt_trichotomy component.length n with hlt | heq | hgt
    · exact absurd h0 (hchars _ (mem_bytesFrom (by omega) (by omega)))
    · rw [heq]
    · refine absurd hnul (hc _ ?_)
      rw [← hs]
      exact mem_bytesFrom (by omega) (by omega)
  · rintro ⟨-, hlen, hs⟩
    refine ⟨hs, ?_⟩
    rw [← hlen]
    exact hnul

namespace Represents
variable {d : Directory} {rs : List Int} {m : Name → Option Int}

section
variable (h : Represents d rs m)
include h

theorem bound_of_view {r : Int} (hr : r ∈ rs) (hv : view d.data r = some (component, number)) :
    m component = some number :=
  (h.binds.bound component number).2 (mem_filterMap.2 ⟨r, hr, hv⟩)

theorem view_of_bound (hm : m component = some number) : ∃ r ∈ rs, view d.data r = some (component, number) :=
  mem_filterMap.1 ((h.binds.bound component number).1 hm)

theorem find (component : Name) :
    ∃ found, d.findComponent component = some found ∧ found.map Prod.fst = m component := by
  have hs := search_eq (fun p => recordLength d.data p ≤ 0 ∨
    (fileNumber d.data p ≠ 0 ∧ nameLength d.data p = component.length ∧ sameChars component d.data (p + 8) = true))
    h.tiled h.chunks
  have hview : ∀ r ∈ rs, 0 < recordLength d.data r ∧
      (view d.data r = some (component, fileNumber d.data r) ↔ fileNumber d.data r ≠ 0 ∧
        nameLength d.data r = component.length ∧ sameChars component d.data (r + 8) = true) := by
    intro r hr
    have hrec := (h.tiled.record hr).1
    exact ⟨Int.lt_of_lt_of_le (by decide) hrec.header, view_iff hrec⟩
  unfold Directory.findComponent
  cases hf : firstStop d.data _ rs none with
  | none =>
    rw [hf] at hs
    rw [hs]
    refine ⟨none, rfl, ?_⟩
    cases hm : m component with
    | none => rfl
    | some number =>
      obtain ⟨r, hr, hv⟩ := h.view_of_bound hm
      have hstop := firstStop_none.1 hf r hr
      have hnum : number = fileNumber d.data r := (view_some.1 hv).2.1.symm
      rw [hnum] at hv
      rw [decide_eq_false_iff_not] at hstop
      exact absurd (.inr ((hview r hr).2.1 hv)) hstop
  | some found =>
    obtain ⟨r, l⟩ := found
    rw [hf] at hs
    obtain ⟨n, hs⟩ := hs
    obtain ⟨hstop, pre, post, hrs, -⟩ := firstStop_some hf
    have hr : r ∈ rs := by
      rw [hrs]
      simp
    rw [decide_eq_true_eq] at hstop
    have hpos := (hview r hr).1
    have hv := (hview r hr).2.2 (hstop.resolve_left (Int.not_le.2 hpos))
    have hat : n * fsBlockSize + (r - n * fsBlockSize) = r := by omega
    rw [hs]
    dsimp only
    rw [hat, if_neg (Int.not_le.2 hpos)]
    refine ⟨_, rfl, ?_⟩
    rw [h.bound_of_view hr hv, Option.map_some]

theorem empty :
    ∃ answer, d.directoryEmpty = some answer ∧
      (answer = true ↔ ∀ name number, m name = some number → name = [46] ∨ name = [46, 46]) := by
  have hs := search_eq (fun p => fileNumber d.data p ≠ 0 ∧
    ¬(strcmpEq [46] d.data (p + 8) = true ∨ strcmpEq [46, 46] d.data (p + 8) = true)) h.tiled h.chunks
  have hdot : ∀ r ∈ rs, fileNumber d.data r ≠ 0 →
      ∃ name, view d.data r = some (name, fileNumber d.data r) ∧
        ((strcmpEq [46] d.data (r + 8) = true ∨ strcmpEq [46, 46] d.data (r + 8) = true) ↔ name = [46] ∨ name = [46, 46]) := by
    intro r hr hu
    have hrec := (h.tiled.record hr).1
    refine ⟨_, if_pos hu, ?_⟩
    rw [strcmp_iff hrec hu dot_ne_zero, strcmp_iff hrec hu dotDot_ne_zero]
    unfold view
    rw [if_pos hu, Option.some.injEq, Option.some.injEq, Prod.mk.injEq, Prod.mk.injEq]
    simp only [and_true]
  unfold Directory.directoryEmpty
  cases hf : firstStop d.data _ rs none with
  | none =>
    rw [hf] at hs
    rw [hs]
    refine ⟨true, rfl, ⟨fun _ name number hm => ?_, fun _ => rfl⟩⟩
    obtain ⟨r, hr, hv⟩ := h.view_of_bound hm
    have hstop := firstStop_none.1 hf r hr
    rw [decide_eq_false_iff_not] at hstop
    obtain ⟨hu, hnum, -⟩ := view_some.1 hv
    obtain ⟨name', hv', hiff⟩ := hdot r hr hu
    rw [hv, Option.some.injEq, Prod.mk.injEq] at hv'
    rw [hv'.1]
    by_contra hn
    exact hstop ⟨hu, fun hcmp => hn (hiff.1 hcmp)⟩
  | some found =>
    obtain ⟨r, l⟩ := found
    rw [hf] at hs
    obtain ⟨n, hs⟩ := hs
    obtain ⟨hstop, pre, post, hrs, -⟩ := firstStop_some hf
    have hr : r ∈ rs := by
      rw [hrs]
      simp
    rw [decide_eq_true_eq] at hstop
    obtain ⟨name, hv, hiff⟩ := hdot r hr hstop.1
    rw [hs]
    refine ⟨false, rfl, ⟨nofun, fun hall => ?_⟩⟩
    exact absurd (hiff.2 (hall name _ (h.bound_of_view hr hv))) hstop.2

/-- `DeleteComponent` takes a name out of the map, or finds that it is not there. -/
theorem delete (hc : ∀ c ∈ component, c ≠ 0) :
    ∃ off d' rs', d.deleteComponent component = some (off, d') ∧ (off = none ↔ m component = none) ∧
      (off = none → d' = d) ∧ Represents d' rs' (update m component none) := by
  have hs := search_eq (fun p => fileNumber d.data p ≠ 0 ∧ nameLength d.data p = component.length ∧
    strcmpEq component d.data (p + 8) = true) h.tiled h.chunks
  have hview : ∀ r ∈ rs, (fileNumber d.data r ≠ 0 ∧ nameLength d.data r = component.length ∧
      strcmpEq component d.data (r + 8) = true) ↔ view d.data r = some (component, fileNumber d.data r) := by
    intro r hr
    have hrec := (h.tiled.record hr).1
    constructor
    · rintro ⟨hu, -, hcmp⟩
      exact (strcmp_iff hrec hu hc).1 hcmp
    · intro hv
      obtain ⟨hu, hlen, -⟩ := (view_iff hrec).1 hv
      exact ⟨hu, hlen, (strcmp_iff hrec hu hc).2 hv⟩
  unfold Directory.deleteComponent
  cases hf : firstStop d.data _ rs none with
  | none =>
    rw [hf] at hs
    rw [hs]
    have hm : m component = none := by
      cases hm : m component with
      | none => rfl
      | some number =>
        obtain ⟨r, hr, hv⟩ := h.view_of_bound hm
        have hstop := firstStop_none.1 hf r hr
        rw [decide_eq_false_iff_not, hview r hr, (view_some.1 hv).2.1] at hstop
        exact absurd hv hstop
    refine ⟨none, d, rs, rfl, ⟨fun _ => hm, fun _ => rfl⟩, fun _ => rfl, ?_⟩
    rw [← hm, update_eq_self]
    exact h
  | some found =>
    obtain ⟨r, l⟩ := found
    rw [hf] at hs
    obtain ⟨n, hs⟩ := hs
    obtain ⟨hstop, pre, post, rfl, hlast⟩ := firstStop_some hf
    have hr : r ∈ pre ++ r :: post := by simp
    rw [decide_eq_true_eq, hview r hr] at hstop
    have hbound := h.bound_of_view hr hstop
    have hat : n * fsBlockSize + (r - n * fsBlockSize) = r := by omega
    obtain ⟨x, hpre, hrest⟩ := Tiled.append.1 h.tiled
    obtain ⟨rfl, hrec, hpost⟩ := hrest
    have hentries : entries d.data (pre ++ r :: post) =
        entries d.data pre ++ (component, fileNumber d.data r) :: entries d.data post := by
      unfold entries
      rw [filterMap_append, filterMap_cons, hstop]
    have hbinds := h.binds
    rw [hentries] at hbinds
    rw [hs]
    dsimp only
    rw [hat]
    have hnone : l = none ∨ ∃ pre' t, pre = pre' ++ [t] ∧ l = some t ∧ (t + recordLength d.data t) % dirBlockSize ≠ 0 := by
      rcases hlast with ⟨-, hl⟩ | hl | hl
      · exact .inl hl
      · exact .inl hl
      · exact .inr hl
    rcases hnone with rfl | ⟨pre', t, rfl, rfl, hchunk⟩
    · obtain ⟨hlen, hrec', hnone, hout⟩ := deleted_record hrec rfl
      have hnew : Tiled (setInt r 0 d.data) [r] r (r + recordLength d.data r) := ⟨rfl, hrec', by rw [hlen]; rfl⟩
      obtain ⟨ht, he⟩ := Tiled.replace hpre hpost hout hnew
      refine ⟨some r, _, _, rfl, ⟨nofun, fun hm => ?_⟩, nofun, ⟨ht, h.chunks, ?_⟩⟩
      · rw [hbound] at hm
        nomatch hm
      · have hone : entries (setInt r 0 d.data) [r] = [] := by
          unfold entries
          rw [filterMap_cons, hnone, filterMap_nil]
        change Binds (entries (setInt r 0 d.data) (pre ++ ([r] ++ post))) _
        rw [he, hone, nil_append]
        exact hbinds.erase
    · obtain ⟨x, hpre', htrec⟩ := Tiled.append.1 hpre
      obtain ⟨rfl, htrec, hnext⟩ := htrec
      simp only [Tiled] at hnext
      have hat' : n * fsBlockSize + (t - n * fsBlockSize) = t := by omega
      rw [hnext] at hchunk
      obtain ⟨hend, hrec', hsame, hout⟩ := grown_record htrec hrec hnext hchunk rfl
      generalize hc' : setShort (t + 4) (recordLength d.data t + recordLength d.data r) (setInt r 0 d.data) = c
        at hend hrec' hsame hout
      have hnew : Tiled c [t] t (r + recordLength d.data r) := ⟨rfl, hrec', hend⟩
      obtain ⟨ht, he⟩ := Tiled.replace hpre' hpost hout hnew
      have hdata : recordLength (setInt r 0 d.data) t = recordLength d.data t ∧
          recordLength (setInt r 0 d.data) r = recordLength d.data r := by
        have h8 := htrec.header
        constructor
        · apply short_congr
          intro k _ hk
          exact setInt_of_outside (by omega) _ _
        · apply short_congr
          intro k hk _
          exact setInt_of_outside (by omega) _ _
      refine ⟨some r, ⟨c, d.size⟩, _, ?_, ⟨nofun, fun hm => ?_⟩, nofun, ⟨ht, h.chunks, ?_⟩⟩
      · simp only [Option.map_some, hat', hdata, hc']
      · rw [hbound] at hm
        nomatch hm
      · have hone : entries c [t] = entries d.data [t] := by
          unfold entries
          rw [filterMap_cons, hsame, filterMap_cons, filterMap_nil, filterMap_nil]
        have hpre'' : entries d.data (pre' ++ [t]) = entries d.data pre' ++ entries d.data [t] := filterMap_append
        rw [he, hone, ← append_assoc, ← hpre'']
        exact hbinds.erase

end

theorem fileNumber_zero (h : ∀ k, p ≤ k → k < p + 4 → b k = 0) : fileNumber b p = 0 := by
  have hbyte : (0 : UInt8).toNat = 0 := by decide
  have hword : word (fun _ => 0) p = 0 := by
    unfold word
    simp only [hbyte, Nat.zero_mul, Nat.add_zero]
  have hzero : fileNumber (fun _ => 0) p = 0 := by
    unfold fileNumber int
    rw [hword]
    decide
  rw [← hzero]
  exact int_congr h

theorem insert (h : Represents d rs m) (hm : m component = none) (hplain : Plain component)
    (hfits : dirRecLength component.length ≤ dirBlockSize) (h0 : number ≠ 0) (hlo : -2147483648 ≤ number)
    (hhi : number < 2147483648) :
    ∃ off d' rs', d.insertComponent component number = some (d', off) ∧
      Represents d' rs' (update m component (some number)) := by
  have htiled : Tiled d.data rs (0 * fsBlockSize) d.size := by
    exact h.tiled
  have hfuel : d.size - 0 * fsBlockSize + fsBlockSize < ((d.size / fsBlockSize).toNat + 2 : Nat) * fsBlockSize := by
    simp only [fsBlockSize]
    omega
  have hslot := slotLoop_eq (dirRecLength component.length) htiled h.chunks hfuel
  unfold Directory.insertComponent
  cases hf : firstStop d.data (hasRoom d.data (dirRecLength component.length)) rs none with
  | some found =>
    obtain ⟨r, l⟩ := found
    rw [hf] at hslot
    obtain ⟨n, hs, hend⟩ := hslot
    obtain ⟨hstop, pre, post, rfl, -⟩ := firstStop_some hf
    obtain ⟨x, hpre, hrest⟩ := Tiled.append.1 h.tiled
    obtain ⟨rfl, hrec, hpost⟩ := hrest
    have hat : n * fsBlockSize + (r - n * fsBlockSize) = r := by omega
    have hsize : max d.size (n * fsBlockSize + d.blockLength n) = d.size := by omega
    have hentries : entries d.data (pre ++ r :: post) =
        (entries d.data pre ++ entries d.data [r]) ++ entries d.data post := by
      unfold entries
      rw [← filterMap_append, ← filterMap_append]
      simp
    have hbinds := h.binds
    rw [hentries] at hbinds
    rw [hs]
    dsimp only
    rw [hat, hsize]
    unfold hasRoom at hstop
    by_cases hu : fileNumber d.data r = 0
    · rw [if_neg fun hn => hn hu, decide_eq_true_eq] at hstop
      rw [splitSlot_free hu]
      obtain ⟨hnew, he, hout⟩ := fill_tiled hrec hplain hstop h0 hlo hhi
      obtain ⟨ht, he'⟩ := Tiled.replace hpre hpost hout hnew
      refine ⟨_, _, _, rfl, ⟨ht, h.chunks, ?_⟩⟩
      have hone : entries d.data [r] = [] := by
        have hview : view d.data r = none := if_neg fun hn => hn hu
        unfold entries
        rw [filterMap_cons, hview, filterMap_nil]
      rw [hone, append_nil] at hbinds
      rw [he', he]
      exact hbinds.insert hm
    · rw [if_pos hu, decide_eq_true_eq] at hstop
      obtain ⟨⟨c, q⟩, hsplit⟩ : ∃ x, splitSlot d.data r = x := ⟨_, rfl⟩
      obtain ⟨hnew, he, hout⟩ := split_tiled hrec hu hplain hstop h0 hlo hhi hsplit
      obtain ⟨ht, he'⟩ := Tiled.replace hpre hpost hout hnew
      rw [hsplit]
      refine ⟨_, _, _, rfl, ⟨ht, h.chunks, ?_⟩⟩
      rw [he', he, append_assoc, ← append_assoc]
      exact hbinds.insert hm
  | none =>
    rw [hf] at hslot
    obtain ⟨n, data, hs, hsame, hzero⟩ := hslot
    obtain ⟨b, hb⟩ : ∃ b, b = setShort (d.size + 4) dirBlockSize data := ⟨_, rfl⟩
    have hat : n * fsBlockSize + (d.size - n * fsBlockSize) = d.size := by omega
    have hsize : max d.size (n * fsBlockSize + (d.size - n * fsBlockSize + dirBlockSize)) = d.size + dirBlockSize := by
      simp only [dirBlockSize]
      omega
    have hbefore : ∀ k, k < d.size → b k = d.data k := by
      intro k hk
      rw [hb, setShort_of_outside (.inl (by omega))]
      exact hsame k hk
    have hnew : ∀ k, d.size ≤ k → k < d.size + 4 → b k = 0 := by
      intro k h1 h2
      rw [hb, setShort_of_outside (.inl h2)]
      exact hzero k h1 (by simp only [dirBlockSize]; omega)
    have hlen : recordLength b d.size = dirBlockSize := by
      rw [hb]
      exact short_setShort_self (by decide) (by decide) _ _
    have hnum : fileNumber b d.size = 0 := fileNumber_zero hnew
    have hrec : Record b d.size := by
      refine ⟨?_, ?_, fun hu => absurd hnum hu, fun hu => absurd hnum hu, fun hu => absurd hnum hu,
        fun hu => absurd hnum hu⟩
      · rw [hlen]
        decide
      · rw [hlen, h.chunks]
        decide
    obtain ⟨hlist, hentries⟩ := h.tiled.congr (c := b) fun k _ hk => hbefore k hk
    obtain ⟨hone, he, hout⟩ := fill_tiled hrec hplain (hlen ▸ hfits) h0 hlo hhi
    rw [hlen] at hone hout
    have hnil : Tiled b [] (d.size + dirBlockSize) (d.size + dirBlockSize) := rfl
    obtain ⟨ht, he'⟩ := Tiled.replace hlist hnil hout hone
    rw [hs, ← hb]
    dsimp only
    rw [hat, hsize, splitSlot_free hnum]
    refine ⟨_, _, _, rfl, ⟨ht, ?_, ?_⟩⟩
    · have hc := h.chunks
      simp only [dirBlockSize] at hc ⊢
      omega
    · have hempty : entries b [] = [] := filterMap_nil
      have hbinds := h.binds
      rw [he', he, hempty, hentries]
      rw [← append_nil (entries d.data rs)] at hbinds
      exact hbinds.insert hm

end Represents

end SpriteKernel.Fslcl
