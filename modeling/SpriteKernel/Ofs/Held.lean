import SpriteKernel.Ofs.Count
import Mathlib.Data.List.Perm.Basic

/- That no space of the disk is given out twice. -/
namespace SpriteKernel.Ofs

open List

namespace Domain
variable {g : Header} {start s s' : Domain} {p q : Frag} {held rest : List Frag} {k : Nat} {hashSeed : Int}

def Apart (p q : Frag) : Prop := ∀ n f, ¬ (p.Has n f ∧ q.Has n f)

theorem Apart.symm (h : Apart p q) : Apart q p := fun n f hboth => h n f hboth.symm

/-- What has been given out: each piece in one block, no two in common, together the bits that were set. -/
structure Holds (g : Header) (start s : Domain) (held : List Frag) : Prop where
  fits : ∀ p ∈ held, p.Fits ∧ p.block < g.total
  apart : held.Pairwise Apart
  bits : ∀ n, ∀ f < 4, (s.bit g n f = true ↔ start.bit g n f = true ∨ ∃ p ∈ held, p.Has n f)
  fresh : ∀ p ∈ held, ∀ n, ∀ f < 4, p.Has n f → start.bit g n f = false

namespace Holds

section
variable (h : Holds g start s held)
include h

theorem perm (hperm : held.Perm rest) : Holds g start s rest := by
  refine ⟨fun p hp => h.fits p (hperm.mem_iff.2 hp), ?_, fun n f hf => ?_, fun p hp => h.fresh p (hperm.mem_iff.2 hp)⟩
  · exact (hperm.pairwise_iff fun hpq => hpq.symm).1 h.apart
  · rw [h.bits n f hf]
    constructor
    · rintro (hstart | ⟨p, hp, hhas⟩)
      · exact .inl hstart
      · exact .inr ⟨p, hperm.mem_iff.1 hp, hhas⟩
    · rintro (hstart | ⟨p, hp, hhas⟩)
      · exact .inl hstart
      · exact .inr ⟨p, hperm.mem_iff.2 hp, hhas⟩

theorem first (hp : p ∈ held) : Holds g start s (p :: held.erase p) := h.perm (perm_cons_erase hp)

theorem congr (hbitmap : s'.bitmap = s.bitmap) : Holds g start s' held :=
  ⟨h.fits, h.apart, fun n f hf => by rw [bit_congr hbitmap]; exact h.bits n f hf, h.fresh⟩

end

theorem within (hfits : p.Fits) {n f : Nat} (hhas : p.Has n f) : f < 4 := by
  have hle := hfits.2
  have hlt := hhas.2.2
  omega

theorem took (h : Holds g start s held) (htook : Took g p s s') : Holds g start s' (p :: held) := by
  have hclear : ∀ n, ∀ f < 4, p.Has n f → s.bit g n f = false := by
    rintro n f hf hhas
    have hblock := hhas.1
    subst hblock
    exact htook.clear f hf hhas
  refine ⟨?_, pairwise_cons.2 ⟨?_, h.apart⟩, ?_, ?_⟩
  · intro q hq
    rcases mem_cons.1 hq with rfl | hq
    · exact ⟨htook.fits, htook.block⟩
    · exact h.fits q hq
  · rintro q hq n f ⟨hhas, hhas'⟩
    have hf := within htook.fits hhas
    have hset := (h.bits n f hf).2 (.inr ⟨q, hq, hhas'⟩)
    rw [hclear n f hf hhas] at hset
    cases hset
  · intro n f hf
    rw [htook.sets.bits n f hf, Bool.or_eq_true, h.bits n f hf, decide_eq_true_eq, or_assoc]
    simp only [exists_mem_cons_iff, or_comm]
  · intro q hq n f hf hhas
    rcases mem_cons.1 hq with rfl | hq
    · have hbit := hclear n f hf hhas
      by_contra hstart
      rw [(h.bits n f hf).2 (.inl (Bool.not_eq_false _ ▸ hstart))] at hbit
      cases hbit
    · exact h.fresh q hq n f hf hhas

theorem gave (h : Holds g start s (p :: rest)) (hgave : Gave g p s s') : Holds g start s' rest := by
  obtain ⟨happart, hrest⟩ := pairwise_cons.1 h.apart
  refine ⟨fun q hq => h.fits q (mem_cons_of_mem _ hq), hrest, ?_, fun q hq => h.fresh q (mem_cons_of_mem _ hq)⟩
  intro n f hf
  rw [hgave.clears.bits n f hf, Bool.and_eq_true, h.bits n f hf, Bool.not_eq_true', decide_eq_false_iff_not]
  constructor
  · rintro ⟨hstart | ⟨q, hq, hhas⟩, hnot⟩
    · exact .inl hstart
    · rcases mem_cons.1 hq with rfl | hq
      · exact absurd hhas hnot
      · exact .inr ⟨q, hq, hhas⟩
  · rintro (hstart | ⟨q, hq, hhas⟩)
    · refine ⟨.inl hstart, fun hhas => ?_⟩
      rw [h.fresh p mem_cons_self n f hf hhas] at hstart
      cases hstart
    · exact ⟨.inr ⟨q, mem_cons_of_mem _ hq, hhas⟩, fun hhas' => happart q hq n f ⟨hhas', hhas⟩⟩

theorem set (h : Holds g start s held) (hp : p ∈ held) {f : Nat} (hf : f < 4) (hhas : p.Has p.block f) :
    s.bit g p.block f = true := (h.bits _ f hf).2 (.inr ⟨p, hp, hhas⟩)

end Holds

/-- The first fragments of a piece, and the others. -/
def Frag.head (p : Frag) (k : Nat) : Frag := ⟨p.block, p.offset, k⟩
def Frag.tail (p : Frag) (k : Nat) : Frag := ⟨p.block, p.offset + k, p.size - k⟩

theorem Frag.has_iff (hk : k ≤ p.size) (n f : Nat) : p.Has n f ↔ (p.head k).Has n f ∨ (p.tail k).Has n f := by
  simp only [Frag.Has, Frag.head, Frag.tail]
  omega

theorem Frag.head_apart (p : Frag) (k : Nat) : Apart (p.tail k) (p.head k) := by
  rintro n f ⟨⟨-, hlo, -⟩, -, -, hhi⟩
  exact absurd hhi (Nat.not_lt.2 hlo)

theorem Frag.head_fits (h : p.Fits) (hpos : 0 < k) (hk : k ≤ p.size) : (p.head k).Fits := by
  have hle := h.2
  exact ⟨hpos, by show p.offset + k ≤ 4; omega⟩

theorem Frag.tail_fits (h : p.Fits) (hk : k < p.size) : (p.tail k).Fits := by
  have hle := h.2
  exact ⟨by show 0 < p.size - k; omega, by show p.offset + k + (p.size - k) ≤ 4; omega⟩

theorem Holds.parts (hfits : p.Fits) (hpos : 0 < k) (hk : k < p.size) :
    Holds g start s (p :: rest) ↔ Holds g start s (p.tail k :: p.head k :: rest) := by
  have hiff := p.has_iff (Nat.le_of_lt hk)
  constructor
  · intro h
    obtain ⟨happart, hrest⟩ := pairwise_cons.1 h.apart
    refine ⟨?_, pairwise_cons.2 ⟨?_, pairwise_cons.2 ⟨?_, hrest⟩⟩, fun n f hf => ?_, ?_⟩
    · have hp := (h.fits p mem_cons_self).2
      simp only [forall_mem_cons]
      exact ⟨⟨Frag.tail_fits hfits hk, hp⟩, ⟨Frag.head_fits hfits hpos (Nat.le_of_lt hk), hp⟩,
        fun q hq => h.fits q (mem_cons_of_mem _ hq)⟩
    · simp only [forall_mem_cons]
      exact ⟨p.head_apart k, fun q hq n f hboth => happart q hq n f ⟨(hiff n f).2 (.inr hboth.1), hboth.2⟩⟩
    · exact fun q hq n f hboth => happart q hq n f ⟨(hiff n f).2 (.inl hboth.1), hboth.2⟩
    · rw [h.bits n f hf]
      simp only [exists_mem_cons_iff, hiff n f, or_assoc, or_left_comm]
    · have hfresh := h.fresh p mem_cons_self
      simp only [forall_mem_cons]
      exact ⟨fun n f hf hhas => hfresh n f hf ((hiff n f).2 (.inr hhas)), fun n f hf hhas => hfresh n f hf ((hiff n f).2 (.inl hhas)),
        fun q hq => h.fresh q (mem_cons_of_mem _ hq)⟩
  · intro h
    obtain ⟨htail, hhead⟩ := pairwise_cons.1 h.apart
    obtain ⟨happart, hrest⟩ := pairwise_cons.1 hhead
    refine ⟨?_, pairwise_cons.2 ⟨?_, hrest⟩, fun n f hf => ?_, ?_⟩
    · have hp : p.block < g.total := (h.fits (p.tail k) mem_cons_self).2
      simp only [forall_mem_cons]
      exact ⟨⟨hfits, hp⟩, fun q hq => h.fits q (mem_cons_of_mem _ (mem_cons_of_mem _ hq))⟩
    · rintro q hq n f ⟨hhas, hhas'⟩
      rcases (hiff n f).1 hhas with hin | hin
      · exact happart q hq n f ⟨hin, hhas'⟩
      · exact htail q (mem_cons_of_mem _ hq) n f ⟨hin, hhas'⟩
    · rw [h.bits n f hf]
      simp only [exists_mem_cons_iff, hiff n f, or_assoc, or_left_comm]
    · have hf₁ := h.fresh (p.tail k) mem_cons_self
      have hf₂ := h.fresh (p.head k) (mem_cons_of_mem _ mem_cons_self)
      simp only [forall_mem_cons]
      refine ⟨fun n f hf hhas => ?_, fun q hq => h.fresh q (mem_cons_of_mem _ (mem_cons_of_mem _ hq))⟩
      rcases (hiff n f).1 hhas with hin | hin
      · exact hf₂ n f hf hin
      · exact hf₁ n f hf hin

/-! Runs of the routines by the files that hold the pieces. -/

inductive Use where
  | blockFind (allocGap : Nat) (hashSeed : Int) (near : Option Nat)
  | fragFind (allocGap : Nat) (hashSeed : Int) (numFrags : Nat) (last : Option Frag)
  | blockFree (n : Nat)
  /-- All but the first fragments of a piece are freed. -/
  | fragFree (p : Frag) (keep : Nat)

/-- A piece is now so many fragments of it, and none if that is 0. -/
def resize (held : List Frag) (p : Frag) (k : Nat) : List Frag := if k = 0 then held.erase p else p.head k :: held.erase p

/-- SelectCylinderInt's cylinder: the next from the near block's on with a free block, else the last before it. -/
def Nearest (g : Header) (s : Domain) (from_ c : Nat) : Prop :=
  (from_ ≤ c ∧ ∀ c', from_ ≤ c' → c' < c → s.freeCount g c' = 0) ∨
    (c < from_ ∧ (∀ c', from_ ≤ c' → c' < g.dataCylinders → s.freeCount g c' = 0) ∧ ∀ c', c < c' → c' < from_ → s.freeCount g c' = 0)

namespace Use

/-- What a call leaves, and the pieces that are held then. -/
def step (g : Header) (s : Domain) (held : List Frag) : Use → Domain × List Frag
  | blockFind allocGap hashSeed near =>
    match s.ofsBlockFind g allocGap hashSeed near true with
    | (.block n _, s) => (s, .full n :: held)
    | (_, s) => (s, held)
  | fragFind allocGap hashSeed numFrags last =>
    match s.ofsFragFind g allocGap hashSeed numFrags last with
    | (.block n off, s) =>
      -- the caller sees whether its fragment has been made longer
      match last with
      | some p => if n = p.block ∧ off = p.offset then (s, resize held p numFrags) else (s, ⟨n, off.toNat, numFrags⟩ :: held)
      | none => (s, ⟨n, off.toNat, numFrags⟩ :: held)
    | (_, s) => (s, held)
  | blockFree n => (s.ofsBlockFree g n, held.erase (.full n))
  | fragFree p keep => (s.ofsFragFree g (p.tail keep), resize held p keep)

/-- What is given is a piece that is held, or the end of one. -/
def Legal (g : Header) (held : List Frag) : Use → Prop
  | blockFind allocGap _ near => allocGap ≤ 1 ∧ ∀ n, near = some n → n < g.total
  | fragFind allocGap _ numFrags last => allocGap ≤ 1 ∧ 0 < numFrags ∧ numFrags ≤ 3 ∧ ∀ p, last = some p → p ∈ held ∧ p.size < numFrags
  | blockFree n => .full n ∈ held
  | fragFree p keep => p ∈ held ∧ keep < p.size

def Finds (g : Header) (s : Domain) : Use → Prop
  | blockFind allocGap _ (some near) =>
    allocGap = 0 ∨ ∀ c < g.dataCylinders, 0 < s.freeCount g c → Nearest g s (near / g.blocksPerCylinder) c → SkipFits g s c near
  | _ => True

end Use

theorem selectCylinderInt_nearest (h : Counted g s) {near c : Nat} (hnear : near < g.total)
    (heq : (s.selectCylinderInt g hashSeed (some (near / g.blocksPerCylinder))).1 = some c) :
    c < g.dataCylinders ∧ 0 < s.freeCount g c ∧ Nearest g s (near / g.blocksPerCylinder) c := by
  have hstart := g.cylinder_lt hnear
  revert hstart heq
  rw [selectCylinderInt]
  generalize near / g.blocksPerCylinder = st
  intro heq hstart
  have hzero : ∀ c' < g.dataCylinders, (!decide (0 < s.cylinders c')) = true → s.freeCount g c' = 0 := by
    intro c' hc' hnot
    rw [h.cylinders c' hc', Bool.not_eq_true', decide_eq_false_iff_not] at hnot
    omega
  have hfind : (List.range' st (g.dataCylinders - st) ++ (List.range st).reverse).find? (fun i => decide (0 < s.cylinders i)) = some c := by
    revert heq
    split
    · exact fun h => by cases h
    · rename_i i hi
      exact fun h => hi.trans h
  have hpos := List.find?_some hfind
  rw [List.find?_append, Option.or_eq_some_iff] at hfind
  rcases hfind with hahead | ⟨hnone, hbehind⟩
  · obtain ⟨-, hmem, hbefore⟩ := List.find?_range'_eq_some.1 hahead
    rw [mem_range'_1] at hmem
    have hc : c < g.dataCylinders := by omega
    rw [decide_eq_true_eq, h.cylinders c hc] at hpos
    exact ⟨hc, by omega, .inl ⟨hmem.1, fun c' hle hlt => hzero c' (by omega) (hbefore c' hle hlt)⟩⟩
  · rw [List.find?_range'_eq_none] at hnone
    obtain ⟨-, i, hi, hget, hbefore⟩ := List.find?_eq_some_iff_getElem.1 hbehind
    rw [length_reverse, length_range] at hi
    simp only [getElem_reverse, getElem_range, length_range] at hget hbefore
    have hc : c < g.dataCylinders := by omega
    rw [decide_eq_true_eq, h.cylinders c hc] at hpos
    refine ⟨hc, by omega, .inr ⟨by omega, fun c' hle hlt => hzero c' hlt (hnone c' hle (by omega)), fun c' hlt hle => ?_⟩⟩
    have hnot := hbefore (st - 1 - c') (by omega)
    rw [show st - 1 - (st - 1 - c') = c' by omega] at hnot
    exact hzero c' (by omega) hnot

theorem Use.Finds.fits (h : Counted g s) {allocGap : Nat} {near : Option Nat} (hgap : allocGap ≤ 1)
    (hnear : ∀ n, near = some n → n < g.total) (hfinds : (Use.blockFind allocGap hashSeed near).Finds g s) :
    FindFits g s allocGap hashSeed near := by
  intro c hc
  rcases Nat.le_one_iff_eq_zero_or_eq_one.1 hgap with h0 | h1
  · exact .inl h0
  · refine .inr ⟨h1, fun n hn => ?_⟩
    subst hn
    obtain ⟨hlt, hpos, hnearest⟩ := selectCylinderInt_nearest h (hnear n rfl) hc
    rcases hfinds with h0 | hall
    · exact absurd h0 (by omega)
    · exact hall c hlt hpos hnearest

/-- The pieces that are held, and the counts that the routines go by. -/
structure Sound (g : Header) (start s : Domain) (held : List Frag) : Prop where
  counted : Counted g s
  holds : Holds g start s held

theorem Sound.first_used (h : Sound g start s held) (hp : p ∈ held) : Call.Used g s p := fun _ hf hhas => h.holds.set hp hf hhas

theorem Sound.step (h : Sound g start s held) {u : Use} (hlegal : u.Legal g held) (hfinds : u.Finds g s) :
    Sound g start (u.step g s held).1 (u.step g s held).2 ∧ Balanced g s (u.step g s held).1 := by
  cases u with
  | blockFind allocGap hashSeed near =>
    obtain ⟨hgap, hnear⟩ := hlegal
    rw [Use.step]
    rcases ofsBlockFind_cases h.counted hnear (hfinds.fits h.counted hgap hnear) with ⟨heq, -⟩ | ⟨n, s', heq, -, htook⟩
    · rw [heq]
      exact ⟨h, Kept.balanced (.refl h.counted)⟩
    · rw [heq]
      exact ⟨⟨htook.counted, h.holds.took htook⟩, htook.balanced⟩
  | fragFind allocGap hashSeed numFrags last =>
    obtain ⟨hgap, hpos, hsize, hlast⟩ := hlegal
    have hlast' : ∀ p, last = some p → p.Fits ∧ p.block < g.total ∧ p.size < numFrags ∧ ¬ s.BlockFree g p.block := by
      intro p hp
      obtain ⟨hmem, hlt⟩ := hlast p hp
      obtain ⟨hfits, hn⟩ := h.holds.fits p hmem
      exact ⟨hfits, hn, hlt, not_free_of_set hfits (h.first_used hmem)⟩
    rw [Use.step]
    rcases ofsFragFind_cases h.counted hashSeed hgap hpos hsize hlast' with
      ⟨s', heq, hkept⟩ | ⟨p, s', rfl, heq, htook⟩ | ⟨n, s', off, heq, htook⟩
    · rw [heq]
      exact ⟨⟨hkept.counted, h.holds.congr hkept.bitmap⟩, hkept.balanced⟩
    · rw [heq]
      simp only [and_self, if_true]
      obtain ⟨hmem, hlt⟩ := hlast p rfl
      have hfits := (h.holds.fits p hmem).1
      have hgrown : (p.head numFrags).Fits := by
        have hle : p.offset + p.size + (numFrags - p.size) ≤ 4 := htook.fits.2
        exact ⟨hpos, by show p.offset + numFrags ≤ 4; omega⟩
      refine ⟨⟨htook.counted, ?_⟩, htook.balanced⟩
      rw [resize, if_neg (Nat.pos_iff_ne_zero.1 hpos)]
      exact (Holds.parts hgrown hfits.1 hlt).2 ((h.holds.first hmem).took htook)
    · rw [heq]
      have hnew : Sound g start s' (⟨n, off, numFrags⟩ :: held) := ⟨htook.counted, h.holds.took htook⟩
      cases last with
      | none => exact ⟨hnew, htook.balanced⟩
      | some p =>
        -- its bits were clear and those of the last fragment are set
        have hother : ¬ (n = p.block ∧ (off : Int) = p.offset) := by
          rintro ⟨rfl, hoff⟩
          obtain ⟨hfits, -, -, -⟩ := hlast' p rfl
          obtain ⟨hlt, hhas⟩ := hfits.has_first
          have hset := h.first_used (hlast p rfl).1 _ hlt hhas
          rw [htook.clear _ hlt ⟨rfl, by show off ≤ _; omega, by show _ < off + numFrags; omega⟩] at hset
          cases hset
        simp only [if_neg hother]
        exact ⟨hnew, htook.balanced⟩
  | blockFree n =>
    have hmem : Frag.full n ∈ held := hlegal
    have hn := (h.holds.fits _ hmem).2
    have hgave := ofsBlockFree_gave h.counted hn fun f hf => h.holds.set hmem hf (Frag.full_has hf)
    exact ⟨⟨hgave.counted, (h.holds.first hmem).gave hgave⟩, hgave.balanced⟩
  | fragFree p keep =>
    obtain ⟨hmem, hkeep⟩ := hlegal
    obtain ⟨hfits, hn⟩ := h.holds.fits p hmem
    rw [Use.step]
    by_cases hzero : keep = 0
    · subst hzero
      have hgave : Gave g p s (s.ofsFragFree g (p.tail 0)) := ofsFragFree_gave h.counted hfits hn (h.first_used hmem)
      exact ⟨⟨hgave.counted, (h.holds.first hmem).gave hgave⟩, hgave.balanced⟩
    · rw [resize, if_neg hzero]
      have hparts := (Holds.parts hfits (Nat.pos_iff_ne_zero.2 hzero) hkeep).1 (h.holds.first hmem)
      have hgave := ofsFragFree_gave h.counted (Frag.tail_fits hfits hkeep) hn fun f hf hhas => hparts.set mem_cons_self hf hhas
      exact ⟨⟨hgave.counted, hparts.gave hgave⟩, hgave.balanced⟩

/-- What is reached by the calls of files that hold the pieces they have been given. -/
inductive Owned (g : Header) (start : Domain) : Domain → List Frag → Prop
  | start : Owned g start start []
  | step {s : Domain} {held : List Frag} {u : Use} : Owned g start s held → u.Legal g held → u.Finds g s →
      Owned g start (u.step g s held).1 (u.step g s held).2

theorem Owned.sound (h : Owned g start s held) (hcounted : Counted g start) : Sound g start s held := by
  induction h with
  | start =>
    refine ⟨hcounted, fun p hp => (nomatch hp), .nil, fun n f _ => ⟨.inl, ?_⟩, fun p hp => (nomatch hp)⟩
    rintro (hset | ⟨p, hp, -⟩)
    · exact hset
    · nomatch hp
  | step _ hlegal hfinds ih => exact (ih.step hlegal hfinds).1

theorem Owned.balanced (h : Owned g start s held) (hcounted : Counted g start) : Balanced g start s := by
  induction h with
  | start => exact Kept.balanced (.refl hcounted)
  | step hrun hlegal hfinds ih => exact ih.trans ((hrun.sound hcounted).step hlegal hfinds).2

/-- **No space is given out twice**, as long as SKIP BLOCK allocation near a block gets to a free one. -/
theorem space_given_once {bitmap : Int → Byte} {numFreeKbytes : Int}
    (h : Owned g (ofsBlockAllocInit g bitmap numFreeKbytes) s held) :
    Holds g (ofsBlockAllocInit g bitmap numFreeKbytes) s held ∧
      ∀ (allocGap : Nat) (hashSeed : Int) (near : Option Nat), (Use.blockFind allocGap hashSeed near).Legal g held →
        (Use.blockFind allocGap hashSeed near).Finds g s → s.minKFree ≤ s.numFreeKbytes - 4 →
          (∃ c < g.dataCylinders, 0 < s.freeCount g c) →
            ∃ n s', s.ofsBlockFind g allocGap hashSeed near true = (.block n (g.getBitmapPtr n), s') ∧ s.BlockFree g n := by
  have hsound := h.sound (ofsBlockAllocInit_counted bitmap numFreeKbytes).1
  refine ⟨hsound.holds, fun allocGap hashSeed near hlegal hfinds hfloor hfree => ?_⟩
  obtain ⟨hgap, hnear⟩ := hlegal
  rcases ofsBlockFind_cases hsound.counted hnear (hfinds.fits hsound.counted hgap hnear) with
    ⟨-, hlow | hnone⟩ | ⟨n, s', heq, hblock, -⟩
  · exact absurd hlow (by omega)
  · obtain ⟨c, hc, hpos⟩ := hfree
    rw [hnone c hc] at hpos
    exact absurd hpos (Nat.lt_irrefl 0)
  · exact ⟨n, s', heq, hblock⟩

/-- A file that takes blocks near its first one, each with a gap. -/
def firstUse : Use := .blockFind 1 0 none
def nearUse : Use := .blockFind 1 0 (some 3)
def oneHeld : Domain × List Frag := firstUse.step smallDisk emptyDisk []
def twoHeld : Domain × List Frag := nearUse.step smallDisk oneHeld.1 oneHeld.2
def threeHeld : Domain × List Frag := nearUse.step smallDisk twoHeld.1 twoHeld.2

theorem space_given_once_small :
    Owned smallDisk emptyDisk twoHeld.1 twoHeld.2 ∧ twoHeld.2 = [.full 5, .full 3] ∧ Holds smallDisk emptyDisk twoHeld.1 twoHeld.2 := by
  have hfirst : firstUse.Legal smallDisk [] := ⟨Nat.le_refl 1, fun _ h => nomatch h⟩
  have hnear : nearUse.Legal smallDisk oneHeld.2 := by
    refine ⟨Nat.le_refl 1, fun n hn => ?_⟩
    cases hn
    decide
  have hfinds : nearUse.Finds smallDisk oneHeld.1 := by
    refine .inr fun c hc _ hnearest => .inl ⟨2, ⟨by decide, ?_⟩, by decide⟩
    have hone : c = 1 := by
      rcases hnearest with ⟨hle, -⟩ | ⟨-, hnone, -⟩
      · exact Nat.le_antisymm (Nat.lt_succ_iff.1 hc) hle
      · exact absurd (hnone 1 (by decide) (by decide)) (by decide)
    subst hone
    decide
  have hrun : Owned smallDisk emptyDisk twoHeld.1 twoHeld.2 := .step (.step .start hfirst trivial) hnear hfinds
  exact ⟨hrun, rfl, (space_given_once hrun).1⟩

/-- **What is given back is all there**: once no file holds anything, the bitmap and every count of free space are as they
    were at first. -/
theorem nothing_leaks {bitmap : Int → Byte} {numFreeKbytes : Int}
    (h : Owned g (ofsBlockAllocInit g bitmap numFreeKbytes) s []) :
    (∀ n, ∀ f < 4, s.bit g n f = (ofsBlockAllocInit g bitmap numFreeKbytes).bit g n f) ∧
      s.numFreeKbytes = (ofsBlockAllocInit g bitmap numFreeKbytes).numFreeKbytes ∧
      ∀ c < g.dataCylinders, s.cylinders c = (ofsBlockAllocInit g bitmap numFreeKbytes).cylinders c := by
  have hcounted : Counted g _ := (ofsBlockAllocInit_counted bitmap numFreeKbytes).1
  have hbalanced := h.balanced hcounted
  have hbits : ∀ n, ∀ f < 4, s.bit g n f = (ofsBlockAllocInit g bitmap numFreeKbytes).bit g n f := fun n f hf => by
    simpa using (h.sound hcounted).holds.bits n f hf
  refine ⟨hbits, ?_, fun c hc => ?_⟩
  · have hkbytes := hbalanced.kbytes
    rw [setCount_of_bits hbits] at hkbytes
    omega
  · rw [hbalanced.counted.cylinders c hc, hcounted.cylinders c hc, freeCount_of_bits hbits]

theorem nothing_leaks_small : oneHeld.1.numFreeKbytes = 20 ∧
    (((Use.blockFree 3).step smallDisk oneHeld.1 oneHeld.2).1).numFreeKbytes = 24 :=
  have hfirst : firstUse.Legal smallDisk [] := ⟨Nat.le_refl 1, fun _ h => nomatch h⟩
  have hone : Owned smallDisk emptyDisk oneHeld.1 oneHeld.2 := .step .start hfirst trivial
  ⟨rfl, (nothing_leaks (hone.step (u := .blockFree 3) (show Frag.full 3 ∈ oneHeld.2 by decide) trivial)).2.1⟩

/-- In a cylinder of an odd number of blocks the search gives out a block that is in use. -/
theorem block_given_twice :
    firstUse.Legal smallDisk [] ∧ nearUse.Legal smallDisk oneHeld.2 ∧ nearUse.Legal smallDisk twoHeld.2 ∧
      threeHeld.2 = [.full 3, .full 5, .full 3] ∧ ¬ Holds smallDisk emptyDisk threeHeld.1 threeHeld.2 := by
  have hnear : ∀ n, some 3 = some n → n < smallDisk.total := by
    intro n hn
    cases hn
    decide
  refine ⟨⟨Nat.le_refl 1, fun _ h => nomatch h⟩, ⟨Nat.le_refl 1, hnear⟩, ⟨Nat.le_refl 1, hnear⟩, rfl, fun h => ?_⟩
  have heq : threeHeld.2 = [.full 3, .full 5, .full 3] := rfl
  have happart := (pairwise_cons.1 (heq ▸ h.apart)).1 (Frag.full 3) (mem_cons_of_mem _ mem_cons_self)
  exact happart 3 0 ⟨by decide, by decide⟩

end Domain

end SpriteKernel.Ofs
