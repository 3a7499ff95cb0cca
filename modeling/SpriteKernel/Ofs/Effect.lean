import SpriteKernel.Ofs.Find
import Mathlib.Tactic.SplitIfs

/- What the operations of ofsAlloc.c do: which bits they set or clear, and that the counts
   and the lists of fragments stay right. -/
namespace SpriteKernel.Ofs

open Function List
open Finset

namespace Domain
variable {g : Header} {s s' : Domain} {n : Nat} {p : Frag} {allocGap : Nat}

section counts

theorem Counted.change (h : Counted g s) (hoff : Off g n s s') (hlists : ∀ i, ∀ b ∈ s'.fragLists i, b < g.total)
    (hne : ∀ c, c ≠ n / g.blocksPerCylinder → s'.cylinders c = s.cylinders c)
    (hcyl : s'.cylinders (n / g.blocksPerCylinder) + (if s.BlockFree g n then 1 else 0) =
      s.cylinders (n / g.blocksPerCylinder) + if s'.BlockFree g n then 1 else 0) : Counted g s' := by
  refine ⟨fun c hc => ?_, hlists⟩
  by_cases hcn : c = n / g.blocksPerCylinder
  · have hcount := hoff.freeCount
    have hwas := h.cylinders c hc
    rw [hcn] at hwas ⊢
    split_ifs at hcount hcyl
    all_goals omega
  · rw [hne c hcn, hoff.freeCount_ne hcn]
    exact h.cylinders c hc

theorem freeCount_of_bits (h : ∀ n, ∀ f < 4, s'.bit g n f = s.bit g n f) (c : Nat) : s'.freeCount g c = s.freeCount g c := by
  apply sum_congr rfl
  intro r _
  exact if_congr (forall₂_congr fun f hf => by rw [h _ f hf]) rfl rfl

theorem freeCount_congr (h : s'.bitmap = s.bitmap) (c : Nat) : s'.freeCount g c = s.freeCount g c :=
  freeCount_of_bits (fun n f _ => bit_congr h n f) c

theorem Counted.congr (h : Counted g s) (hbitmap : s'.bitmap = s.bitmap) (hcyl : s'.cylinders = s.cylinders)
    (hlists : ∀ i, ∀ b ∈ s'.fragLists i, b < g.total) : Counted g s' := by
  refine ⟨fun c hc => ?_, hlists⟩
  rw [hcyl, h.cylinders c hc, freeCount_congr hbitmap]

theorem hints_putOnLists {saved now : Nat} (h : ∀ i, ∀ b ∈ s.fragLists i, b < g.total) (hn : n < g.total) :
    ∀ i, ∀ b ∈ (s.putOnLists n saved now).fragLists i, b < g.total := by
  intro i b hb
  rw [putOnLists] at hb
  dsimp only at hb
  split at hb
  · rcases List.mem_append.1 hb with hb | hb
    · exact h i b hb
    · rw [List.mem_singleton.1 hb]
      exact hn
  · exact h i b hb

end counts

/-- A fragment has been allocated. -/
structure Took (g : Header) (p : Frag) (s s' : Domain) : Prop where
  fits : p.Fits
  block : p.block < g.total
  clear : ∀ f < 4, p.Has p.block f → s.bit g p.block f = false
  sets : Sets g p s s'
  kbytes : s'.numFreeKbytes = s.numFreeKbytes - p.size
  floor : s'.minKFree = s.minKFree
  counted : Counted g s'

structure Gave (g : Header) (p : Frag) (s s' : Domain) : Prop where
  fits : p.Fits
  block : p.block < g.total
  set : ∀ f < 4, p.Has p.block f → s.bit g p.block f = true
  clears : Clears g p s s'
  kbytes : s'.numFreeKbytes = s.numFreeKbytes + p.size
  floor : s'.minKFree = s.minKFree
  counted : Counted g s'

/-- Neither a bit nor a count has changed. -/
structure Kept (g : Header) (s s' : Domain) : Prop where
  bitmap : s'.bitmap = s.bitmap
  kbytes : s'.numFreeKbytes = s.numFreeKbytes
  floor : s'.minKFree = s.minKFree
  counted : Counted g s'

theorem Kept.refl (h : Counted g s) : Kept g s s := ⟨rfl, rfl, rfl, h⟩

theorem Frag.Fits.has_first (h : p.Fits) : p.offset < 4 ∧ p.Has p.block p.offset := by
  obtain ⟨hpos, hle⟩ := h
  exact ⟨by omega, rfl, Nat.le_refl _, by omega⟩

theorem Sets.not_free (h : Sets g p s s') (hfits : p.Fits) : ¬ s'.BlockFree g p.block := by
  intro hfree
  obtain ⟨hlt, hhas⟩ := hfits.has_first
  have hbit := hfree _ hlt
  rw [h.bits _ _ hlt, decide_eq_true hhas, Bool.or_true] at hbit
  nomatch hbit

theorem not_free_of_set (hfits : p.Fits) (hset : ∀ f < 4, p.Has p.block f → s.bit g p.block f = true) : ¬ s.BlockFree g p.block := by
  intro hfree
  obtain ⟨hlt, hhas⟩ := hfits.has_first
  have hbit := hset _ hlt hhas
  rw [hfree _ hlt] at hbit
  cases hbit

theorem ofsBlockFind_cases (h : Counted g s) {hashSeed : Int} {near : Option Nat}
    (hnear : ∀ n, near = some n → n < g.total) (hfits : FindFits g s allocGap hashSeed near) :
    s.ofsBlockFind g allocGap hashSeed near true = (.nil, s) ∧
        (s.numFreeKbytes - 4 < s.minKFree ∨ ∀ c < g.dataCylinders, s.freeCount g c = 0) ∨
      ∃ n s', s.ofsBlockFind g allocGap hashSeed near true = (.block n (g.getBitmapPtr n), s') ∧ s.BlockFree g n ∧
        Took g (.full n) s s' := by
  rw [ofsBlockFind]
  by_cases hfloor : s.numFreeKbytes - 4 < s.minKFree
  · rw [if_pos hfloor]
    exact .inl ⟨rfl, .inl hfloor⟩
  · rw [if_neg hfloor]
    rcases findBlockInt_cases h hnear hfits true with ⟨heq, hall⟩ | ⟨n, hn, hfree, heq⟩
    · rw [heq]
      exact .inl ⟨rfl, .inr hall⟩
    · right
      obtain ⟨s₁, hs₁⟩ : ∃ s₁, s₁ = { (s.countOut (n / g.blocksPerCylinder)).setByte (g.getBitmapPtr n)
          (s.bitmap (g.getBitmapPtr n) ||| (Frag.full n).bits g) with numFreeKbytes := s.numFreeKbytes - 4 } := ⟨_, rfl⟩
      have hsets : Sets g (.full n) s s₁ := by
        rw [hs₁]
        exact sets_or (Frag.full_fits n) rfl
      have hcyl : s₁.cylinders = update s.cylinders (n / g.blocksPerCylinder) (s.cylinders (n / g.blocksPerCylinder) - 1) := by
        rw [hs₁]
        rfl
      rw [heq]
      refine ⟨n, s₁, by rw [hs₁]; rfl, hfree, Frag.full_fits n, hn, fun f hf _ => hfree f hf, hsets, ?_, ?_, ?_⟩
      · rw [hs₁]
        rfl
      · rw [hs₁]
        rfl
      · have hoff : Off g n s s₁ := hsets.off
        have hnot : ¬ s₁.BlockFree g n := hsets.not_free (Frag.full_fits n)
        refine h.change hoff ?_ (fun c hc => ?_) ?_
        · rw [hs₁]
          exact h.hints
        · rw [hcyl]
          exact update_of_ne hc _ _
        · rw [if_pos hfree, if_neg hnot, hcyl, update_self]
          omega

theorem full_masks (g : Header) (n : Nat) :
    (if g.isLower n then 0xf0#8 else 0x0f#8) = ~~~ (Frag.full n).bits g ∧ ~~~(~~~ (Frag.full n).bits g) = (Frag.full n).bits g := by
  rw [Frag.full_bits]
  split
  · decide
  · decide

theorem ofsBlockFree_gave (h : Counted g s) (hn : n < g.total) (hset : ∀ f < 4, s.bit g n f = true) :
    Gave g (.full n) s (s.ofsBlockFree g n) := by
  obtain ⟨hmask, hcheck⟩ := full_masks g n
  have hall : s.bitmap (g.getBitmapPtr n) &&& (Frag.full n).bits g = (Frag.full n).bits g :=
    (and_bits_self (Frag.full_fits n)).2 fun f hf _ => hset f hf
  have heq : s.ofsBlockFree g n =
      { s with
        numFreeKbytes := s.numFreeKbytes + 4
        cylinders := update s.cylinders (n / g.blocksPerCylinder) (s.cylinders (n / g.blocksPerCylinder) + 1)
        bitmap := (s.setByte (g.getBitmapPtr n) (s.bitmap (g.getBitmapPtr n) &&& ~~~ (Frag.full n).bits g)).bitmap } := by
    rw [ofsBlockFree]
    simp only [hmask, hcheck]
    rw [if_neg (not_not.2 hall)]
    rfl
  have hclears : Clears g (.full n) s (s.ofsBlockFree g n) := by
    rw [heq]
    exact clears_and (Frag.full_fits n) rfl
  refine ⟨Frag.full_fits n, hn, fun f hf _ => hset f hf, hclears, ?_, ?_, ?_⟩
  · rw [heq]
    rfl
  · rw [heq]
  · have hfree : (s.ofsBlockFree g n).BlockFree g n := by
      intro f hf
      rw [hclears.bits n f hf, decide_eq_true (Frag.full_has hf), Bool.not_true, Bool.and_false]
    have hwas : ¬ s.BlockFree g n := not_free_of_set (Frag.full_fits n) fun f hf _ => hset f hf
    have hoff : Off g n s (s.ofsBlockFree g n) := hclears.off
    have hcyl : (s.ofsBlockFree g n).cylinders =
        update s.cylinders (n / g.blocksPerCylinder) (s.cylinders (n / g.blocksPerCylinder) + 1) := by rw [heq]
    refine h.change hoff ?_ (fun c hc => ?_) ?_
    · rw [heq]
      exact h.hints
    · rw [hcyl]
      exact update_of_ne hc _ _
    · rw [if_neg hwas, if_pos hfree, hcyl, update_self, Int.add_zero]

section fragments
variable {numFrags : Nat}

/-- The lists that are left when some of their blocks have been taken off. -/
def Shorter (s s' : Domain) : Prop := ∃ lists, s' = { s with fragLists := lists } ∧ ∀ i, ∀ b ∈ lists i, b ∈ s.fragLists i

theorem Shorter.hints (h : Shorter s s') (hs : Counted g s) : Kept g s s' := by
  obtain ⟨lists, rfl, hsub⟩ := h
  exact ⟨rfl, rfl, rfl, hs.congr rfl rfl fun i b hb => hs.hints i b (hsub i b hb)⟩

/-- A block that a list has given has room for a fragment of its size. -/
theorem popFrag_cases {i : Nat} (hi : i < 3) {list : List Nat} (hlist : ∀ b ∈ list, b < g.total) :
    (∀ b ∈ (s.popFrag g i list).2, b ∈ list) ∧
      ∀ n off, (s.popFrag g i list).1 = some (n, off) →
        n < g.total ∧ off + i + 1 ≤ 4 ∧ (∀ f < 4, off ≤ f → f < off + i + 1 → s.bit g n f = false) ∧ ¬ s.BlockFree g n := by
  induction list with
  | nil =>
    exact ⟨fun _ h => h, fun _ _ h => nomatch h⟩
  | cons b list ih =>
    obtain ⟨hb, hrest⟩ := forall_mem_cons.1 hlist
    rw [popFrag]
    by_cases hroom : fragOffsets (g.fragMask b (s.bitmap (g.getBitmapPtr b))) i ≠ -1
    · rw [if_pos hroom]
      obtain ⟨hle, hclear, hused⟩ := fragOffsets_room hi hroom
      refine ⟨fun _ h => mem_cons_of_mem _ h, fun n off heq => ?_⟩
      cases heq
      exact ⟨hb, hle, hclear, hused⟩
    · rw [if_neg hroom]
      obtain ⟨hsub, hfound⟩ := ih hrest
      exact ⟨fun b' hb' => mem_cons_of_mem _ (hsub b' hb'), hfound⟩

theorem tryFragLists_cases (h : ∀ i, ∀ b ∈ s.fragLists i, b < g.total) {c i : Nat} (hcount : i + c ≤ 3) :
    Shorter s (s.tryFragLists g c i).2 ∧
      ∀ n off, (s.tryFragLists g c i).1 = some (n, off) →
        n < g.total ∧ off + i + 1 ≤ 4 ∧ (∀ f < 4, off ≤ f → f < off + i + 1 → s.bit g n f = false) ∧ ¬ s.BlockFree g n := by
  induction c generalizing s i with
  | zero =>
    exact ⟨⟨s.fragLists, rfl, fun _ _ hb => hb⟩, fun _ _ h => nomatch h⟩
  | succ c ih =>
    obtain ⟨hsub, hfound⟩ := popFrag_cases (by omega : i < 3) (h i) (s := s)
    rw [tryFragLists]
    revert hsub hfound
    generalize s.popFrag g i (s.fragLists i) = r
    obtain ⟨found, rest⟩ := r
    intro hsub hfound
    have hlists : ∀ j, ∀ b ∈ update s.fragLists i rest j, b ∈ s.fragLists j := by
      intro j b hb
      by_cases hj : j = i
      · subst hj
        rw [update_self] at hb
        exact hsub b hb
      · rw [update_of_ne hj] at hb
        exact hb
    cases found with
    | some frag =>
      exact ⟨⟨_, rfl, hlists⟩, hfound⟩
    | none =>
      obtain ⟨⟨lists, heq, hsub'⟩, hfound'⟩ := @ih { s with fragLists := update s.fragLists i rest }
        (fun j b hb => h j b (hlists j b hb)) (i + 1) (by omega)
      refine ⟨⟨lists, heq, fun j b hb => hlists j b (hsub' j b hb)⟩, fun n off hsome => ?_⟩
      obtain ⟨hn, hle, hclear, hused⟩ := hfound' n off hsome
      exact ⟨hn, by omega, fun f hf hlo hhi => hclear f hf hlo (by omega), hused⟩

theorem takeFrag_took (h : Counted g s) (hfits : p.Fits) (hn : p.block < g.total)
    (hclear : ∀ f < 4, p.Has p.block f → s.bit g p.block f = false) {o k : Nat} (hle : o + k ≤ 4)
    {t : Domain} (hbitmap : t.bitmap = s.bitmap) (hkbytes : t.numFreeKbytes = s.numFreeKbytes - p.size)
    (hfloor : t.minKFree = s.minKFree) (hlists : ∀ i, ∀ b ∈ t.fragLists i, b < g.total)
    (hcyl : t.cylinders = if s.BlockFree g p.block then (s.countOut (p.block / g.blocksPerCylinder)).cylinders else s.cylinders) :
    ∃ s', t.takeFrag g p.block (g.getBitmapPtr p.block) o k (p.bits g) = (.block p.block o, s') ∧
      Took g p s s' := by
  have hzero : ¬ t.bitmap (g.getBitmapPtr p.block) &&& p.bits g ≠ 0 := by
    rw [hbitmap]
    exact not_not.2 ((and_bits_zero hfits).2 hclear)
  obtain ⟨s', hs'⟩ : ∃ s', s' =
      (t.setByte (g.getBitmapPtr p.block) (t.bitmap (g.getBitmapPtr p.block) ||| p.bits g)).putOnLists p.block
        (g.fragMask p.block (t.bitmap (g.getBitmapPtr p.block)))
        (g.fragMask p.block (t.bitmap (g.getBitmapPtr p.block) ||| p.bits g)) := ⟨_, rfl⟩
  have hsets : Sets g p s s' := by
    apply sets_or hfits
    rw [hs']
    show (t.setByte _ _).bitmap = _
    rw [setByte, setByte, hbitmap]
  have hcyl' : s'.cylinders = t.cylinders := by
    rw [hs']
    rfl
  refine ⟨s', ?_, hfits, hn, hclear, hsets, ?_, ?_, ?_⟩
  · rw [takeFrag]
    rw [if_neg hzero, if_neg (Nat.not_lt.2 hle), hs']
  · rw [hs']
    exact hkbytes
  · rw [hs']
    exact hfloor
  · refine h.change hsets.off ?_ (fun c hc => ?_) ?_
    · rw [hs']
      exact hints_putOnLists hlists hn
    · rw [hcyl', hcyl]
      split
      · exact update_of_ne hc _ _
      · rfl
    · rw [if_neg (hsets.not_free hfits), hcyl', hcyl]
      by_cases hfree : s.BlockFree g p.block
      · rw [if_pos hfree, if_pos hfree]
        show update s.cylinders _ _ _ + 1 = _
        rw [update_self]
        omega
      · rw [if_neg hfree, if_neg hfree]

theorem fits_none (hgap : allocGap ≤ 1) : FindFits g s allocGap hashSeed none := fun _ _ =>
  (Nat.le_one_iff_eq_zero_or_eq_one.1 hgap).imp id fun h1 => ⟨h1, fun _ hn => by cases hn⟩

theorem newFrag_cases (h : Counted g s) (hashSeed : Int) (hgap : allocGap ≤ 1) (hpos : 0 < numFrags) (hsize : numFrags ≤ 3) :
    (∃ s', s.newFrag g allocGap hashSeed numFrags = (.nil, s') ∧ Kept g s s') ∨
      ∃ n s', ∃ off : Nat, s.newFrag g allocGap hashSeed numFrags = (.block n off, s') ∧ Took g ⟨n, off, numFrags⟩ s s' := by
  obtain ⟨hshort, hfound⟩ := tryFragLists_cases h.hints (s := s) (c := 3 - (numFrags - 1)) (i := numFrags - 1) (by omega)
  rw [newFrag]
  revert hshort hfound
  generalize s.tryFragLists g (3 - (numFrags - 1)) (numFrags - 1) = r
  obtain ⟨found, s₁⟩ := r
  intro hshort hfound
  have hkept : Kept g s s₁ := hshort.hints h
  have hcyl : s₁.cylinders = s.cylinders := by
    obtain ⟨lists, heq, -⟩ := hshort
    have heq' : s₁ = { s with fragLists := lists } := heq
    rw [heq']
  cases found with
  | some frag =>
    -- a list gives a block, part of which is in use
    right
    obtain ⟨n, off⟩ := frag
    obtain ⟨hn, hle, hclear, hused⟩ := hfound n off rfl
    have hfits : Frag.Fits ⟨n, off, numFrags⟩ := ⟨hpos, by show off + numFrags ≤ 4; omega⟩
    have hbits : ∀ f < 4, Frag.Has ⟨n, off, numFrags⟩ n f → s.bit g n f = false := by
      rintro f hf ⟨-, hlo, hhi⟩
      exact hclear f hf hlo (by dsimp only at hhi; omega)
    obtain ⟨s', heq, htook⟩ := takeFrag_took (t := { s₁ with numFreeKbytes := s₁.numFreeKbytes - numFrags }) (k := numFrags)
      h hfits hn hbits (o := off) (by omega) hkept.bitmap (by show _ - _ = _; rw [hkept.kbytes]) hkept.floor
      hkept.counted.hints (by rw [if_neg hused]; exact hcyl)
    exact ⟨n, s', off, heq, htook⟩
  | none =>
    rcases findBlockInt_cases hkept.counted (fun n hn => nomatch (show none = some n from hn)) (fits_none hgap) false with ⟨heq, -⟩ | ⟨n, hn, hfree, heq⟩
    · left
      refine ⟨s₁, ?_, hkept⟩
      dsimp only
      rw [heq]
    · right
      have hfits' : Frag.Fits ⟨n, 0, numFrags⟩ := ⟨hpos, by show 0 + numFrags ≤ 4; omega⟩
      have hwas : s.BlockFree g n := fun f hf => (bit_congr hkept.bitmap n f).symm.trans (hfree f hf)
      obtain ⟨s', heq', htook⟩ := takeFrag_took (k := numFrags)
        (t := { s₁.countOut (n / g.blocksPerCylinder) with numFreeKbytes := s₁.numFreeKbytes - numFrags })
        h hfits' hn (fun f hf _ => hwas f hf) (o := 0) (by omega) hkept.bitmap (by show _ - _ = _; rw [hkept.kbytes])
        hkept.floor hkept.counted.hints (by rw [if_pos hwas, countOut, countOut, hcyl])
      refine ⟨n, s', 0, ?_, htook⟩
      rw [← heq']
      dsimp only
      rw [heq]
      rfl

/-- **`OfsFragFind`** finds no room, makes the file's last fragment longer, or allocates one elsewhere. -/
theorem ofsFragFind_cases (h : Counted g s) (hashSeed : Int) (hgap : allocGap ≤ 1) (hpos : 0 < numFrags)
    (hsize : numFrags ≤ 3) {last : Option Frag}
    (hlast : ∀ p, last = some p → p.Fits ∧ p.block < g.total ∧ p.size < numFrags ∧ ¬ s.BlockFree g p.block) :
    (∃ s', s.ofsFragFind g allocGap hashSeed numFrags last = (.nil, s') ∧ Kept g s s') ∨
      (∃ p s', last = some p ∧ s.ofsFragFind g allocGap hashSeed numFrags last = (.block p.block p.offset, s') ∧
        Took g ⟨p.block, p.offset + p.size, numFrags - p.size⟩ s s') ∨
        ∃ n s', ∃ off : Nat, s.ofsFragFind g allocGap hashSeed numFrags last = (.block n off, s') ∧ Took g ⟨n, off, numFrags⟩ s s' := by
  unfold ofsFragFind
  cases last with
  | none =>
    dsimp only
    split
    · exact .inl ⟨s, rfl, .refl h⟩
    · rcases newFrag_cases h hashSeed hgap hpos hsize with hnil | hnew
      · exact .inl hnil
      · exact .inr (.inr hnew)
  | some p =>
    dsimp only
    split
    · exact .inl ⟨s, rfl, .refl h⟩
    · by_cases hroom : s.roomBehind g p numFrags
      · rw [if_pos hroom]
        right; left
        obtain ⟨hfits, hn, hlt, hused⟩ := hlast p rfl
        obtain ⟨hle, hzero⟩ := hroom
        have hfits' : Frag.Fits ⟨p.block, p.offset + p.size, numFrags - p.size⟩ :=
          ⟨by show 0 < numFrags - p.size; omega, by show p.offset + p.size + (numFrags - p.size) ≤ 4; omega⟩
        obtain ⟨s', heq, htook⟩ := takeFrag_took (k := numFrags)
          (t := { s with numFreeKbytes := s.numFreeKbytes - ((numFrags : Int) - p.size) })
          h hfits' hn ((and_bits_zero hfits').1 hzero) hle rfl (by show _ - _ = _ - ((numFrags - p.size : Nat) : Int); omega) rfl
          h.hints (by rw [if_neg hused])
        exact ⟨p, s', rfl, heq, htook⟩
      · rw [if_neg hroom]
        rcases newFrag_cases h hashSeed hgap hpos hsize with hnil | hnew
        · exact .inl hnil
        · exact .inr (.inr hnew)

end fragments

end Domain

end SpriteKernel.Ofs
