import SpriteKernel.Mem.Layout

/- The binned-object allocator: regions are cut into blocks of a bin, whose free blocks are a stack. -/
namespace SpriteKernel.Mem

open Function List
open Spans
namespace Memory
variable {P : Statics} {s t : Memory} {f g : Blocks} {a b p n m : Int} {x y z : Span Kind} {i : Nat} {left : Int}

/-- What a step of the allocator leaves as it is, but for the block it gives or takes. -/
structure Frame (s t : Memory) : Prop where
  kept : s.Kept t
  used : t.used = s.used
  allocs : t.numAllocs = s.numAllocs
  binned : ∀ n, t.binned n = s.binned n

theorem Frame.refl (s : Memory) : s.Frame s := ⟨Kept.refl s, rfl, rfl, fun _ => rfl⟩

theorem Frame.trans {u : Memory} (h : s.Frame t) (h' : t.Frame u) : s.Frame u :=
  ⟨h.kept.trans h.used h'.kept, h'.used.trans h.used, h'.allocs.trans h.allocs, fun n => (h'.binned n).trans (h.binned n)⟩

theorem Layout.frame_setAdmin (h : Layout P s f) (ha : Spare f a) : s.Frame (s.setAdmin a m) :=
  ⟨h.kept_setAdmin ha, rfl, rfl, fun _ => rfl⟩

theorem Layout.bins_push (h : Layout P s f) (ha : ∀ n, f a ≠ some ⟨n, .binFree⟩) (j : Nat) :
    ∃ l, Linked (s.push i a).mem ((s.push i a).freeLists j) l ∧ l.Nodup ∧
      ∀ b, b ∈ l ↔ put f a ⟨8 * i, .binFree⟩ b = some ⟨8 * j, .binFree⟩ := by
  obtain ⟨l, hl, hnodup, hmemb⟩ := h.bins j
  have hnot : a ∉ l := fun hin => ha _ ((hmemb a).1 hin)
  have hlinked : Linked (s.push i a).mem (s.freeLists j) l := by
    refine hl.congr fun b hb => update_of_ne ?_ _ _
    rintro rfl
    exact hnot hb
  by_cases hj : j = i
  · subst hj
    refine ⟨a :: l, ⟨update_self _ _ _, ?_⟩, nodup_cons.2 ⟨hnot, hnodup⟩, fun b => ?_⟩
    · rw [show (s.push j a).mem a = s.freeLists j from update_self _ _ _]
      exact hlinked
    · by_cases hb : b = a
      · subst hb
        exact ⟨fun _ => put_self, fun _ => mem_cons_self⟩
      · rw [put_of_ne hb, mem_cons, ← hmemb b]
        exact ⟨fun hor => hor.resolve_left hb, .inr⟩
  · refine ⟨l, ?_, hnodup, fun b => ?_⟩
    · rw [show (s.push i a).freeLists j = s.freeLists j from update_of_ne hj _ _]
      exact hlinked
    · by_cases hb : b = a
      · subst hb
        rw [put_self]
        refine ⟨fun hin => absurd hin hnot, fun heq => ?_⟩
        injection heq with heq
        injection heq with hsize
        omega
      · rw [put_of_ne hb]
        exact hmemb b

theorem Layout.bins_pop (h : Layout P s f) (ha : f a = some ⟨8 * i, .binFree⟩) (hhead : s.freeLists i = a) (j : Nat) :
    ∃ l, Linked (update s.mem a m) (update s.freeLists i (s.mem a) j) l ∧ l.Nodup ∧
      ∀ b, b ∈ l ↔ put f a ⟨8 * i, .binUsed⟩ b = some ⟨8 * j, .binFree⟩ := by
  obtain ⟨l, hl, hnodup, hmemb⟩ := h.bins j
  by_cases hj : j = i
  · subst hj
    have hin := (hmemb a).2 ha
    cases l with
    | nil => cases hin
    | cons b l =>
      obtain ⟨hb, hl⟩ := hl
      obtain rfl : a = b := hhead.symm.trans hb
      obtain ⟨hnot, hnodup⟩ := nodup_cons.1 hnodup
      refine ⟨l, ?_, hnodup, fun c => ?_⟩
      · rw [update_self]
        refine hl.congr fun c hc => update_of_ne ?_ _ _
        rintro rfl
        exact hnot hc
      · by_cases hc : c = a
        · subst hc
          rw [put_self]
          exact ⟨fun hin => absurd hin hnot, fun heq => by cases heq⟩
        · rw [put_of_ne hc, ← hmemb c, mem_cons]
          exact ⟨.inr, fun hor => hor.resolve_left hc⟩
  · have hnot : a ∉ l := by
      intro hin
      have heq := ((hmemb a).1 hin).symm.trans ha
      injection heq with heq
      injection heq with hsize
      omega
    refine ⟨l, ?_, hnodup, fun c => ?_⟩
    · rw [update_of_ne hj]
      refine hl.congr fun c hc => update_of_ne ?_ _ _
      rintro rfl
      exact hnot hc
    · by_cases hc : c = a
      · subst hc
        rw [put_self]
        refine ⟨fun hin => absurd hin hnot, fun heq => ?_⟩
        injection heq with heq
        injection heq with _ hk
        cases hk
      · rw [put_of_ne hc]
        exact hmemb c

theorem index_of_size (i : Nat) : blocksizeToIndex (8 * i) = i := by
  unfold blocksizeToIndex
  omega

/-- A block of a bin is taken from a new region. -/
def carveBlock (s : Memory) (i : Nat) (a : Int) : Memory :=
  { s.push i a with numBlocks := update s.numBlocks i (s.numBlocks i + 1) }

theorem numBlocks_of_binned (hbin : s.binned (8 * i) = true) : s.numBlocks i ≠ -1 := by
  unfold binned at hbin
  rw [index_of_size, Bool.and_eq_true] at hbin
  exact bne_iff_ne.1 hbin.2

theorem binned_carveBlock (h : Layout P s f) (hi : s.numBlocks i ≠ -1) (n : Int) : (s.carveBlock i a).binned n = s.binned n := by
  unfold binned
  by_cases hidx : blocksizeToIndex n = i
  · have hcount := h.counts i
    have hnew : s.numBlocks i + 1 ≠ -1 := by omega
    rw [show (s.carveBlock i a).numBlocks (blocksizeToIndex n) = s.numBlocks i + 1 by
      rw [hidx]; exact update_self _ _ _, hidx, bne_iff_ne.2 hnew, bne_iff_ne.2 hi]
  · rw [show (s.carveBlock i a).numBlocks (blocksizeToIndex n) = s.numBlocks (blocksizeToIndex n) from
      update_of_ne hidx _ _]

theorem Layout.carveBlock (h : Layout P s f) (hpos : 0 < i) (hbin : s.binned (8 * i) = true) (hstart : 0 < s.numAllocs)
    (ha : a % 4 = 0) (hfar : ∀ b x, f b = some x → b + x.size ≤ a ∨ a + 8 * i ≤ b)
    (hsup : ∀ b, a ≤ b → b < a + 8 * i → s.Supplied b) : Layout P (s.carveBlock i a) (put f a ⟨8 * i, .binFree⟩) := by
  have hi := numBlocks_of_binned hbin
  have hnone : f a = none := by
    cases hx : f a with
    | none => rfl
    | some x =>
      have hdis := hfar a x hx
      have hpos' := h.apart.pos a x hx
      omega
  have hold : ∀ b y, put f a ⟨8 * i, .binFree⟩ b = some y → (b = a ∧ y = ⟨8 * i, .binFree⟩) ∨ f b = some y := by
    intro b y hb
    obtain hnew | ⟨-, hb⟩ := put_eq_some hb
    · exact .inl hnew
    · exact .inr hb
  have hne : ∀ b x, f b = some x → b ≠ a := by
    rintro b x hx rfl
    rw [hnone] at hx
    cases hx
  have hother : ∀ b x, f b = some x → put f a ⟨8 * i, .binFree⟩ b = some x := fun b x hx =>
    (put_of_ne (hne b x hx)).trans hx
  have hL : ∀ b, Large f b → Large (put f a ⟨8 * i, .binFree⟩) b := by
    rintro b ⟨z, hz, hzl⟩
    exact ⟨z, hother b z hz, hzl⟩
  have hstatic : ∀ b, (∃ u, f b = some ⟨4, .dummy u⟩) → ∃ u, put f a ⟨8 * i, .binFree⟩ b = some ⟨4, .dummy u⟩ := by
    rintro b ⟨u, hu⟩
    exact ⟨u, hother b _ hu⟩
  have hdummy : ∀ b n u, put f a ⟨8 * i, .binFree⟩ b = some ⟨n, .dummy u⟩ → f b = some ⟨n, .dummy u⟩ := by
    intro b n u hb
    obtain ⟨-, heq⟩ | hb := hold b _ hb
    · cases heq
    · exact hb
  have hbody : ∀ b y, put f a ⟨8 * i, .binFree⟩ b = some y → y.kind.body = true → f b = some y := by
    intro b y hb hy
    obtain ⟨-, rfl⟩ | hb := hold b y hb
    · cases hy
    · exact hb
  refine ⟨?_, ?_, ?_, ?_, ?_, ?_, hstatic _ h.first, hstatic _ h.last, ?_, hL _ h.current, ?_,
    h.bins_push fun n heq => (by rw [hnone] at heq; cases heq), ?_, ?_, ?_, ?_, ?_, ?_⟩
  · refine h.apart.put (by dsimp only; omega) fun b y hy _ => ?_
    exact (hfar b y hy).symm
  · intro b y hy
    obtain ⟨rfl, rfl⟩ | hy := hold b y hy
    · dsimp only
      omega
    · exact h.aligned b y hy
  · intro b y hy
    obtain ⟨rfl, rfl⟩ | hy := hold b y hy
    · trivial
    · rw [show (s.carveBlock i a).mem b = s.mem b from update_of_ne (hne b y hy) _ _]
      exact h.word b y hy
  · intro b y hy hyb
    obtain ⟨hl, hn⟩ := h.next b y (hbody b y hy hyb) hyb
    exact ⟨hL _ hl, hn⟩
  · intro b n u hb
    exact hL u (h.target b n u (hdummy b n u hb))
  · intro b y d n u hy hyb hd
    exact h.entry b y d n u (hbody b y hy hyb) hyb (hdummy d n u hd)
  · intro b n u hb
    exact h.dummy b n u (hdummy b n u hb)
  · intro b y hy hf hl c hle hlt
    obtain ⟨rfl, rfl⟩ | hy := hold b y hy
    · exact hsup c hle hlt
    · exact h.inside b y hy hf hl c hle hlt
  · intro b y hy hk
    rw [binned_carveBlock h hi]
    obtain ⟨rfl, rfl⟩ | hy := hold b y hy
    · refine ⟨hbin, ?_⟩
      dsimp only
      omega
    · exact h.binSize b y hy hk
  · intro b y hy hk
    rw [binned_carveBlock h hi]
    exact h.largeSize b y (hbody b y hy (by rw [hk]; rfl)) hk
  · intro p n b hp
    exact hother _ _ (h.inUse p n b hp)
  · intro h0
    exact absurd h0 (Nat.pos_iff_ne_zero.1 hstart)
  · by_cases h2 : 2 = i
    · have hcount := h.counts i
      rw [h2, show (s.carveBlock i a).numBlocks i = s.numBlocks i + 1 from update_self _ _ _]
      omega
    · rw [show (s.carveBlock i a).numBlocks 2 = s.numBlocks 2 from update_of_ne h2 _ _]
      exact h.small
  · intro j
    have hcount := h.counts j
    by_cases hj : j = i
    · subst hj
      rw [show (s.carveBlock j a).numBlocks j = s.numBlocks j + 1 from update_self _ _ _]
      omega
    · rw [show (s.carveBlock i a).numBlocks j = s.numBlocks j from update_of_ne hj _ _]
      exact hcount

/-- What is left of a new region: no block is there yet. -/
structure Rest (s : Memory) (f : Blocks) (newRegion regionSize : Int) : Prop where
  aligned : newRegion % 4 = 0
  far : ∀ b x, f b = some x → b + x.size ≤ newRegion ∨ newRegion + regionSize ≤ b
  supplied : ∀ b, newRegion ≤ b → b < newRegion + regionSize → s.Supplied b

theorem Rest.spare (hr : Rest s f a left) (hpos : 0 < left) : Spare f a := by
  intro b x hx _
  have hdis := hr.far b x hx
  omega

theorem Layout.carve (n : Nat) (hpos : 0 < i) (h : Layout P s f) (hbin : s.binned (8 * i) = true) (hstart : 0 < s.numAllocs)
    (hr : Rest s f a left) : ∃ g, Layout P (carve i (8 * i) n s a left).1 g ∧ s.Frame (Memory.carve i (8 * i) n s a left).1 ∧
      Rest (Memory.carve i (8 * i) n s a left).1 g (Memory.carve i (8 * i) n s a left).2.1
        (Memory.carve i (8 * i) n s a left).2.2 := by
  induction n generalizing s f a left with
  | zero => exact ⟨f, h, Frame.refl s, hr⟩
  | succ n ih =>
    unfold Memory.carve
    split
    swap
    · exact ⟨f, h, Frame.refl s, hr⟩
    next hsize =>
    have hi := numBlocks_of_binned hbin
    have hframe : s.Frame (s.carveBlock i a) :=
      ⟨h.kept_setAdmin (hr.spare (by omega)), rfl, rfl, fun n => binned_carveBlock h hi n⟩
    have hl : Layout P (s.carveBlock i a) (put f a ⟨8 * i, .binFree⟩) := by
      refine h.carveBlock hpos hbin hstart hr.aligned (fun b x hx => ?_) fun b hle hlt => hr.supplied b hle (by omega)
      have hdis := hr.far b x hx
      omega
    have hr' : Rest (s.carveBlock i a) (put f a ⟨8 * i, .binFree⟩) (a + 8 * i) (left - 8 * i) := by
      refine ⟨?_, fun b x hx => ?_, fun b hle hlt => hr.supplied b (by omega) (by omega)⟩
      · have haligned := hr.aligned
        omega
      · obtain ⟨rfl, rfl⟩ | ⟨-, hx⟩ := put_eq_some hx
        · exact .inl (Int.le_refl _)
        · have hdis := hr.far b x hx
          omega
    obtain ⟨g, hg, hfr, hrest⟩ := ih hl ((hframe.binned _).trans hbin) hstart hr'
    exact ⟨g, hg, hframe.trans hfr, hrest⟩

theorem Layout.supply (h : Layout P s f) (c : Int × Int) : Layout P { s with regions := c :: s.regions } f :=
  { h with
    inside := fun a x hx hf hl b hle hlt => by
      obtain ⟨r, hr, hin⟩ := h.inside a x hx hf hl b hle hlt
      exact ⟨r, mem_cons_of_mem _ hr, hin⟩ }

theorem Layout.fillBin {asked : Int} {c : Int × Int} (hpos : 0 < i) (h : Layout P s f) (hbin : s.binned (8 * i) = true)
    (hstart : 0 < s.numAllocs) (hc : ValidChunk P s asked c) (hasked : 0 < asked) :
    ∃ g, Layout P (s.fillBin i (8 * i) c) g ∧ s.Frame (s.fillBin i (8 * i) c) := by
  have hlen : 0 < c.2 := by
    have hl := hc.long
    omega
  have hrest : Rest { s with regions := c :: s.regions } f c.1 c.2 := by
    refine ⟨hc.words.1, fun b x hx => h.apart_of_valid hc hlen hx, fun b hle hlt => ?_⟩
    exact ⟨c, mem_cons_self, hle, hlt⟩
  obtain ⟨g, hg, hframe, hrest'⟩ := (h.supply c).carve c.2.toNat hpos hbin hstart hrest
  have hsupply : s.Frame { s with regions := c :: s.regions } := ⟨Kept.refl s, rfl, rfl, fun _ => rfl⟩
  have hfr := hsupply.trans hframe
  have hsmall : (Memory.carve i (8 * i) c.2.toNat { s with regions := c :: s.regions } c.1 c.2).1.binned (8 * (2 : Nat)) = true := by
    unfold binned
    rw [index_of_size, bne_iff_ne.2 hg.small]
    rfl
  obtain ⟨g', hg', hframe', -⟩ := hg.carve _ (by decide) hsmall (by rw [hfr.allocs]; exact hstart) hrest'
  exact ⟨g', hg', hfr.trans hframe'⟩

theorem Layout.pop (h : Layout P s f) (hs : s.pop i (8 * i) = some (t, a)) :
    ∃ g, Layout P t g ∧ s.Frame t ∧ g a = some ⟨8 * i, .binUsed⟩ ∧ (∀ p n b, s.used p = some (n, b) → p - adminInfo ≠ a) := by
  unfold Memory.pop at hs
  dsimp only at hs
  split at hs
  · cases hs
  next hne =>
  cases hs
  obtain ⟨l, hl, -, hmemb⟩ := h.bins i
  have hx : f (s.freeLists i) = some ⟨8 * i, .binFree⟩ := by
    cases l with
    | nil => exact absurd hl hne
    | cons b l =>
      obtain ⟨hb, -⟩ := hl
      rw [hb]
      exact (hmemb b).1 mem_cons_self
  have huse : ∀ p n b, s.used p = some (n, b) → p - adminInfo ≠ s.freeLists i := by
    intro p n b hp heq
    have hin := h.inUse p n b hp
    rw [heq, hx] at hin
    injection hin with hin
    injection hin with _ hk
    cases b <;> cases hk
  refine ⟨put f (s.freeLists i) ⟨8 * i, .binUsed⟩, ?_, ?_, put_self, huse⟩
  · have hword : markInUse (8 * i) = 8 * i + 1 := by
      unfold markInUse
      rw [if_neg (by omega)]
    refine h.setKind hx rfl (by rw [hword]; exact rfl) rfl rfl nofun (h.bins_pop hx rfl) nofun (fun p n b hp => ?_) rfl rfl rfl id
    rw [put_of_ne (huse p n b hp)]
    exact h.inUse p n b hp
  · have hspare : Spare f (s.freeLists i) :=
      spare_of_mem h.apart hx rfl (Int.le_refl _) (by have := h.apart.pos _ _ hx; omega)
    exact ⟨h.kept_setAdmin hspare, rfl, rfl, fun _ => rfl⟩

theorem size_of_index (numBytes : Nat) :
    bytesToBlocksize numBytes = 8 * (blocksizeToIndex (bytesToBlocksize numBytes) : Nat) ∧
      0 < blocksizeToIndex (bytesToBlocksize numBytes) := by
  have hb := bytesToBlocksize_pos numBytes
  unfold blocksizeToIndex
  omega

theorem Layout.blocksAtOnce_pos (h : Layout P s f) (hbin : s.binned (8 * i) = true) : 0 < s.blocksAtOnce i := by
  have hcount := h.counts i
  have hne := numBlocks_of_binned hbin
  unfold blocksAtOnce
  split <;> omega

theorem Layout.mallocBinned {numBytes : Nat} {chunk : Option (Int × Int)} (h : Layout P s f)
    (hbin : s.binned (bytesToBlocksize numBytes) = true) (hstart : 0 < s.numAllocs)
    (hc : ∀ c, chunk = some c → ValidChunk P s (s.blocksAtOnce (blocksizeToIndex (bytesToBlocksize numBytes)) * bytesToBlocksize numBytes) c)
    (hs : s.mallocBinned (bytesToBlocksize numBytes) chunk = some (t, a)) :
    ∃ g, Layout P t g ∧ s.Frame t ∧ g a = some ⟨bytesToBlocksize numBytes, .binUsed⟩ ∧
      ∀ p n b, s.used p = some (n, b) → p - adminInfo ≠ a := by
  obtain ⟨hsize, hpos⟩ := size_of_index numBytes
  unfold Memory.mallocBinned at hs
  obtain ⟨i, hi⟩ : ∃ i, i = blocksizeToIndex (bytesToBlocksize numBytes) := ⟨_, rfl⟩
  dsimp only at hs
  rw [← hi] at hs hsize hpos hc
  rw [hsize] at hs hbin hc ⊢
  split at hs
  · obtain ⟨c, rfl, hs⟩ := Option.bind_eq_some_iff.1 hs
    have hasked : 0 < s.blocksAtOnce i * (8 * i) := Int.mul_pos (h.blocksAtOnce_pos hbin) (by omega)
    obtain ⟨g, hg, hframe⟩ := h.fillBin hpos hbin hstart (hc c rfl) hasked
    obtain ⟨g', hg', hframe', hself, huse⟩ := hg.pop hs
    exact ⟨g', hg', hframe.trans hframe', hself, fun p n b hp => huse p n b (by rw [hframe.used]; exact hp)⟩
  · exact h.pop hs

end Memory
end SpriteKernel.Mem
