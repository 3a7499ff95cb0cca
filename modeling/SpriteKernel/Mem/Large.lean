import SpriteKernel.Mem.Bins

/- The large-object allocator: the search goes from block to block, merges free ones, and links a new
   region to the dummy block it has come to. -/
namespace SpriteKernel.Mem

open Function
open Spans
namespace Memory
variable {P : Statics} {s t : Memory} {f g : Blocks} {a b p n m : Int} {x y z : Span Kind}

/-- Where the administrative word of a large block leads. -/
def nextOf (a : Int) (x : Span Kind) : Int :=
  match x.kind with
  | .dummy target => target
  | _ => a + x.size

section
variable (h : Layout P s f)
include h

theorem Layout.inUse_word (hx : f a = some x) (hl : x.kind.large = true) :
    isInUse (s.mem a) = true ↔ x.kind ≠ .free := by
  have hw := h.word a x hx
  have ha := h.aligned a x hx
  unfold isInUse
  rw [beq_iff_eq]
  obtain ⟨size, k⟩ := x
  cases k with
  | free =>
    obtain hw : s.mem a = size := hw
    dsimp only at ha
    exact ⟨fun h' => by omega, fun h' => absurd rfl h'⟩
  | used =>
    obtain hw : s.mem a = size + 1 := hw
    dsimp only at ha
    exact ⟨fun _ => nofun, fun _ => by omega⟩
  | dummy u =>
    obtain ⟨hu, hw⟩ : u % 4 = 0 ∧ s.mem a = u - a + 3 := hw
    exact ⟨fun _ => nofun, fun _ => by omega⟩
  | binFree => cases hl
  | binUsed => cases hl

theorem Layout.next_word (hx : f a = some x) (hl : x.kind.large = true) :
    a + sizeOf (s.mem a) = nextOf a x := by
  have hw := h.word a x hx
  have ha := h.aligned a x hx
  unfold sizeOf nextOf
  obtain ⟨size, k⟩ := x
  cases k with
  | free =>
    obtain hw : s.mem a = size := hw
    dsimp only at ha ⊢
    omega
  | used =>
    obtain hw : s.mem a = size + 1 := hw
    dsimp only at ha ⊢
    omega
  | dummy u =>
    obtain ⟨hu, hw⟩ : u % 4 = 0 ∧ s.mem a = u - a + 3 := hw
    dsimp only
    omega
  | binFree => cases hl
  | binUsed => cases hl

theorem Layout.large_next (hx : f a = some x) (hl : x.kind.large = true) : Large f (nextOf a x) := by
  obtain ⟨size, k⟩ := x
  cases k with
  | free => exact (h.next a _ hx rfl).1
  | used => exact (h.next a _ hx rfl).1
  | dummy u => exact h.target a size u hx
  | binFree => cases hl
  | binUsed => cases hl

/-- The roving pointer goes to another large block. -/
theorem Layout.rove (ha : Large f a) : Layout P { s with largestFree := m, currentPtr := a } f :=
  { h with current := ha }

end

theorem Frame.rove (s : Memory) (m a : Int) : s.Frame { s with largestFree := m, currentPtr := a } :=
  ⟨Kept.refl s, rfl, rfl, fun _ => rfl⟩

theorem Layout.large_first (h : Layout P s f) : Large f P.first := by
  obtain ⟨u, hu⟩ := h.first
  exact ⟨_, hu, rfl⟩

theorem sizeOf_of_word (hn : n % 4 = 0) : sizeOf n = n := by
  unfold sizeOf
  omega

theorem markDummy_of_word (hn : n % 4 = 0) : markDummy n = n + 3 := by
  unfold markDummy
  omega

theorem markInUse_of_word (hn : n % 4 = 0) : markInUse n = n + 1 := by
  unfold markInUse
  rw [if_neg (by omega)]

theorem Layout.mergeAll {size : Int} (k : Nat) (h : Layout P s f) (hx : f s.currentPtr = some ⟨n, .free⟩)
    (hs : Memory.merge k s n = some (t, size)) :
    ∃ g, Layout P t g ∧ s.Frame t ∧ g t.currentPtr = some ⟨size, .free⟩ ∧ t.regions = s.regions ∧
      ∀ b, b ≠ s.currentPtr → t.mem b = s.mem b := by
  induction k generalizing s f n with
  | zero => cases hs
  | succ k ih =>
    unfold Memory.merge at hs
    dsimp only at hs
    split at hs
    · obtain ⟨rfl, rfl⟩ := Prod.mk.inj (Option.some.inj hs)
      exact ⟨f, h, Frame.refl s, hx, rfl, fun _ _ => rfl⟩
    next hfree =>
    obtain ⟨⟨y, hy, hl⟩, -⟩ := h.next _ _ hx rfl
    have hkind : y.kind = .free := by
      by_contra hne
      exact hfree ((h.inUse_word hy hl).2 hne)
    have hyf : f (s.currentPtr + n) = some ⟨y.size, .free⟩ := by rw [hy, ← hkind]
    have hw : s.mem (s.currentPtr + n) = y.size := h.word _ _ hyf
    have ha := h.aligned _ _ hx
    have hb := h.aligned _ _ hyf
    have hn := h.apart.pos _ _ hx
    dsimp only at ha hb hn
    rw [hw, sizeOf_of_word hb.2, sizeOf_of_word (by omega)] at hs
    have hm := h.merge hx hyf (by omega)
    have hspare : Spare f s.currentPtr := spare_of_mem h.apart hx rfl (Int.le_refl _) (by dsimp only; omega)
    obtain ⟨g, hg, hframe, hself, hreg, hmem⟩ := ih hm put_self hs
    exact ⟨g, hg, (h.frame_setAdmin hspare).trans hframe, hself, hreg, fun b hb => (hmem b hb).trans (update_of_ne hb _ _)⟩

theorem Layout.kept_of_spare (h : Layout P s f) (hmem : ∀ a, t.mem a = s.mem a ∨ Spare f a) : s.Kept t := by
  intro p n b hp c hle hlt
  obtain heq | hspare := hmem c
  · exact heq
  · have hkept := h.kept_setAdmin (m := s.mem c + 1) hspare p n b hp c hle hlt
    rw [show (s.setAdmin c (s.mem c + 1)).mem c = s.mem c + 1 from update_self _ _ _] at hkept
    omega

variable {asked : Int} {c : Int × Int} {chunk : Option (Int × Int)}

/-- The dummy block found is neither of the two always there, if a new region begins where it ends. -/
theorem Layout.dummy_before (h : Layout P s f) (hc : ValidChunk P s asked c) (hlong : 16 ≤ asked)
    (hx : f a = some ⟨n, .dummy b⟩) (hab : c.1 = a + 8) : n = 8 := by
  have hlen := hc.long
  refine h.dummy a n b hx ?_ ?_
  · have hle := first_le P
    have hs := hc.statics.1
    omega
  · have hle := last_le P
    have hs := hc.statics.2
    omega

theorem addRegion_rest (P : Statics) (s : Memory) (c : Int × Int) :
    (s.addRegion P c).used = s.used ∧ (s.addRegion P c).currentPtr = s.currentPtr ∧ (s.addRegion P c).numBlocks = s.numBlocks ∧
      (s.addRegion P c).numAllocs = s.numAllocs ∧ (s.addRegion P c).freeLists = s.freeLists ∧
      (s.addRegion P c).regions = c :: s.regions ∧ (s.addRegion P c).largeRegions = c :: s.largeRegions := by
  unfold Memory.addRegion
  dsimp only
  split <;> exact ⟨rfl, rfl, rfl, rfl, rfl, rfl, rfl⟩

theorem addRegion_mem_of_follows (hab : c.1 = s.currentPtr + adminInfo) :
    (s.addRegion P c).mem = update (update s.mem s.currentPtr (sizeOf c.2)) (s.currentPtr + c.2)
      (markDummy (P.last - (s.currentPtr + c.2))) := by
  unfold Memory.addRegion
  rw [if_pos hab, Int.add_sub_cancel]
  rfl

theorem addRegion_mem_of_apart (hab : c.1 ≠ s.currentPtr + adminInfo) :
    (s.addRegion P c).mem = update (update (update s.mem s.currentPtr (markDummy (c.1 - s.currentPtr)))
      c.1 (sizeOf (c.2 - adminInfo))) (c.1 + (c.2 - adminInfo)) (markDummy (P.last - (c.1 + (c.2 - adminInfo)))) := by
  unfold Memory.addRegion
  rw [if_neg hab]
  rfl

theorem Layout.addRegion (h : Layout P s f) (hc : ValidChunk P s asked c) (hlong : 16 ≤ asked)
    (hstart : 0 < s.numAllocs) (hx : f s.currentPtr = some ⟨n, .dummy P.last⟩) :
    ∃ g, Layout P (s.addRegion P c) g ∧ s.Frame (s.addRegion P c) := by
  have hwords := hc.words
  have hlen := hc.long
  have ha := (h.aligned _ _ hx).1
  have hlast := (last_le P).2.2
  have hpos := h.apart.pos _ _ hx
  dsimp only at hpos
  have hspare : ∀ b, c.1 ≤ b → b < c.1 + c.2 → Spare f b := fun b hle hlt =>
    h.spare_of_unsupplied (Layout.not_supplied hc hle hlt)
  have hspare' : Spare f s.currentPtr := spare_of_mem h.apart hx rfl (Int.le_refl _) (by dsimp only; omega)
  by_cases hab : c.1 = s.currentPtr + 8
  · obtain rfl := h.dummy_before hc hlong hx hab
    have heq : s.addRegion P c = s.extendRegion P s.currentPtr c := by
      unfold Memory.addRegion Memory.extendRegion adminInfo
      dsimp only
      rw [if_pos hab, show c.2 + 8 - 8 = c.2 by omega, sizeOf_of_word hwords.2, markDummy_of_word (by omega)]
      rfl
    rw [heq]
    refine ⟨_, h.extendRegion hc hlong hstart hx hab, ?_, rfl, rfl, fun _ => rfl⟩
    refine h.kept_of_spare fun e => ?_
    by_cases he : e = s.currentPtr
    · exact .inr (he ▸ hspare')
    by_cases he' : e = s.currentPtr + c.2
    · exact .inr (he' ▸ hspare _ (by omega) (by omega))
    · exact .inl ((update_of_ne he' _ _).trans (update_of_ne he _ _))
  · have hput := h.putRegion hc hlong hstart
    have hap := h.apart_of_valid hc (by omega) hx
    dsimp only at hap
    have hne₁ : s.currentPtr ≠ c.1 := by omega
    have hne₂ : s.currentPtr ≠ c.1 + (c.2 - 8) := by omega
    have hxg : put (put f c.1 ⟨c.2 - 8, .free⟩) (c.1 + (c.2 - 8)) ⟨8, .dummy P.last⟩ s.currentPtr = some ⟨n, .dummy P.last⟩ := by
      rw [put_of_ne hne₂, put_of_ne hne₁]
      exact hx
    have hmem : (s.addRegion P c).mem = update (s.putRegion P c).mem s.currentPtr (c.1 - s.currentPtr + 3) := by
      rw [addRegion_mem_of_apart hab]
      unfold adminInfo
      rw [sizeOf_of_word (by omega), markDummy_of_word (by omega), markDummy_of_word (by omega), Function.update_comm hne₁,
        Function.update_comm hne₂]
      rfl
    have hnone : f c.1 = none := by
      cases hy : f c.1 with
      | none => rfl
      | some y =>
        have hdis := h.apart_of_valid hc (by omega) hy
        have hy0 := h.apart.pos _ y hy
        omega
    have hself : put (put f c.1 ⟨c.2 - 8, .free⟩) (c.1 + (c.2 - 8)) ⟨8, .dummy P.last⟩ c.1 = some ⟨c.2 - 8, .free⟩ := by
      rw [put_of_ne (by omega), put_self]
    -- no block ends where the new region begins: the block after it would be there already
    have hend : ∀ b y, put (put f c.1 ⟨c.2 - 8, .free⟩) (c.1 + (c.2 - 8)) ⟨8, .dummy P.last⟩ b = some y → y.kind.body = true →
        b + y.size ≠ c.1 := by
      intro b y hy hyb heq
      obtain ⟨-, rfl⟩ | ⟨-, hy⟩ := put_eq_some hy
      · cases hyb
      obtain ⟨rfl, rfl⟩ | ⟨-, hy⟩ := put_eq_some hy
      · dsimp only at heq
        omega
      obtain ⟨⟨z, hz, -⟩, -⟩ := h.next b y hy hyb
      rw [heq, hnone] at hz
      cases hz
    obtain ⟨hused, hcurrent, hblocks, hallocs, hlists, hregions, -⟩ := addRegion_rest P s c
    refine ⟨_, hput.setKind hxg hmem (k := .dummy c.1) ⟨hwords.1, rfl⟩ rfl rfl ?_ ?_ nofun (fun p k b hp => ?_) hcurrent hregions
      hblocks (fun h0 => hallocs.symm.trans h0), ?_, hused, hallocs, fun k => ?_⟩
    · rintro u heq
      injection heq with heq
      subst heq
      exact ⟨⟨_, hself, rfl⟩, hend⟩
    · exact hput.bins_setKind hxg nofun nofun hlists hmem
    · rw [hused] at hp
      have hin := hput.inUse p k b hp
      rwa [put_of_ne]
      intro heq
      rw [heq, hxg] at hin
      cases b <;> cases hin
    · refine h.kept_of_spare fun e => ?_
      rw [hmem]
      by_cases he : e = s.currentPtr
      · exact .inr (he ▸ hspare')
      rw [update_of_ne he]
      by_cases he₁ : e = c.1 + (c.2 - 8)
      · exact .inr (he₁ ▸ hspare _ (by omega) (by omega))
      by_cases he₂ : e = c.1
      · exact .inr (he₂ ▸ hspare _ (by omega) (by omega))
      · exact .inl ((update_of_ne he₁ _ _).trans (update_of_ne he₂ _ _))
    · unfold binned
      rw [hblocks]

/-- The word of `last` is not what `Init` made it. -/
def Patched (P : Statics) (s : Memory) : Prop := s.mem P.last ≠ markDummy 0

/-- A new region is linked to some other block than `last`, or to `last`. -/
theorem patched_addRegion (hc : ValidChunk P s asked c) (hlong : 16 ≤ asked)
    (hp : Patched P s ∨ s.currentPtr = P.last) : Patched P (s.addRegion P c) := by
  have hlen := hc.long
  have hs := hc.statics.2
  have hle := last_le P
  unfold Patched
  by_cases hab : c.1 = s.currentPtr + adminInfo
  · rw [addRegion_mem_of_follows hab]
    unfold adminInfo at hab
    rw [update_of_ne (by omega), update_of_ne (by omega)]
    exact hp.resolve_right fun heq => by omega
  · rw [addRegion_mem_of_apart hab]
    unfold adminInfo
    rw [update_of_ne (by omega), update_of_ne (by omega)]
    by_cases heq : P.last = s.currentPtr
    · rw [heq, update_self]
      unfold markDummy
      omega
    · rw [update_of_ne heq]
      exact hp.resolve_right fun heq' => heq heq'.symm

theorem ValidChunk.of_regions (h : ValidChunk P s asked c) (hr : t.regions = s.regions) : ValidChunk P t asked c :=
  ⟨h.words, h.long, by rw [hr]; exact h.regions, h.statics⟩

/-- Where the search comes to the end of the list, it is at a dummy block. -/
theorem Layout.dummy_of_next (h : Layout P s f) (hx : f a = some x) (hl : x.kind.large = true) (hn : nextOf a x = P.last) :
    ∃ n, f a = some ⟨n, .dummy P.last⟩ := by
  obtain ⟨size, k⟩ := x
  cases k with
  | free => exact absurd hn (h.next a _ hx rfl).2
  | used => exact absurd hn (h.next a _ hx rfl).2
  | dummy u =>
    obtain rfl : u = P.last := hn
    exact ⟨size, hx⟩
  | binFree => cases hl
  | binUsed => cases hl

theorem Layout.current_ne_last (h : Layout P s f) (hx : f a = some ⟨n, .free⟩) : P.last ≠ a := (h.ne_last hx rfl).symm

theorem Layout.search {numBytes size : Int} (k : Nat) (h : Layout P s f) (hstart : 0 < s.numAllocs)
    (hlong : 16 ≤ asked) (hc : ∀ c, chunk = some c → ValidChunk P s asked c)
    (hs : Memory.search P numBytes k s chunk = some (t, size)) :
    ∃ g, Layout P t g ∧ s.Frame t ∧ g t.currentPtr = some ⟨size, .free⟩ ∧ numBytes ≤ size ∧
      (Patched P s ∨ s.currentPtr = P.last ∧ s.largestFree ≤ numBytes → Patched P t) := by
  induction k generalizing s f chunk with
  | zero => cases hs
  | succ k ih =>
    obtain ⟨x, hx, hl⟩ := h.current
    unfold Memory.search at hs
    dsimp only at hs
    split at hs
    next huse =>
      -- a block in use, or a dummy block
      rw [h.next_word hx hl] at hs
      have hnext := h.large_next hx hl
      split at hs
      next hne =>
        obtain ⟨g, hg, hframe, hself, hsize, hpatch⟩ := ih (h.rove (m := s.largestFree) hnext) hstart (fun c hcc => (hc c hcc).of_regions rfl) hs
        refine ⟨g, hg, (Frame.rove s _ _).trans hframe, hself, hsize, fun hp => hpatch (.inl ?_)⟩
        obtain hp | ⟨heq, -⟩ := hp
        · exact hp
        · intro hword
          refine hne ?_
          rw [← h.next_word hx hl, heq, hword, show sizeOf (markDummy 0) = 0 by decide, Int.add_zero]
      next hlast =>
      split at hs
      next hagain =>
        obtain ⟨g, hg, hframe, hself, hsize, hpatch⟩ := ih (h.rove (m := 0) h.large_first) hstart (fun c hcc => (hc c hcc).of_regions rfl) hs
        refine ⟨g, hg, (Frame.rove s _ _).trans hframe, hself, hsize, fun hp => hpatch (.inl ?_)⟩
        exact hp.resolve_right fun hand => by omega
      next =>
        obtain ⟨c, rfl, hs⟩ := Option.bind_eq_some_iff.1 hs
        obtain ⟨n, hd⟩ := h.dummy_of_next hx hl (Classical.not_not.1 hlast)
        obtain ⟨g, hg, hframe⟩ := h.addRegion (hc c rfl) hlong hstart hd
        obtain ⟨g', hg', hframe', hself, hsize, hpatch⟩ := ih hg (by rw [hframe.allocs]; exact hstart) (fun _ hcc => by cases hcc) hs
        refine ⟨g', hg', hframe.trans hframe', hself, hsize, fun hp => hpatch (.inl ?_)⟩
        exact patched_addRegion (hc c rfl) hlong (hp.imp_right And.left)
    next hfree =>
      -- a free block, with which those that follow are merged
      have hkind : x.kind = .free := by
        by_contra hne
        exact hfree ((h.inUse_word hx hl).2 hne)
      have hxf : f s.currentPtr = some ⟨x.size, .free⟩ := by rw [hx, ← hkind]
      have hw : s.mem s.currentPtr = x.size := h.word _ _ hxf
      obtain ⟨⟨u, size'⟩, hm, hs⟩ := Option.bind_eq_some_iff.1 hs
      rw [hw, sizeOf_of_word (h.aligned _ _ hxf).2] at hm
      obtain ⟨g, hg, hframe, hself, hreg, hmem⟩ := h.mergeAll k hxf hm
      have hpatch : Patched P s ∨ s.currentPtr = P.last ∧ s.largestFree ≤ numBytes → Patched P u := by
        intro hp hword
        have hne := h.current_ne_last hxf
        obtain hp | ⟨heq, -⟩ := hp
        · exact hp ((hmem _ hne).symm.trans hword)
        · exact hne heq.symm
      split at hs
      next hsize =>
        cases hs
        exact ⟨g, hg, hframe, hself, hsize, hpatch⟩
      next =>
        obtain ⟨hnext, hne⟩ := hg.next _ _ hself rfl
        rw [if_pos hne] at hs
        obtain ⟨g', hg', hframe', hself', hsize, hpatch'⟩ := ih (hg.rove hnext) (by rw [← hframe.allocs] at hstart; exact hstart)
          (fun c hcc => (hc c hcc).of_regions hreg) hs
        exact ⟨g', hg', (hframe.trans (Frame.rove u _ _)).trans hframe', hself', hsize, fun hp => hpatch' (.inl (hpatch hp))⟩

theorem Layout.allocate {k : Int} (h : Layout P s f) (hx : f s.currentPtr = some ⟨n, .free⟩) (hk : 0 < k) (hk4 : k % 4 = 0) (hkn : k ≤ n)
    (hbin : s.binned k = false) :
    ∃ g, Layout P (s.allocate k n) g ∧ s.Frame (s.allocate k n) ∧ g s.currentPtr = some ⟨k, .used⟩ ∧
      (Patched P s → Patched P (s.allocate k n)) := by
  have hn4 := (h.aligned _ _ hx).2
  dsimp only at hn4
  have hw : s.mem s.currentPtr = n := h.word _ _ hx
  have hspare : ∀ b, s.currentPtr ≤ b → b < s.currentPtr + n → Spare f b := fun b hle hlt => spare_of_mem h.apart hx rfl hle hlt
  have hnlast := h.current_ne_last hx
  unfold Memory.allocate
  split
  next heq =>
    subst heq
    rw [hw, markInUse_of_word hn4]
    refine ⟨put f s.currentPtr ⟨n, .used⟩, ?_, h.frame_setAdmin (hspare _ (Int.le_refl _) (by omega)), put_self, fun hp => ?_⟩
    · refine h.setKind hx rfl rfl rfl rfl nofun (h.bins_setKind hx nofun nofun rfl rfl) (fun _ => hbin) (fun p m b hp => ?_) rfl rfl rfl
        id
      have hin := h.inUse p m b hp
      rwa [put_of_ne]
      intro heq
      rw [heq, hx] at hin
      cases b <;> cases hin
    · rw [Patched, show (s.setAdmin s.currentPtr (n + 1)).mem P.last = s.mem P.last from update_of_ne hnlast _ _]
      exact hp
  next hne =>
    have hlt : k < n := by omega
    rw [sizeOf_of_word (by omega), markInUse_of_word hk4]
    have hl := h.split hx hk hlt hk4 hbin
    refine ⟨_, hl, ⟨h.kept_of_spare fun e => ?_, rfl, rfl, fun _ => rfl⟩, ?_, fun hp => ?_⟩
    · by_cases he : e = s.currentPtr
      · exact .inr (he ▸ hspare _ (Int.le_refl _) (by omega))
      by_cases he' : e = s.currentPtr + k
      · exact .inr (he' ▸ hspare _ (by omega) (by omega))
      · exact .inl ((update_of_ne he _ _).trans (update_of_ne he' _ _))
    · rw [put_of_ne (by omega), put_self]
    · have hend : P.last ≠ s.currentPtr + k := by
        obtain ⟨u, hu⟩ := h.last
        have hap := h.apart.apart _ _ _ _ hx hu hnlast.symm
        dsimp only at hap
        omega
      rw [Patched, show ((s.setAdmin (s.currentPtr + k) (n - k)).setAdmin s.currentPtr (k + 1)).mem P.last = s.mem P.last from
        (update_of_ne hnlast _ _).trans (update_of_ne hend _ _)]
      exact hp

/-- What `malloc` asks MemChunkAlloc for when a large object does not fit. -/
theorem asked_large {numBytes : Nat} (hbin : s.binned (bytesToBlocksize numBytes) = false) :
    s.asked numBytes = if bytesToBlocksize numBytes < minRegionSize then minRegionSize else bytesToBlocksize numBytes + adminInfo := by
  unfold asked
  dsimp only
  rw [hbin, if_neg Bool.false_ne_true]

theorem Layout.mallocLarge {numBytes fuel : Nat} (h : Layout P s f) (hstart : 0 < s.numAllocs)
    (hbin : s.binned (bytesToBlocksize numBytes) = false) (hc : ∀ c, chunk = some c → ValidChunk P s (s.asked numBytes) c)
    (hs : s.mallocLarge P (bytesToBlocksize numBytes) chunk fuel = some (t, a)) :
    ∃ g, Layout P t g ∧ s.Frame t ∧ g a = some ⟨bytesToBlocksize numBytes, .used⟩ ∧
      (∀ p n b, s.used p = some (n, b) → p - adminInfo ≠ a) ∧
      (Patched P s ∨ s.currentPtr + sizeOf (s.mem s.currentPtr) = P.last ∧ s.largestFree ≤ bytesToBlocksize numBytes → Patched P t) := by
  have hsize := bytesToBlocksize_pos numBytes
  have hlong : 16 ≤ s.asked numBytes := by
    rw [asked_large hbin]
    unfold minRegionSize adminInfo
    split <;> omega
  obtain ⟨x, hx, hl⟩ := h.current
  obtain ⟨⟨u, size⟩, hu, heq⟩ := Option.map_eq_some_iff.1 hs
  cases heq
  have hstep : s.Frame { s with numLargeAllocs := s.numLargeAllocs + 1, currentPtr := s.currentPtr + sizeOf (s.mem s.currentPtr) } :=
    ⟨Kept.refl s, rfl, rfl, fun _ => rfl⟩
  have hl' : Layout P { s with numLargeAllocs := s.numLargeAllocs + 1, currentPtr := s.currentPtr + sizeOf (s.mem s.currentPtr) } f :=
    { h with current := by rw [h.next_word hx hl]; exact h.large_next hx hl }
  obtain ⟨g, hg, hframe, hself, hle, hpatch⟩ := hl'.search fuel hstart hlong (fun c hcc => (hc c hcc).of_regions rfl) hu
  have hfr := hstep.trans hframe
  obtain ⟨g', hg', hframe', hself', hpatch'⟩ := hg.allocate hself (by omega) (by omega) hle (by rw [hfr.binned]; exact hbin)
  refine ⟨g', hg', hfr.trans hframe', hself', fun p n b hp heq => ?_, fun hp => hpatch' (hpatch hp)⟩
  have hin := hg.inUse p n b (by rw [hfr.used]; exact hp)
  rw [heq, hself] at hin
  cases b <;> cases hin

end Memory
end SpriteKernel.Mem
