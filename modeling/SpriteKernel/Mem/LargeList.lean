import SpriteKernel.Mem.Alloc

/- The list of the large blocks, from `first` to `last`. The roving pointer is advanced before the first search,
   which begins and ends at `last`: the first region is linked to `last` itself. What is linked to `first` later does
   not lead to it, so the list is as it ought to be only up to the first large object. -/
namespace SpriteKernel.Mem

open Function
open Spans Transition
namespace Memory
variable {P : Statics} {s t : Memory} {f g : Blocks} {a b p n m : Int} {x y z : Span Kind} {numBytes i : Nat}
  {chunk : Option (Int × Int)}

/-- The blocks from `a` on, up to `last`. -/
inductive Walk (P : Statics) (s : Memory) : Int → List Int → Prop
  | nil : Walk P s P.last []
  | cons {a : Int} {l : List Int} : a ≠ P.last → Walk P s (a + sizeOf (s.mem a)) l → Walk P s a (a :: l)

/-- The bytes of a block; the word of a dummy block is a link. -/
def extent (admin : Int) : Int := if adminBits admin = 3 then adminInfo else sizeOf admin

/-- Adjacent free blocks from `a` on, with `n` bytes together. -/
inductive FreeRun (s : Memory) : Int → Int → Prop
  | one {a : Int} : isInUse (s.mem a) = false → FreeRun s a (sizeOf (s.mem a))
  | more {a n : Int} : isInUse (s.mem a) = false → FreeRun s (a + sizeOf (s.mem a)) n → FreeRun s a (sizeOf (s.mem a) + n)

/-- The list has every byte of its regions once, and ends with `last`; the roving pointer is on it, a search ends,
    and needs no new region where enough free blocks are adjacent. -/
structure Found (P : Statics) (s : Memory) : Prop where
  walk : ∃ l, Walk P s P.first l ∧ l.Nodup ∧ (s.currentPtr ∈ l ∨ s.currentPtr = P.last) ∧
    ∀ r ∈ s.largeRegions, ∀ b, r.1 ≤ b → b < r.1 + r.2 → ∃ a ∈ l, a ≤ b ∧ b < a + extent (s.mem a)
  last : s.mem P.last = markDummy 0
  terminates : ∀ numBytes c, s.binned (bytesToBlocksize numBytes) = false → ValidChunk P s (s.asked numBytes) c →
    ∃ fuel, s.malloc P numBytes (some c) fuel ≠ none
  asks : ∀ numBytes a n, s.binned (bytesToBlocksize numBytes) = false → LargeBlock P s a → FreeRun s a n →
    bytesToBlocksize numBytes ≤ n → ∃ fuel, s.malloc P numBytes none fuel ≠ none

/-- No large object is asked for. -/
def Binned (s : Memory) : MemStep → Prop
  | .malloc numBytes _ _ => s.binned (bytesToBlocksize numBytes) = true
  | _ => True

/-- What the large-object allocator has is left as it is. -/
structure Idle (P : Statics) (s t : Memory) : Prop where
  first : t.mem P.first = s.mem P.first
  last : t.mem P.last = s.mem P.last
  current : t.currentPtr = s.currentPtr
  largest : t.largestFree = s.largestFree
  regions : t.largeRegions = s.largeRegions

theorem Idle.trans {u : Memory} (h : Idle P s t) (h' : Idle P t u) : Idle P s u :=
  ⟨h'.first.trans h.first, h'.last.trans h.last, h'.current.trans h.current, h'.largest.trans h.largest,
    h'.regions.trans h.regions⟩

theorem idle_setAdmin (hf : P.first ≠ a) (hl : P.last ≠ a) : Idle P s (s.setAdmin a m) :=
  ⟨update_of_ne hf _ _, update_of_ne hl _ _, rfl, rfl, rfl⟩

theorem idle_carve (k : Nat) (hpos : 0 < n) (hf : P.first < a ∨ a + m ≤ P.first)
    (hl : P.last < a ∨ a + m ≤ P.last) :
    Idle P s (carve i n k s a m).1 ∧ a ≤ (carve i n k s a m).2.1 ∧
      (carve i n k s a m).2.1 + (carve i n k s a m).2.2 = a + m := by
  induction k generalizing s a m with
  | zero => exact ⟨⟨rfl, rfl, rfl, rfl, rfl⟩, Int.le_refl _, rfl⟩
  | succ k ih =>
    unfold carve
    split
    next hfits =>
      obtain ⟨hidle, hle, hend⟩ := ih (s := s.carveBlock i a) (a := a + n) (m := m - n) (by omega) (by omega)
      have hstore : Idle P s (s.carveBlock i a) :=
        ⟨update_of_ne (by omega) _ _, update_of_ne (by omega) _ _, rfl, rfl, rfl⟩
      exact ⟨hstore.trans hidle, Int.le_trans (by omega) hle, hend.trans (by omega)⟩
    next => exact ⟨⟨rfl, rfl, rfl, rfl, rfl⟩, Int.le_refl _, rfl⟩

variable {asked : Int} {c : Int × Int}

theorem ValidChunk.statics_apart (hc : ValidChunk P s asked c) :
    (P.first < c.1 ∨ c.1 + c.2 ≤ P.first) ∧ (P.last < c.1 ∨ c.1 + c.2 ≤ P.last) := by
  have hf := first_le P
  have hl := last_le P
  have hs := hc.statics
  omega

theorem idle_fillBin (hpos : 0 < n) (hc : ValidChunk P s asked c) : Idle P s (s.fillBin i n c) := by
  obtain ⟨hf, hl⟩ := hc.statics_apart
  obtain ⟨h₁, hle, hend⟩ := idle_carve (P := P) (s := { s with regions := c :: s.regions }) (i := i) c.2.toNat hpos hf hl
  obtain ⟨h₂, -⟩ := idle_carve (P := P) (i := 2) (n := 16)
    (a := (carve i n c.2.toNat { s with regions := c :: s.regions } c.1 c.2).2.1)
    (m := (carve i n c.2.toNat { s with regions := c :: s.regions } c.1 c.2).2.2)
    (carve i n c.2.toNat { s with regions := c :: s.regions } c.1 c.2).2.2.toNat (by decide) (by omega) (by omega)
  have h₀ : Idle P s { s with regions := c :: s.regions } := ⟨rfl, rfl, rfl, rfl, rfl⟩
  exact h₀.trans (h₁.trans h₂)

theorem Layout.ne_statics (h : Layout P s f) (hx : f a = some x) (hk : ∀ u, x.kind ≠ .dummy u) : P.first ≠ a ∧ P.last ≠ a := by
  refine ⟨?_, ?_⟩
  · rintro rfl
    obtain ⟨u, hu⟩ := h.first
    cases hu.symm.trans hx
    exact hk u rfl
  · rintro rfl
    obtain ⟨u, hu⟩ := h.last
    cases hu.symm.trans hx
    exact hk u rfl

theorem Layout.idle_pop (h : Layout P s f) (hs : s.pop i (8 * i) = some (t, a)) : Idle P s t := by
  unfold Memory.pop at hs
  dsimp only at hs
  split at hs
  · cases hs
  next hne =>
  cases hs
  obtain ⟨hf, hl⟩ := h.ne_statics (h.freeBlock (.head hne)) nofun
  exact ⟨update_of_ne hf _ _, update_of_ne hl _ _, rfl, rfl, rfl⟩

theorem Layout.idle_malloc {fuel : Nat} (h : Layout P s f) (hbin : s.binned (bytesToBlocksize numBytes) = true)
    (hc : ∀ c, chunk = some c → ValidChunk P s (s.asked numBytes) c) (hs : s.malloc P numBytes chunk fuel = some t) : Idle P s t := by
  obtain ⟨hsize, hpos⟩ := size_of_index numBytes
  unfold Memory.malloc at hs
  dsimp only at hs
  rw [show ({ s with numAllocs := s.numAllocs + 1 } : Memory).binned (bytesToBlocksize numBytes) = true from hbin, if_pos rfl] at hs
  obtain ⟨⟨u, a⟩, hu, heq⟩ := Option.map_eq_some_iff.1 hs
  obtain rfl : _ = t := heq
  suffices hidle : Idle P s u from ⟨hidle.first, hidle.last, hidle.current, hidle.largest, hidle.regions⟩
  have hstart : Layout P { s with numAllocs := s.numAllocs + 1 } f := { h with fresh := nofun }
  have h₀ : Idle P s { s with numAllocs := s.numAllocs + 1 } := ⟨rfl, rfl, rfl, rfl, rfl⟩
  unfold Memory.mallocBinned at hu
  dsimp only at hu
  split at hu
  · obtain ⟨c, rfl, hu⟩ := Option.bind_eq_some_iff.1 hu
    have hvalid : ValidChunk P { s with numAllocs := s.numAllocs + 1 } (s.asked numBytes) c := (hc c rfl).of_regions rfl
    have hasked : 0 < s.asked numBytes := by
      unfold asked
      dsimp only
      rw [hbin, if_pos rfl]
      exact Int.mul_pos (h.blocksAtOnce_pos (by rw [← hsize]; exact hbin)) (by omega)
    have hfill := idle_fillBin (i := blocksizeToIndex (bytesToBlocksize numBytes)) (n := bytesToBlocksize numBytes) (by omega) hvalid
    rw [hsize] at hbin hu hfill
    rw [index_of_size] at hu hfill
    obtain ⟨g, hg, -⟩ := hstart.fillBin hpos hbin (Nat.succ_pos _) hvalid hasked
    exact (h₀.trans hfill).trans (hg.idle_pop hu)
  · rw [hsize, index_of_size] at hu
    exact h₀.trans (hstart.idle_pop hu)

/-- The large-object allocator is as `Init` made it. -/
structure Unused (P : Statics) (s : Memory) : Prop where
  first : s.mem P.first = markDummy (P.last - P.first)
  last : s.mem P.last = markDummy 0
  current : s.currentPtr = P.first
  largest : s.largestFree = 0
  regions : s.largeRegions = []
  binned : ∀ p n b, s.used p = some (n, b) → b = true

theorem Unused.of_idle (h : Unused P s) (hi : Idle P s t) (hb : ∀ p n b, t.used p = some (n, b) → b = true) : Unused P t :=
  ⟨hi.first.trans h.first, hi.last.trans h.last, hi.current.trans h.current, hi.largest.trans h.largest, hi.regions.trans h.regions, hb⟩

theorem unused_init (P : Statics) (mem : Int → Int) : Unused P (init P mem) := by
  have hap := first_last_apart P
  refine ⟨?_, update_self _ _ _, rfl, rfl, rfl, nofun⟩
  exact (update_of_ne (by omega) _ _).trans (update_self _ _ _)

theorem idle_bin (hs : s.bin numBytes = some t) : Idle P s t := by
  unfold Memory.bin at hs
  split at hs
  · cases hs
  dsimp only at hs
  split at hs
  · exact Option.some.inj hs ▸ ⟨rfl, rfl, rfl, rfl, rfl⟩
  split at hs
  · exact Option.some.inj hs ▸ ⟨rfl, rfl, rfl, rfl, rfl⟩
  · cases hs
    exact ⟨rfl, rfl, rfl, rfl, rfl⟩

theorem Layout.idle_store {q off v : Int} {b : Bool} (h : Layout P s f) (hp : s.used q = some (numBytes, b)) (hle : 0 ≤ off)
    (hlt : off < numBytes) : Idle P s (s.setAdmin (q + off) v) := by
  obtain ⟨u, hu⟩ := h.first
  obtain ⟨u', hu'⟩ := h.last
  exact idle_setAdmin (h.start_ne_store hp hle hlt hu) (h.start_ne_store hp hle hlt hu')

theorem Layout.free_statics {q : Int} {b : Bool} (h : Layout P s f) (hp : s.used q = some (numBytes, b)) (hs : s.free q = some t) :
    t.mem P.last = s.mem P.last ∧ (b = true → Idle P s t) := by
  obtain ⟨hw, hbin⟩ := h.word_of_used hp
  obtain ⟨hf, hl⟩ := h.ne_statics (h.inUse q numBytes b hp) (by cases b <;> exact fun _ h => by cases h)
  have hsz : sizeOf (bytesToBlocksize numBytes + 1) = bytesToBlocksize numBytes := by
    have hsize := bytesToBlocksize_pos numBytes
    unfold sizeOf
    omega
  unfold Memory.free at hs
  dsimp only at hs
  split at hs
  · cases hs
  rw [hw, hsz, hbin] at hs
  cases hs
  cases b with
  | true =>
    refine ⟨update_of_ne hl _ _, fun _ => ?_⟩
    exact ⟨update_of_ne hf _ _, update_of_ne hl _ _, rfl, rfl, rfl⟩
  | false => exact ⟨update_of_ne hl _ _, fun h => by cases h⟩

/-- A step that asks for no large object leaves the word of `last` as it is. -/
theorem Layout.step_binned {l : MemStep} (h : Layout P s f) (hl : Promised P s l) (hb : Binned s l) (hs : Memory.step P s l = some t) :
    t.mem P.last = s.mem P.last ∧ (Unused P s → Unused P t) := by
  cases l with
  | bin numBytes =>
    have hidle := idle_bin (P := P) hs
    refine ⟨hidle.last, fun hu => hu.of_idle hidle fun p n b hp => ?_⟩
    rw [(bin_same hs).1] at hp
    exact hu.binned p n b hp
  | malloc numBytes chunk fuel =>
    have hidle := h.idle_malloc hb hl.2 hs
    refine ⟨hidle.last, fun hu => hu.of_idle hidle fun p n b hp => ?_⟩
    obtain ⟨g, -, ⟨q, hgiven⟩, -⟩ := h.malloc hl.2 hs
    rw [hgiven.used] at hp
    by_cases hpq : p = q
    · subst hpq
      rw [update_self] at hp
      cases hp
      exact hb
    · rw [update_of_ne hpq] at hp
      exact hu.binned p n b hp
  | free q =>
    obtain ⟨⟨n, b⟩, hq⟩ := Option.ne_none_iff_exists'.1 hl
    obtain ⟨hlast, hidle⟩ := h.free_statics hq hs
    refine ⟨hlast, fun hu => hu.of_idle (hidle (hu.binned q n b hq)) fun p n' b' hp => ?_⟩
    obtain ⟨t', g, hs', -, -, hused, -⟩ := h.free hq
    cases hs'.symm.trans hs
    rw [hused] at hp
    by_cases hpq : p = q
    · subst hpq
      rw [update_self] at hp
      cases hp
    · rw [update_of_ne hpq] at hp
      exact hu.binned p n' b' hp
  | store q off v =>
    obtain ⟨n, b, hq, hle, hlt, -⟩ := hl
    cases hs
    have hidle := h.idle_store (v := v) hq hle hlt
    exact ⟨hidle.last, fun hu => hu.of_idle hidle hu.binned⟩

theorem sizeOf_markDummy (hn : n % 4 = 0) : sizeOf (markDummy n) = n := by
  unfold sizeOf markDummy
  omega

theorem isInUse_markDummy (n : Int) : isInUse (markDummy n) = true := by
  unfold isInUse markDummy
  rw [beq_iff_eq]
  omega

section
variable (h : Unused P s)
include h

theorem Unused.first_next : P.first + sizeOf (s.mem P.first) = P.last := by
  have hf := first_le P
  have hl := last_le P
  rw [h.first, sizeOf_markDummy (by omega)]
  omega

theorem Unused.last_next : P.last + sizeOf (s.mem P.last) = P.last := by
  rw [h.last, sizeOf_markDummy (by decide), Int.add_zero]

theorem Unused.largeBlock (ha : LargeBlock P s a) : a = P.first ∨ a = P.last := by
  induction ha with
  | first => exact .inl rfl
  | last => exact .inr rfl
  | next _ ih =>
    obtain rfl | rfl := ih
    · exact .inr h.first_next
    · exact .inr h.last_next

theorem Unused.not_freeRun (ha : LargeBlock P s a) : ¬ FreeRun s a n := by
  intro hr
  have hfree : isInUse (s.mem a) = false := by
    cases hr with
    | one hfree => exact hfree
    | more hfree _ => exact hfree
  obtain rfl | rfl := h.largeBlock ha
  · rw [h.first, isInUse_markDummy] at hfree
    cases hfree
  · rw [h.last, isInUse_markDummy] at hfree
    cases hfree

end

variable {k : Nat}

theorem search_next (huse : isInUse (s.mem s.currentPtr) = true) (hn : s.currentPtr + sizeOf (s.mem s.currentPtr) ≠ P.last) :
    search P m (k + 1) s chunk = search P m k { s with currentPtr := s.currentPtr + sizeOf (s.mem s.currentPtr) } chunk := by
  rw [search]
  rw [if_pos huse, if_pos hn]

theorem search_asks (huse : isInUse (s.mem s.currentPtr) = true)
    (hn : s.currentPtr + sizeOf (s.mem s.currentPtr) = P.last) (hl : s.largestFree ≤ m) :
    search P m (k + 1) s chunk = chunk.bind fun c => search P m k (s.addRegion P c) none := by
  rw [search]
  rw [if_pos huse, if_neg (not_not.2 hn), if_neg (by omega)]

/-- It ends at a free block that is large enough, and that no other free block follows. -/
theorem search_ends (hfree : isInUse (s.mem s.currentPtr) = false)
    (hn : isInUse (s.mem (s.currentPtr + sizeOf (s.mem s.currentPtr))) = true) (hle : m ≤ sizeOf (s.mem s.currentPtr)) :
    search P m (k + 2) s chunk = some (s, sizeOf (s.mem s.currentPtr)) := by
  rw [search]
  rw [if_neg (by rw [hfree]; exact Bool.false_ne_true), merge, if_pos hn]
  exact if_pos hle

theorem Unused.search (h : Unused P s) (hc : ValidChunk P s asked c) (hlong : 16 ≤ asked)
    (hm : 0 ≤ m) (hfit : m + 8 ≤ c.2) : search P m 4 { s with currentPtr := P.last } (some c) ≠ none := by
  have hl := last_le P
  have hwords := hc.words
  have hlen := hc.long
  have hstatics := hc.statics.2
  obtain ⟨s₁, hs₁⟩ : ∃ s₁ : Memory, s₁ = { s with currentPtr := P.last } := ⟨_, rfl⟩
  have hword : s₁.mem s₁.currentPtr = markDummy 0 := by rw [hs₁]; exact h.last
  have hcur : s₁.currentPtr = P.last := by rw [hs₁]
  have hmem := addRegion_mem_of_apart (P := P) (s := s₁) (c := c) (by rw [hcur]; unfold adminInfo; omega)
  have hcur' : (s₁.addRegion P c).currentPtr = P.last := (addRegion_rest P s₁ c).2.1.trans hcur
  rw [hcur] at hmem
  unfold adminInfo at hmem
  -- the word of `last`, and those of the two blocks of the region
  have hmem₀ : (s₁.addRegion P c).mem P.last = markDummy (c.1 - P.last) := by
    rw [hmem, update_of_ne (by omega), update_of_ne (by omega), update_self]
  have hmem₁ : (s₁.addRegion P c).mem c.1 = c.2 - 8 := by
    rw [hmem, update_of_ne (by omega), update_self, sizeOf_of_word (by omega)]
  have hmem₂ : (s₁.addRegion P c).mem (c.1 + (c.2 - 8)) = markDummy (P.last - (c.1 + (c.2 - 8))) := by
    rw [hmem, update_self]
  have hsize : sizeOf (c.2 - 8) = c.2 - 8 := sizeOf_of_word (by omega)
  have hstep : P.last + sizeOf (markDummy (c.1 - P.last)) = c.1 := by
    rw [sizeOf_markDummy (by omega)]
    omega
  rw [← hs₁, search_asks (by rw [hword]; exact isInUse_markDummy 0)
    (by rw [hword, hcur, sizeOf_markDummy (by decide), Int.add_zero]) (by rw [hs₁]; exact h.largest ▸ hm),
    Option.bind_some]
  rw [search_next (by rw [hcur', hmem₀]; exact isInUse_markDummy _) (by rw [hcur', hmem₀, hstep]; omega)]
  rw [hcur', hmem₀, hstep]
  rw [search_ends]
  · nofun
  · dsimp only
    rw [hmem₁]
    unfold isInUse
    rw [beq_eq_false_iff_ne]
    omega
  · dsimp only
    rw [hmem₁, hsize, hmem₂]
    exact isInUse_markDummy _
  · dsimp only
    rw [hmem₁, hsize]
    omega

theorem Unused.found (h : Unused P s) : Found P s := by
  have hap := first_last_apart P
  refine ⟨⟨[P.first], .cons (by omega) (by rw [h.first_next]; exact .nil), List.nodup_singleton _, ?_, ?_⟩, h.last,
    fun numBytes c hbin hc => ⟨4, fun hnone => ?_⟩, fun numBytes a n hbin ha hfree _ => absurd hfree (h.not_freeRun ha)⟩
  · rw [h.current]
    exact .inl List.mem_cons_self
  · rw [h.regions]
    nofun
  · have hsize := bytesToBlocksize_pos numBytes
    have hlen := hc.long
    unfold Memory.malloc at hnone
    dsimp only at hnone
    rw [show ({ s with numAllocs := s.numAllocs + 1 } : Memory).binned (bytesToBlocksize numBytes) = false from hbin,
      if_neg Bool.false_ne_true, Option.map_eq_none_iff] at hnone
    have hstart : Unused P { s with numAllocs := s.numAllocs + 1, numLargeAllocs := s.numLargeAllocs + 1 } := { h with }
    have hvalid : ValidChunk P { s with numAllocs := s.numAllocs + 1, numLargeAllocs := s.numLargeAllocs + 1 } (s.asked numBytes) c :=
      hc.of_regions rfl
    have hask := asked_large hbin
    unfold minRegionSize adminInfo at hask
    refine hstart.search hvalid (by omega) (by omega : 0 ≤ bytesToBlocksize numBytes) (by omega) ?_
    unfold mallocLarge at hnone
    rw [Option.map_eq_none_iff, h.current, h.first_next] at hnone
    exact hnone

theorem Found.not_patched (h : Found P s) : ¬ Patched P s := fun hp => hp h.last

/-- The list of the large blocks is right in just those states in which no large object has been asked for. -/
theorem large_blocks_found {mem : Int → Int} (hr : Run (Memory.step P) (Promised P) (init P mem) s) :
    Found P s ↔ Run (Memory.step P) (fun s l => Promised P s l ∧ Binned s l) (init P mem) s := by
  have hinv := hr.invariant_on (K := fun u => ∃ f, Layout P u f)
    (I := fun u => (Run (Memory.step P) (fun s l => Promised P s l ∧ Binned s l) (init P mem) u ∧ Unused P u) ∨ Patched P u)
    (fun u hu => run_layout hu) ?_ (.inl ⟨Run.refl _ _, unused_init P mem⟩)
  · refine ⟨fun hfound => (hinv.resolve_right hfound.not_patched).1, fun hbinned => ?_⟩
    -- a run without large objects leaves the allocator of these as it is
    have hunused := hbinned.invariant_on (K := fun u => ∃ f, Layout P u f) (I := Unused P)
      (fun u hu => run_layout (hu.mono fun _ _ hl => hl.1))
      (fun u l v ⟨f, hf⟩ hu hl hs => (hf.step_binned hl.1 hl.2 hs).2 hu) (unused_init P mem)
    exact hunused.found
  · rintro u l v ⟨f, hf⟩ hu hl hs
    by_cases hb : Binned u l
    · obtain ⟨hlast, hunused⟩ := hf.step_binned hl hb hs
      obtain ⟨hrun, hidle⟩ | hpatched := hu
      · exact .inl ⟨hrun.snoc ⟨hl, hb⟩ hs, hunused hidle⟩
      · exact .inr (by rw [Patched, hlast]; exact hpatched)
    · right
      cases l with
      | malloc numBytes chunk fuel =>
        obtain ⟨g, -, -, hpatch⟩ := hf.malloc hl.2 hs
        have hsize := bytesToBlocksize_pos numBytes
        refine hpatch (Bool.eq_false_iff.2 hb) ?_
        obtain ⟨-, hidle⟩ | hpatched := hu
        · refine .inr ⟨by rw [hidle.current]; exact hidle.first_next, ?_⟩
          rw [hidle.largest]
          omega
        · exact .inl hpatched
      | bin _ => exact absurd trivial hb
      | free _ => exact absurd trivial hb
      | store _ _ _ => exact absurd trivial hb

/-- The search starts at `first` again, and the second region is linked to that. -/
def lostRegion : List MemStep :=
  [.malloc 5000 (some (10000, 5016)) 5, .free 10008, .malloc 5000 (some (20000, 5016)) 9]

/-- The first region is one free block then, which `last` links to, but the search does not come to it. -/
theorem region_lost : ¬ ∀ (P : Statics) (mem : Int → Int) (s : Memory),
    Run (Memory.step P) (Promised P) (init P mem) s → Found P s := by
  intro hall
  have h : ((exec (guarded (Promised twoArrays) (Memory.step twoArrays)) (init twoArrays fun _ => 0) lostRegion).any fun s =>
      (16 + sizeOf (s.mem 16) = 10000 ∧ isInUse (s.mem 10000) = false ∧ sizeOf (s.mem 10000) = 5008) ∧
      (s.binned 5008 = false ∧ s.currentPtr + sizeOf (s.mem s.currentPtr) = 25008) ∧
      isInUse (s.mem 25008) = true ∧ 25008 + sizeOf (s.mem 25008) = twoArrays.last ∧ s.largestFree ≤ 5008) = true := by
    decide +kernel
  obtain ⟨s, hs, hp⟩ := (Option.any_eq_true _ _).1 h
  obtain ⟨⟨hlink, hfree, hsize⟩, ⟨hbin, hcur⟩, huse, hend, hlargest⟩ := of_decide_eq_true hp
  have hblock : LargeBlock twoArrays s 10000 := hlink ▸ LargeBlock.next (.last (P := twoArrays))
  obtain ⟨fuel, hfuel⟩ := (hall twoArrays _ s (run_of_guarded _ _ _ hs)).asks 5000 10000 _ hbin hblock (.one hfree) (by rw [hsize]; decide)
  refine hfuel ?_
  unfold Memory.malloc mallocLarge
  dsimp only
  rw [show ({ s with numAllocs := s.numAllocs + 1 } : Memory).binned (bytesToBlocksize 5000) = false from hbin,
    if_neg Bool.false_ne_true, hcur]
  rw [Option.map_eq_none_iff, Option.map_eq_none_iff]
  cases fuel with
  | zero => rfl
  | succ k => exact search_asks huse hend hlargest

instance : ∀ l, Decidable (Binned s l)
  | .malloc numBytes _ _ => inferInstanceAs (Decidable (s.binned (bytesToBlocksize numBytes) = true))
  | .bin _ | .free _ | .store _ _ _ => isTrue trivial

theorem large_blocks_found_binned : ∃ s, s.used 10344 = some (100, true) ∧ Found twoArrays s := by
  have h : ((exec (guarded (fun s l => Promised twoArrays s l ∧ Binned s l) (Memory.step twoArrays)) (init twoArrays fun _ => 0)
      [.malloc 100 (some (10000, 448)) 0]).any fun s => s.used 10344 = some (100, true)) = true := by decide +kernel
  obtain ⟨s, hs, hp⟩ := (Option.any_eq_true _ _).1 h
  have hr := run_of_guarded _ _ _ hs
  exact ⟨s, of_decide_eq_true hp, (large_blocks_found (hr.mono fun _ _ hl => hl.1)).2 hr⟩

end Memory
end SpriteKernel.Mem
